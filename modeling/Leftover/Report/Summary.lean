/-
# Summaries

How many jobs were left over for each reason, in priority order.

* `Report.summary` : a row for each reason that occurs
* `Report.summaryText` : the rows as lines of text
-/
import Leftover.Report.Entries

namespace Leftover

/-- The number of jobs of a reason, and their share of all leftover jobs. -/
structure SummaryRow (α : Type) where
  code : Reason
  jobs : Nat
  share : α
  deriving DecidableEq

namespace Report

variable {α : Type}

/-- The number of entries of a reason. -/
def count (r : Report α) (code : Reason) : Nat :=
  match r.byCode.find? (·.1 = code) with
  | some (_, ids) => ids.length
  | none => 0

/-- The reasons that occur, in priority order, those without a rank last. -/
def summaryCodes (r : Report α) : List Reason :=
  let present := r.byCode.map (·.1)
  priorityOrder.filter present.contains ++ present.filter (!priorityOrder.contains ·)

/-- A row for each reason that occurs. -/
def summary [Quantity α] (r : Report α) : List (SummaryRow α) :=
  r.summaryCodes.map fun code => ⟨code, r.count code, Quantity.ofNat (r.count code) / Quantity.ofNat r.size⟩

/-! ## Text -/

/-- A text filled up with blanks on the right. -/
def padRight (width : Nat) (s : String) : String := s ++ "".pushn ' ' (width - s.length)

/-- A text filled up with blanks on the left. -/
def padLeft (width : Nat) (s : String) : String := "".pushn ' ' (width - s.length) ++ s

/-- The line of a row. -/
def rowLine (row : SummaryRow Float) : String :=
  "  " ++ padRight 24 row.code.name ++ " " ++ padLeft 4 (toString row.jobs) ++ "  " ++ percentText row.share
    ++ "  " ++ row.code.description ++ "\n"

/-- The summary as lines of text, after a line with the totals. The number of all jobs is shown as it is told, if
it is. -/
def summaryText (r : Report Float) (allJobs : Option String) (elapsed : Float) : String :=
  let total := match allJobs with
    | some told => " of " ++ told ++ " jobs"
    | none => ""
  "[SUMMARY] unassigned=" ++ toString r.size ++ total ++ " elapsed=" ++ fixedText 2 elapsed ++ "s\n"
    ++ String.join (r.summary.map rowLine)

end Report

end Leftover
