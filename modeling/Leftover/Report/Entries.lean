/-
# Reports

One entry per leftover job, in the order of the jobs of the problem.

* `Report` : the entries
* `Report.fragment`, `Report.text` : the part of a solution document that tells the reasons
* `Report.byCode` : the jobs of each reason
-/
import Leftover.Diagnosis.Resolution
import Leftover.Json.Printer

namespace Leftover

/-- The reason shown for one leftover job. -/
structure Entry (α : Type) where
  jobId : Text
  code : Reason
  description : Text
  vehicleId : Option Text
  severity : Option α
  deriving DecidableEq

/-- The entry of a job. -/
def Entry.ofResolution {α : Type} (jobId : Text) (r : Resolution α) : Entry α :=
  ⟨jobId, r.code, r.description, r.vehicleId, r.severity⟩

/-- The entries of all leftover jobs. -/
structure Report (α : Type) where
  entries : List (Entry α)
  deriving DecidableEq

namespace Report

variable {α : Type}

/-- The number of entries. -/
def size (r : Report α) : Nat := r.entries.length

/-- The ids of the leftover jobs. -/
def jobIds (r : Report α) : List Text := r.entries.map (·.jobId)

/-! ## Documents -/

/-- One entry in a solution document. -/
def entryDocument (e : Entry α) : Json :=
  .record
    [("jobId", .text e.jobId),
     ("reasons", .list [.record [("code", .text e.code.name), ("description", .text e.description)]])]

/-- The part of a solution document that tells the reasons. -/
def fragment (r : Report α) : Json := Json.ofList entryDocument r.entries

/-- That part as a text. -/
def text (indent : Option Int) (r : Report α) : String := r.fragment.print indent

/-! ## Grouping -/

/-- A job added to its group, or a new group at the end. -/
def addToGroup (code : Reason) (jobId : Text) : List (Reason × List Text) → List (Reason × List Text)
  | [] => [(code, [jobId])]
  | (c, ids) :: rest => if c = code then (c, ids ++ [jobId]) :: rest else (c, ids) :: addToGroup code jobId rest

/-- The jobs of each reason, reasons in the order in which they first occur. -/
def byCode (r : Report α) : List (Reason × List Text) :=
  r.entries.foldl (fun groups e => addToGroup e.code e.jobId groups) []

end Report

end Leftover
