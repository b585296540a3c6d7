/-
# The catalog of checks

Every reason but the one that stands for none has a check. A catalog says which of them are made; the
order of the checks is the priority order of their reasons.

* `Insertion.check` : the check of a reason
* `Catalog` : the reasons that are checked
* `Catalog.make`, `Catalog.without` : a catalog of given reasons, and of all but some
* `Catalog.inUse` : the checks that are made when some are asked for
-/
import Leftover.Check.Sequence
import Leftover.Check.Suitability
import Leftover.Check.Timing

namespace Leftover

variable {α : Type} [Quantity α]

/-! ## Checks -/

/-- What the constraint of a reason says about an insertion. -/
def Insertion.check [Plane α] (i : Insertion α) : Reason → Except Fault (Evidence α)
  | .unexplained => .error .noChecker
  | .skill => i.checkSkill
  | .timeWindow => i.checkTimeWindow
  | .capacity => i.checkCapacity
  | .reachable => i.checkReachable
  | .maxDistance => i.checkMaxDistance
  | .shiftTime => i.checkShiftTime
  | .breaks => i.checkBreaks
  | .locking => i.checkLocking
  | .priority => i.checkPriority
  | .area => i.checkArea
  | .dispatch => i.checkDispatch
  | .tourSize => i.checkTourSize

namespace Reason

/-- The reason itself, if it has a check. -/
def requireCheck (r : Reason) : Except Fault Reason :=
  if r = .unexplained then .error .noChecker else .ok r

/-- The check does not depend on the position, so one answer holds for the whole route. -/
def isRouteWide : Reason → Bool
  | skill | area | dispatch | tourSize => true
  | _ => false

/-- The name of a check. -/
def checkerName : Reason → String
  | unexplained => ""
  | skill => "SkillChecker"
  | timeWindow => "TimeWindowChecker"
  | capacity => "CapacityChecker"
  | reachable => "ReachableChecker"
  | maxDistance => "MaxDistanceChecker"
  | shiftTime => "ShiftTimeChecker"
  | breaks => "BreakChecker"
  | locking => "LockingChecker"
  | priority => "PriorityChecker"
  | area => "AreaChecker"
  | dispatch => "DispatchChecker"
  | tourSize => "TourSizeChecker"

/-- A check as it is shown in a list. -/
def checkerText (r : Reason) : String := r.checkerName ++ "(" ++ r.name ++ ")"

end Reason

/-! ## Catalogs -/

/-- Reasons that are checked, in priority order. -/
structure Catalog where
  reasons : List Reason
  sublist : reasons.Sublist priorityOrder

namespace Catalog

/-- The reasons of the priority order that are wanted. -/
def select (wanted : Reason → Bool) : Catalog := ⟨priorityOrder.filter wanted, List.filter_sublist⟩

/-- All reasons but those that are switched off. -/
def without (disabled : List Reason) : Catalog := select fun r => !disabled.contains r

/-- The checks that are made: those asked for. If no checks are asked for, or none at all, it is all that are not
switched off. -/
def inUse (asked : Option Catalog) (disabled : List Reason) : Catalog :=
  match asked with
  | none => without disabled
  | some c => if c.reasons.isEmpty then without disabled else c

/-- Reasons sorted by rank, each as often as it is given. -/
def sorted (reasons : List Reason) : List Reason :=
  (priorityOrder ++ [Reason.unexplained]).flatMap fun r => List.replicate (reasons.count r) r

/-- The catalog of given reasons. None may be given twice, and the one that stands for none not at all. -/
def make (reasons : List Reason) : Except Fault Catalog :=
  if ¬ reasons.Nodup then .error (.repeatedChecker (sorted reasons))
  else if reasons.contains .unexplained then .error .fallbackChecker
  else .ok (select reasons.contains)

/-- A reason is checked unless it is switched off. -/
theorem mem_without {disabled : List Reason} {r : Reason} :
    r ∈ (without disabled).reasons ↔ r ∈ priorityOrder ∧ r ∉ disabled := by
  simp [without, select]

/-- The checks that are not switched off are those in use, whether they are asked for or not. -/
theorem inUse_without (disabled : List Reason) : inUse (some (without disabled)) disabled = without disabled := by
  rw [inUse, ite_self]

/-- No check is in use only if none is asked for and all are switched off. -/
theorem inUse_eq_nil_iff {asked : Option Catalog} {disabled : List Reason} :
    (inUse asked disabled).reasons = []
      ↔ (∀ c ∈ asked, c.reasons = []) ∧ ∀ r ∈ priorityOrder, r ∈ disabled := by
  have all_off : (without disabled).reasons = [] ↔ ∀ r ∈ priorityOrder, r ∈ disabled := by
    rw [List.eq_nil_iff_forall_not_mem]
    simp only [mem_without, not_and, Decidable.not_not]
  cases asked with
  | none => simp [inUse, all_off]
  | some c =>
    rw [← all_off, inUse]
    by_cases bare : c.reasons = []
    · simp [bare]
    · simp [bare]

/-- Reasons are checked in priority order. -/
theorem pairwise_rank_lt (c : Catalog) : c.reasons.Pairwise fun r s => r.rank < s.rank :=
  List.Pairwise.sublist c.sublist (by decide)

/-- The reason that stands for none is not checked. -/
theorem unexplained_notMem (c : Catalog) : Reason.unexplained ∉ c.reasons := by
  intro h
  have h := c.sublist.subset h
  revert h
  decide

/-- The reason is checked. -/
def contains (c : Catalog) (r : Reason) : Bool := c.reasons.contains r

/-- The checks that are made once for a route. -/
def routeWide (c : Catalog) : List Reason := c.reasons.filter Reason.isRouteWide

/-- The checks at each position: all but reachability, which decides whether the others are made. -/
def gated (c : Catalog) : List Reason := c.reasons.filter (· ≠ .reachable)

/-- The checks that are made anew at each position. -/
def perPosition (c : Catalog) : List Reason := c.gated.filter fun r => !r.isRouteWide

end Catalog

end Leftover
