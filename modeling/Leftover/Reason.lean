/-
# Reasons

Why a job was left out: one code per constraint that a plan must keep, and one for jobs without a reason.

* `Reason.name`, `Reason.ofName?` : the written code, with `Reason.ofName?_eq_some`
* `Reason.description` : the fixed text of a reason
* `Reason.name_inj`, `Reason.description_inj` : both tell reasons apart
* `priorityOrder`, `Reason.rank` : the order in which reasons take precedence
-/

namespace Leftover

/-- A constraint that keeps a job out, or `unexplained` when none was found. -/
inductive Reason : Type where
  | unexplained
  | skill
  | timeWindow
  | capacity
  | reachable
  | maxDistance
  | shiftTime
  | breaks
  | locking
  | priority
  | area
  | dispatch
  | tourSize
  deriving DecidableEq, Repr, Inhabited

namespace Reason

/-- All reasons, in the order in which a message lists them. -/
def all : List Reason :=
  [unexplained, skill, timeWindow, capacity, reachable, maxDistance, shiftTime, breaks, locking,
   priority, area, dispatch, tourSize]

/-- The written code. -/
def name : Reason → String
  | unexplained => "NO_REASON_FOUND"
  | skill => "SKILL_CONSTRAINT"
  | timeWindow => "TIME_WINDOW_CONSTRAINT"
  | capacity => "CAPACITY_CONSTRAINT"
  | reachable => "REACHABLE_CONSTRAINT"
  | maxDistance => "MAX_DISTANCE_CONSTRAINT"
  | shiftTime => "SHIFT_TIME_CONSTRAINT"
  | breaks => "BREAK_CONSTRAINT"
  | locking => "LOCKING_CONSTRAINT"
  | priority => "PRIORITY_CONSTRAINT"
  | area => "AREA_CONSTRAINT"
  | dispatch => "DISPATCH_CONSTRAINT"
  | tourSize => "TOUR_SIZE_CONSTRAINT"

/-- The reason with a written code. -/
def ofName? (s : String) : Option Reason := all.find? (·.name = s)

/-- The fixed text that explains a reason to a planner. -/
def description : Reason → String
  | unexplained => "unknown"
  | skill => "cannot serve required skill"
  | timeWindow => "cannot be visited within time window"
  | capacity => "does not fit into any vehicle due to capacity"
  | reachable => "location unreachable"
  | maxDistance => "cannot be assigned due to max distance constraint of vehicle"
  | shiftTime => "cannot be assigned due to shift time constraint of vehicle"
  | breaks => "break is not assignable"
  | locking => "cannot be served due to relation lock"
  | priority => "cannot be served due to priority"
  | area => "cannot be assigned due to area constraint"
  | dispatch => "cannot be assigned due to vehicle dispatch"
  | tourSize => "cannot be assigned due to tour size constraint of vehicle"

/-! ### What the texts tell -/

theorem mem_all (r : Reason) : r ∈ all := by
  cases r <;> decide

/-- Reasons are told apart by their written codes. -/
theorem name_inj {r s : Reason} : r.name = s.name ↔ r = s := by
  have apart : ∀ r ∈ all, ∀ s ∈ all, r.name = s.name → r = s := by decide
  exact ⟨apart r (mem_all r) s (mem_all s), congrArg name⟩

/-- Reasons are told apart by the texts that explain them. -/
theorem description_inj {r s : Reason} : r.description = s.description ↔ r = s := by
  have apart : ∀ r ∈ all, ∀ s ∈ all, r.description = s.description → r = s := by decide
  exact ⟨apart r (mem_all r) s (mem_all s), congrArg description⟩

/-- A written code is that of the reason it is read as, and of no other. -/
theorem ofName?_eq_some {s : String} {r : Reason} : ofName? s = some r ↔ r.name = s := by
  have read : ∀ r ∈ all, ofName? r.name = some r := by decide
  constructor
  · intro found
    rw [ofName?] at found
    simpa using List.find?_some found
  · rintro rfl
    exact read r (mem_all r)

end Reason

/-! ## Precedence -/

/-- The constraints from the most fundamental defect to the least. -/
def priorityOrder : List Reason :=
  [.skill, .reachable, .timeWindow, .capacity, .maxDistance, .shiftTime, .breaks, .locking, .priority,
   .area, .dispatch, .tourSize]

/-- The place of a reason in the priority order, lower taking precedence; `unexplained` comes last. -/
def Reason.rank (r : Reason) : Nat := priorityOrder.idxOf r

end Leftover
