/-
# Faults of checks

A check fails only where a location lies outside the matrix, where a position lies outside the route, or where an
area has no proper border. Only the last can stop the evaluation of a job.

* `RouteState.insertion_fault` : faults of an insertion
* `Insertion.checkArea_fault` : faults of the check of areas
* `Insertion.check_fault` : faults of a check that is not about areas
* `Insertion.checkReachable_eq_ok` : at a position of the route reachability can be judged
-/
import Leftover.Check.Catalog
import Leftover.Proofs.Drive

namespace Leftover

variable {α : Type} [Quantity α]

/-- An insertion fails outside the route or outside the matrix. -/
theorem RouteState.insertion_fault {s : RouteState α} {job : Job α} {position : Int} {fault : Fault}
    (h : s.insertion job position = .error fault) : fault.ends = false := by
  unfold insertion insertionAt at h
  split at h
  · split at h
    · rw [except_map_eq_error] at h
      rw [walk_eq_error h]
      rfl
    · rw [walk_eq_error h]
      rfl
  · cases h
    rfl

namespace Insertion

/-! ## Checks on the schedule -/

theorem onSchedule_fault {i : Insertion α} {judge : Schedule α → Except Fault (Evidence α)} {fault : Fault}
    (judged : ∀ s fault, judge s = .error fault → fault.ends = false) (h : i.onSchedule judge = .error fault) :
    fault.ends = false := by
  rcases except_bind_eq_error.mp h with h | ⟨s, -, h⟩
  · exact RouteState.insertion_fault h
  · split at h
    · exact judged s fault h
    · exact absurd h (by simp)

theorem checkTimeWindow_fault {i : Insertion α} {fault : Fault} (h : i.checkTimeWindow = .error fault) :
    fault.ends = false := by
  refine onSchedule_fault (fun s fault' h' => ?_) h
  split at h'
  · cases h'
    rfl
  · exact absurd h' (by simp)

theorem checkMaxDistance_fault {i : Insertion α} {fault : Fault} (h : i.checkMaxDistance = .error fault) :
    fault.ends = false := by
  unfold checkMaxDistance at h
  split at h
  · exact absurd h (by simp)
  · exact onSchedule_fault (fun s fault' h' => absurd h' (by simp)) h

theorem checkShiftTime_fault {i : Insertion α} {fault : Fault} (h : i.checkShiftTime = .error fault) :
    fault.ends = false := by
  refine onSchedule_fault (fun s fault' h' => ?_) h
  split at h' <;> exact absurd h' (by simp)

theorem checkBreaks_fault {i : Insertion α} {fault : Fault} (h : i.checkBreaks = .error fault) :
    fault.ends = false := by
  unfold checkBreaks at h
  split at h
  · exact absurd h (by simp)
  · exact onSchedule_fault (fun s fault' h' => absurd h' (by simp)) h

/-! ## Other checks -/

theorem checkCapacity_fault {i : Insertion α} {fault : Fault} (h : i.checkCapacity = .error fault) :
    fault.ends = false := by
  rcases except_bind_eq_error.mp h with h | ⟨peak, -, h⟩
  · unfold RouteState.peakWith at h
    split at h
    · exact absurd h (by simp)
    · cases h
      rfl
  · exact absurd h (by simp)

theorem checkAfterDispatch_fault {i : Insertion α} {fault : Fault} (h : i.checkAfterDispatch = .error fault) :
    fault.ends = false := by
  unfold checkAfterDispatch at h
  split at h
  · exact absurd h (by simp)
  · rcases except_bind_eq_error.mp h with h | ⟨minutes, -, h⟩
    · rw [entry_eq_error h]
      rfl
    · split at h <;> exact absurd h (by simp)

theorem checkDispatch_fault {i : Insertion α} {fault : Fault} (h : i.checkDispatch = .error fault) :
    fault.ends = false := by
  unfold checkDispatch at h
  split at h
  · exact absurd h (by simp)
  · dsimp only at h
    -- every way out but the last is an answer
    iterate 4
      split at h
      · exact absurd h (by simp)
    exact checkAfterDispatch_fault h

theorem checkTourSize_fault {i : Insertion α} {fault : Fault} (h : i.checkTourSize = .error fault) :
    fault.ends = false := by
  unfold checkTourSize at h
  split at h
  · exact absurd h (by simp)
  · split at h <;> exact absurd h (by simp)

/-! ### Paths -/

/-- The place before a position: that of the stop there, or where the route begins. -/
theorem locationBefore_eq {i : Insertion α} {k : Nat} (at_k : i.position = k) (inside : k ≤ i.state.jobs.length) :
    i.locationBefore = .ok ((((i.state.jobs.take k).getLast?).map (·.location)).getD i.state.origin.location) := by
  rw [locationBefore, at_k]
  cases k with
  | zero => rfl
  | succ k =>
    have inside' : k < i.state.jobs.length := inside
    have last : (i.state.jobs.take (k + 1)).getLast? = some i.state.jobs[k] := by
      simp [List.getLast?_take, List.getElem?_eq_getElem inside']
    rw [if_pos (by omega), show ((k + 1 : Nat) : Int) - 1 = (k : Int) by omega, itemAt?_natCast,
      List.getElem?_eq_getElem inside', last]
    rfl

/-- The place after a position: that of the stop there, or where the route ends, if anywhere. -/
theorem locationAfter_eq {i : Insertion α} {k : Nat} (at_k : i.position = k) :
    i.locationAfter = .ok (((i.state.jobs.drop k).head?.map (·.location)).or i.vehicle.endLocation) := by
  rw [locationAfter, at_k]
  by_cases inside : k < i.state.jobs.length
  · have first : (i.state.jobs.drop k).head? = some i.state.jobs[k] := by
      simp [List.getElem?_eq_getElem inside]
    rw [if_pos (by rw [RouteState.size]; omega), itemAt?_natCast, List.getElem?_eq_getElem inside, first]
    rfl
  · rw [if_neg (by rw [RouteState.size]; omega), List.drop_eq_nil_of_le (by omega)]
    rfl

/-- At a position of the route reachability can be judged. -/
theorem checkReachable_eq_ok {i : Insertion α} {k : Nat} (at_k : i.position = k) (inside : k ≤ i.state.jobs.length) :
    ∃ kept, i.checkReachable = .ok (.ofKept kept) := by
  rw [checkReachable, locationBefore_eq at_k inside, locationAfter_eq at_k]
  exact ⟨_, rfl⟩

theorem checkReachable_fault {i : Insertion α} {fault : Fault} (h : i.checkReachable = .error fault) :
    fault.ends = false := by
  rcases except_bind_eq_error.mp h with h | ⟨before, -, h⟩
  · unfold locationBefore at h
    split at h
    · split at h
      · exact absurd h (by simp)
      · cases h
        rfl
    · exact absurd h (by simp)
  · rcases except_bind_eq_error.mp h with h | ⟨after, -, h⟩
    · unfold locationAfter at h
      split at h
      · split at h
        · exact absurd h (by simp)
        · cases h
          rfl
      · exact absurd h (by simp)
    · exact absurd h (by simp)

/-! ### Areas -/

section

variable [Plane α] (mild : Plane.StopsNothing α)

include mild

omit [Quantity α] in
theorem anyCovers_fault {point : Point α} {areas : List (Area α)} {fault : Fault}
    (h : anyCovers point areas = .error fault) : fault.ends = false := by
  induction areas with
  | nil => exact absurd h (by simp [anyCovers])
  | cons area rest ih =>
    rcases except_bind_eq_error.mp h with h | ⟨covered, -, h⟩
    · exact mild _ _ _ h
    · split at h
      · exact absurd h (by simp)
      · exact ih h

/-- The check of areas stops the evaluation of no job, if nothing that is wrong with an area or a point does. -/
theorem checkArea_fault {i : Insertion α} {fault : Fault} (h : i.checkArea = .error fault) : fault.ends = false := by
  simp only [checkArea] at h
  split at h
  · exact absurd h (by simp)
  · split at h
    · exact absurd h (by simp)
    · split at h
      · exact absurd h (by simp)
      · rcases except_bind_eq_error.mp h with h | ⟨covered, -, h⟩
        · exact anyCovers_fault mild h
        · exact absurd h (by simp)

end

/-! ## All checks -/

/-- A check that is not about areas stops the evaluation of no job. -/
theorem check_fault [Plane α] {i : Insertion α} {r : Reason} {fault : Fault} (other : r ≠ .area)
    (h : i.check r = .error fault) : fault.ends = false := by
  cases r with
  | unexplained =>
    cases h
    rfl
  | skill => exact absurd h (by simp [check, checkSkill])
  | timeWindow => exact checkTimeWindow_fault h
  | capacity => exact checkCapacity_fault h
  | reachable => exact checkReachable_fault h
  | maxDistance => exact checkMaxDistance_fault h
  | shiftTime => exact checkShiftTime_fault h
  | breaks => exact checkBreaks_fault h
  | locking => exact absurd h (by simp [check, checkLocking])
  | priority =>
    have h : i.checkPriority = .error fault := h
    unfold checkPriority at h
    split at h <;> exact absurd h (by simp)
  | area => exact absurd rfl other
  | dispatch => exact checkDispatch_fault h
  | tourSize => exact checkTourSize_fault h

end Insertion

end Leftover
