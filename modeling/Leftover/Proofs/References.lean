/-
# What a solution names

A solution names vehicles and jobs of its problem: the vehicle and the jobs of each route, the vehicles of hints, and the
jobs that are left over. If one of these does not exist, the leftover jobs are not told, and the fault is about one that
is missing. If all of them exist, the leftover jobs are told unless some of them are served by a route. The jobs that
hints are noted for are not looked up.

* `Misses` : what a solution names and its problem lacks
* `checkReferences_eq_ok` : the check of names goes through just when nothing is missing
* `leftoverIds_judged` : when the leftover ids are told, and what is wrong when they are not
-/
import Leftover.Proofs.Leftovers

namespace Leftover

/-! ## Names -/

/-- The fault is about something that is named and does not exist. -/
def Fault.isMissing : Fault → Bool
  | .unknownJob _ | .unknownVehicle _ | .noMatrix _ _ => true
  | _ => false

variable {α : Type}

/-- A solution names a vehicle or a job that its problem lacks, and this is the fault about it. The jobs that hints are
noted for do not count. -/
inductive Misses (p : Problem α) (s : Solution α) : Fault → Prop where
  /-- The vehicle of a route. -/
  | driver {r : Route α} (driven : r ∈ s.routes) (absent : r.vehicleId ∉ p.fleetIds) :
    Misses p s (.unknownVehicle r.vehicleId)
  /-- A job that a route serves. -/
  | stop {r : Route α} {id : Text} (driven : r ∈ s.routes) (served : id ∈ r.jobIds) (absent : id ∉ p.jobs.map (·.id)) :
    Misses p s (.unknownJob id)
  /-- The vehicle of a hint. -/
  | hint {noted : Text × List (Hint α)} {h : Hint α} {id : Text} (listed : noted ∈ s.hints) (member : h ∈ noted.2)
    (named : h.vehicleId = some id) (absent : id ∉ p.fleetIds) : Misses p s (.unknownVehicle id)
  /-- A leftover job. -/
  | leftover {id : Text} (left : id ∈ s.unassigned) (absent : id ∉ p.jobs.map (·.id)) : Misses p s (.unknownJob id)

section

variable {p : Problem α} {s : Solution α} {fault : Fault}

theorem Misses.isMissing (misses : Misses p s fault) : fault.isMissing = true := by
  cases misses with
  | driver => rfl
  | stop => rfl
  | hint => rfl
  | leftover => rfl

/-- Looking a job up fails just when it is missing. -/
theorem seek_job_eq_error {id : Text} : (do let _ ← p.job id : Except Fault Unit) = .error fault
    ↔ id ∉ p.jobs.map (·.id) ∧ fault = .unknownJob id := by
  rw [except_bind_eq_error, Problem.job_eq_error]
  simp

/-- Looking a vehicle up fails just when it is missing. -/
theorem seek_vehicle_eq_error {id : Text} : (do let _ ← p.vehicle id : Except Fault Unit) = .error fault
    ↔ id ∉ p.fleetIds ∧ fault = .unknownVehicle id := by
  rw [except_bind_eq_error, Problem.vehicle_eq_error]
  simp

/-- A fault of the check of a route is about its vehicle or one of its jobs. -/
theorem misses_of_checkRoute {r : Route α} (driven : r ∈ s.routes) (failed : checkRoute p r = .error fault) :
    Misses p s fault := by
  rcases except_bind_eq_error.mp failed with unknown | ⟨_, -, failed⟩
  · obtain ⟨absent, rfl⟩ := Problem.vehicle_eq_error.mp unknown
    exact .driver driven absent
  · obtain ⟨id, served, failed⟩ := mem_of_forM_eq_error failed
    obtain ⟨absent, rfl⟩ := seek_job_eq_error.mp failed
    exact .stop driven served absent

/-- A fault of the check of a hint is about its vehicle. -/
theorem misses_of_checkHint {noted : Text × List (Hint α)} {h : Hint α} (listed : noted ∈ s.hints) (member : h ∈ noted.2)
    (failed : checkHint p h = .error fault) : Misses p s fault := by
  unfold checkHint at failed
  split at failed
  · exact absurd failed (by simp)
  · rename_i id named
    obtain ⟨absent, rfl⟩ := seek_vehicle_eq_error.mp failed
    exact .hint listed member named absent

/-- The check of names fails with a fault about what is missing. -/
theorem misses_of_checkReferences (failed : checkReferences p s = .error fault) : Misses p s fault := by
  rcases except_bind_eq_error.mp failed with failed | ⟨_, -, failed⟩
  · obtain ⟨r, driven, failed⟩ := mem_of_forM_eq_error failed
    exact misses_of_checkRoute driven failed
  · rcases except_bind_eq_error.mp failed with failed | ⟨_, -, failed⟩
    · obtain ⟨h, noted, failed⟩ := mem_of_forM_eq_error failed
      obtain ⟨entry, listed, member⟩ := List.mem_flatMap.mp noted
      exact misses_of_checkHint listed member failed
    · obtain ⟨id, left, failed⟩ := mem_of_forM_eq_error failed
      obtain ⟨absent, rfl⟩ := seek_job_eq_error.mp failed
      exact .leftover left absent

/-- The check of names goes through just when nothing is missing. -/
theorem checkReferences_eq_ok : checkReferences p s = .ok () ↔ ∀ fault, ¬Misses p s fault := by
  constructor
  · intro passed fault misses
    obtain ⟨_, routes, others⟩ := except_bind_eq_ok.mp passed
    obtain ⟨_, hints, -⟩ := except_bind_eq_ok.mp others
    cases misses with
    | driver driven absent =>
      obtain ⟨v, found, -⟩ := except_bind_eq_ok.mp (except_forM_eq_ok.mp routes _ driven)
      exact absent (Problem.exists_vehicle_iff.mp ⟨v, found⟩)
    | stop driven served absent =>
      obtain ⟨_, -, stops⟩ := except_bind_eq_ok.mp (except_forM_eq_ok.mp routes _ driven)
      obtain ⟨j, found, -⟩ := except_bind_eq_ok.mp (except_forM_eq_ok.mp stops _ served)
      exact absent (Problem.exists_job_iff.mp ⟨j, found⟩)
    | hint listed member named absent =>
      have checked := except_forM_eq_ok.mp hints _ (List.mem_flatMap.mpr ⟨_, listed, member⟩)
      rw [checkHint, named] at checked
      obtain ⟨v, found, -⟩ := except_bind_eq_ok.mp checked
      exact absent (Problem.exists_vehicle_iff.mp ⟨v, found⟩)
    | leftover left absent => exact absent (mem_ids_of_checkReferences passed left)
  · intro complete
    cases checked : checkReferences p s with
    | error fault => exact absurd (misses_of_checkReferences checked) (complete fault)
    | ok _ => rfl

end

/-! ## Leftover ids -/

/-- Both left over and served by a route. -/
def Solution.LeftAndServed (s : Solution α) (id : Text) : Prop := id ∈ s.unassigned ∧ ∃ r ∈ s.routes, id ∈ r.jobIds

/-- How the leftover ids of a solution are told. The fault is about a missing vehicle or job just when there is one that
the solution names. If nothing is missing, it is about the jobs that are both left over and served just when there are
such jobs; it names just these, each once, in the order in which they are first listed. In all other cases the ids are
told, each once and in the order of the problem. -/
structure Judged (p : Problem α) (s : Solution α) (found : Except Fault (List Text)) : Prop where
  missing_iff : (∃ fault, found = .error fault ∧ fault.isMissing) ↔ ∃ fault, Misses p s fault
  missing : ∀ fault, found = .error fault → fault.isMissing → Misses p s fault
  both_iff : (∃ both, found = .error (.routedAndLeft both)) ↔ (∀ fault, ¬Misses p s fault) ∧ ∃ id, s.LeftAndServed id
  both : ∀ both, found = .error (.routedAndLeft both) →
    (∀ id, id ∈ both ↔ s.LeftAndServed id) ∧ both.Pairwise fun id id' => s.unassigned.idxOf id < s.unassigned.idxOf id'
  ok_iff : (∃ ids, found = .ok ids) ↔ (∀ fault, ¬Misses p s fault) ∧ ∀ id, ¬s.LeftAndServed id
  ok : ∀ ids, found = .ok ids → ids.Nodup ∧ (∀ id, id ∈ ids ↔ id ∈ s.unassigned)
    ∧ ids.Pairwise fun id id' => p.jobPlace id ≤ p.jobPlace id'

namespace Judged

variable {p : Problem α} {s : Solution α}

theorem of_misses {fault : Fault} (misses : Misses p s fault) : Judged p s (.error fault) where
  missing_iff := iff_of_true ⟨fault, rfl, misses.isMissing⟩ ⟨fault, misses⟩
  missing := by
    intro fault' same _
    obtain rfl := Except.error.inj same
    exact misses
  both_iff := by
    refine iff_of_false ?_ fun h => h.1 fault misses
    rintro ⟨both, same⟩
    obtain rfl := Except.error.inj same
    exact absurd misses.isMissing (by simp [Fault.isMissing])
  both := by
    intro both same
    obtain rfl := Except.error.inj same
    exact absurd misses.isMissing (by simp [Fault.isMissing])
  ok_iff := iff_of_false (by simp) fun h => h.1 fault misses
  ok := by simp

theorem of_both (complete : ∀ fault, ¬Misses p s fault) {both : List Text} (conflict : ∃ id, s.LeftAndServed id)
    (exact_ids : ∀ id, id ∈ both ↔ s.LeftAndServed id)
    (in_order : both.Pairwise fun id id' => s.unassigned.idxOf id < s.unassigned.idxOf id') :
    Judged p s (.error (.routedAndLeft both)) where
  missing_iff := iff_of_false (by simp [Fault.isMissing]) fun h => complete _ h.choose_spec
  missing := by simp [Fault.isMissing]
  both_iff := iff_of_true ⟨both, rfl⟩ ⟨complete, conflict⟩
  both := by
    intro both' same
    obtain rfl : both = both' := by simpa using same
    exact ⟨exact_ids, in_order⟩
  ok_iff := iff_of_false (by simp) fun h => h.2 _ conflict.choose_spec
  ok := by simp

theorem of_free (complete : ∀ fault, ¬Misses p s fault) (free : ∀ id, ¬s.LeftAndServed id) {ids : List Text}
    (once : ids.Nodup) (exact_ids : ∀ id, id ∈ ids ↔ id ∈ s.unassigned)
    (in_order : ids.Pairwise fun id id' => p.jobPlace id ≤ p.jobPlace id') : Judged p s (.ok ids) where
  missing_iff := iff_of_false (by simp) fun h => complete _ h.choose_spec
  missing := by simp
  both_iff := iff_of_false (by simp) fun h => free _ h.2.choose_spec
  both := by simp
  ok_iff := iff_of_true ⟨ids, rfl⟩ ⟨complete, free⟩
  ok := by
    intro ids' same
    obtain rfl := Except.ok.inj same
    exact ⟨once, exact_ids, in_order⟩

end Judged

section

variable (p : Problem α) (s : Solution α)

theorem mem_filter_isRouted {id : Text} : id ∈ (distinctLeftovers s).filter s.isRouted ↔ s.LeftAndServed id := by
  rw [distinctLeftovers, List.mem_filter, List.mem_eraseDups, Solution.isRouted, List.any_eq_true]
  simp [Solution.LeftAndServed]

/-- If nothing is missing, the leftover ids are told unless some of them are served. -/
theorem judged_of_complete (complete : ∀ fault, ¬Misses p s fault) : Judged p s (leftoverIds p s).outcome := by
  have checked : checkReferences p s = .ok () := checkReferences_eq_ok.mpr complete
  by_cases free : (distinctLeftovers s).filter s.isRouted = []
  · have outcome : (leftoverIds p s).outcome
        = .ok ((distinctLeftovers s).mergeSort fun id id' => p.jobPlace id ≤ p.jobPlace id') := by
      simp [leftoverIds, checked, checkUnrouted, free]
    have perm := List.mergeSort_perm (distinctLeftovers s) fun id id' => p.jobPlace id ≤ p.jobPlace id'
    rw [outcome]
    refine .of_free complete (fun id conflict => ?_) ?_ (fun id => ?_) (pairwise_mergeSort_jobPlace p _)
    · exact List.ne_nil_of_mem ((mem_filter_isRouted s).mpr conflict) free
    · exact perm.nodup_iff.mpr (nodup_eraseDups _)
    · exact perm.mem_iff.trans List.mem_eraseDups
  · have outcome : (leftoverIds p s).outcome
        = .error (.routedAndLeft ((distinctLeftovers s).filter s.isRouted)) := by
      simp [leftoverIds, checked, checkUnrouted, free]
    obtain ⟨id, listed⟩ := List.exists_mem_of_ne_nil _ free
    rw [outcome]
    exact .of_both complete ⟨id, (mem_filter_isRouted s).mp listed⟩ (fun id => mem_filter_isRouted s)
      ((pairwise_idxOf_eraseDups _).filter _)

/-- Hints may be noted for any other jobs. -/
theorem leftoverIds_hintsFor (other : Text → Text) :
    leftoverIds p { s with hints := s.hints.map fun (id, hints) => (other id, hints) } = leftoverIds p s := by
  have same : (s.hints.map fun (id, hints) => (other id, hints)).flatMap (·.2) = s.hints.flatMap (·.2) := by
    rw [List.flatMap_map]
  simp only [leftoverIds, checkReferences, same]
  rfl

/-- For every problem and every solution the leftover ids are told, or a fault about what is missing or about jobs that
are also served. The jobs that hints are noted for play no part in it: with any others in their place, even some that the
problem lacks, the result and the warnings are the same. -/
theorem leftoverIds_judged : Judged p s (leftoverIds p s).outcome
    ∧ ∀ other : Text → Text, leftoverIds p { s with hints := s.hints.map fun (id, hints) => (other id, hints) }
      = leftoverIds p s := by
  refine ⟨?_, leftoverIds_hintsFor p s⟩
  cases checked : checkReferences p s with
  | error fault =>
    have outcome : (leftoverIds p s).outcome = .error fault := by simp [leftoverIds, checked]
    rw [outcome]
    exact .of_misses (misses_of_checkReferences checked)
  | ok _ => exact judged_of_complete p s (checkReferences_eq_ok.mp checked)

end

end Leftover
