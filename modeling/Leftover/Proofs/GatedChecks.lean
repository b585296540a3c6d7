/-
# Checks behind the gate

Reachability looks at the two legs around a job, while a schedule drives the whole route and other checks look up legs
and loads of their own. Still nothing can go wrong once it is kept: all other legs were driven before the job came in,
so on a route that gets through every check but that of areas has an answer.

* `RouteState.exists_peakWith`, `RouteState.origin_inside` : what capacity and dispatch look up
* `Insertion.exists_check` : all checks but that of areas have an answer
* `Evaluator.judges_gated` : of the constraints, only areas can fail to be judged at a position behind the gate
-/
import Leftover.Proofs.AcceptedRuns
import Leftover.Proofs.Leftovers
import Leftover.Proofs.LookedUpLegs
import Leftover.Proofs.SurveyWarnings
import Leftover.Proofs.Validity

namespace Leftover

variable {α : Type} [Quantity α]

/-! ## What is looked up -/

namespace RouteState

/-- There are peaks on both sides of each position of a route, so a job can be added to them. -/
theorem exists_peakWith (s : RouteState α) (job : Job α) {k : Nat} (inside : k ≤ s.jobs.length) :
    ∃ peak, s.peakWith job k = .ok peak := by
  have before_length : k < s.peaksBefore.length := by
    rw [peaksBefore, Load.peaks, Load.length_peaksFrom, length_loads]
    omega
  have ahead_length : k < s.peaksAhead.length := by
    rw [peaksAhead, Load.peaksAhead, List.length_reverse, Load.peaks, Load.length_peaksFrom, List.length_reverse,
      length_loads]
    omega
  simp only [peakWith, itemAt?_natCast, List.getElem?_eq_getElem before_length, List.getElem?_eq_getElem ahead_length]
  exact ⟨_, rfl⟩

/-- A route that gets through begins within the matrix, if paths lead to a job at some position. -/
theorem origin_inside {s : RouteState α} (square : s.matrix.IsSquare) (reachable : s.base.reachable = true) {k : Nat}
    {location : Nat}
    (to_job : s.matrix.isReachable ((((s.jobs.take k).getLast?).map (·.location)).getD s.origin.location) location
      = true) :
    s.origin.location < s.matrix.size := by
  obtain ⟨-, home, driven, -⟩ := walk_eq_reachable s.walk_eq reachable
  cases jobs_eq : s.jobs with
  | nil =>
    -- the job is driven to from where the route begins
    rw [jobs_eq, List.take_nil] at to_job
    exact (Matrix.inside_of_isReachable to_job).1
  | cons first rest =>
    -- the first leg of the route was driven before
    rw [jobs_eq] at driven
    obtain ⟨minutes, meters, later, leg, -⟩ := drive_cons_eq_some driven
    exact (square.exists_leg_iff.mp ⟨_, leg⟩).1

end RouteState

/-! ## All checks but one -/

namespace Insertion

/-- The dispatch can be judged if the way from it to the job lies within the matrix. -/
theorem exists_checkDispatch {i : Insertion α} (square : i.state.matrix.IsSquare)
    (inside : i.state.origin.location < i.state.matrix.size) (job_inside : i.job.location < i.state.matrix.size) :
    ∃ evidence, i.checkDispatch = .ok evidence := by
  have after_dispatch : ∃ evidence, i.checkAfterDispatch = .ok evidence := by
    obtain ⟨minutes, timed⟩ := square.exists_duration_iff.mpr ⟨inside, job_inside⟩
    rw [checkAfterDispatch]
    split
    · exact ⟨_, rfl⟩
    · rw [timed, except_ok_bind]
      split
      · exact ⟨_, rfl⟩
      · exact ⟨_, rfl⟩
  rw [checkDispatch]
  cases i.vehicle.dispatch with
  | none => exact ⟨_, rfl⟩
  | some d =>
    dsimp only
    -- each way out but the last is an answer
    iterate 4
      split
      · exact ⟨_, rfl⟩
    exact after_dispatch

section

variable {s : RouteState Exact} {job : Job Exact} {k : Nat} {p : Problem Exact} {t : Schedule Exact}
  (scheduled : (⟨job, s, k, p⟩ : Insertion Exact).schedule = .ok t) (through : t.reachable = true)

include scheduled through

/-- Time windows can be judged if the longer route gets through and has a stop at the position. -/
theorem exists_checkTimeWindow (stands : k < t.stops.length) :
    ∃ evidence, (⟨job, s, k, p⟩ : Insertion Exact).checkTimeWindow = .ok evidence := by
  rw [checkTimeWindow, onSchedule_eq scheduled through]
  simp only [Int.toNat_natCast, List.drop_eq_getElem_cons stands]
  exact ⟨_, rfl⟩

theorem exists_checkMaxDistance : ∃ evidence, (⟨job, s, k, p⟩ : Insertion Exact).checkMaxDistance = .ok evidence := by
  rw [checkMaxDistance]
  split
  · exact ⟨_, rfl⟩
  · rw [onSchedule_eq scheduled through]
    exact ⟨_, rfl⟩

theorem exists_checkShiftTime : ∃ evidence, (⟨job, s, k, p⟩ : Insertion Exact).checkShiftTime = .ok evidence := by
  rw [checkShiftTime, onSchedule_eq scheduled through]
  split
  · exact ⟨_, rfl⟩
  · exact ⟨_, rfl⟩

theorem exists_checkBreaks : ∃ evidence, (⟨job, s, k, p⟩ : Insertion Exact).checkBreaks = .ok evidence := by
  rw [checkBreaks]
  split
  · exact ⟨_, rfl⟩
  · rw [onSchedule_eq scheduled through]
    exact ⟨_, rfl⟩

end

/-- Where reachability is kept on a route that gets through, the longer route gets through as well, and all checks but
that of areas have an answer. -/
theorem exists_check [Plane Exact] {s : RouteState Exact} (square : s.matrix.IsSquare) (reachable : s.base.reachable = true)
    (begins : 0 ≤ s.origin.distance) (finite : ∀ job ∈ s.jobs, job.IsFinite) {job : Job Exact} {k : Nat}
    (inside : k ≤ s.jobs.length) {p : Problem Exact}
    (kept : (⟨job, s, k, p⟩ : Insertion Exact).check .reachable = .ok .satisfied) :
    (∃ t, (⟨job, s, k, p⟩ : Insertion Exact).schedule = .ok t ∧ t.reachable = true
        ∧ t.stops.map (·.job) = insertAt s.jobs k job)
      ∧ ∀ r ∈ priorityOrder, r ≠ .area → ∃ evidence, (⟨job, s, k, p⟩ : Insertion Exact).check r = .ok evidence := by
  obtain ⟨t, scheduled, through, walked, -⟩ := schedule_of_isReachable reachable begins finite inside kept
  have served : t.stops.map (·.job) = s.jobs.take k ++ job :: s.jobs.drop k := jobs_of_walk walked through
  have stands : k < t.stops.length := by
    have count := congrArg List.length served
    rw [List.length_map, List.length_append, List.length_cons, List.length_take, List.length_drop] at count
    omega
  have to_job := ((checkReachable_eq_satisfied rfl inside).mp kept).1
  refine ⟨⟨t, scheduled, through, by rw [served, insertAt, upTo_natCast, onward_natCast]⟩, fun r listed other => ?_⟩
  cases r with
  | unexplained => exact absurd listed (by decide)
  | area => exact absurd rfl other
  | reachable => exact ⟨_, kept⟩
  | skill => exact ⟨_, rfl⟩
  | locking => exact ⟨_, rfl⟩
  | priority =>
    rw [check, checkPriority]
    split
    · exact ⟨_, rfl⟩
    · exact ⟨_, rfl⟩
  | tourSize =>
    rw [check, checkTourSize]
    split
    · exact ⟨_, rfl⟩
    · split
      · exact ⟨_, rfl⟩
      · exact ⟨_, rfl⟩
  | capacity =>
    obtain ⟨peak, found⟩ := s.exists_peakWith job inside
    rw [check, checkCapacity, found]
    exact ⟨_, rfl⟩
  | dispatch =>
    exact exists_checkDispatch square (RouteState.origin_inside square reachable to_job)
      (Matrix.inside_of_isReachable to_job).2
  | timeWindow => exact exists_checkTimeWindow scheduled through stands
  | maxDistance => exact exists_checkMaxDistance scheduled through
  | shiftTime => exact exists_checkShiftTime scheduled through
  | breaks => exact exists_checkBreaks scheduled through

end Insertion

/-! ## Routes of an evaluator -/

/-- The route of each vehicle begins at some distance from its start, and its matrix and jobs are those of the problem. -/
theorem Evaluator.of_mem_states {p : Problem Exact} {s : Solution Exact} {catalog : Catalog}
    {settings : DiagnosisSettings Exact} {e : Evaluator Exact}
    (built : (Evaluator.build p s catalog settings).outcome = .ok e) {state : RouteState Exact}
    (listed : state ∈ e.states) :
    (∃ entry ∈ p.matrices, entry.2 = state.matrix) ∧ (∀ job ∈ state.jobs, job ∈ p.jobs) ∧ 0 ≤ state.origin.distance := by
  obtain ⟨-, states, prepared, rfl⟩ := Evaluator.build_eq_ok.mp built
  rw [prepare_outcome] at prepared
  obtain ⟨v, -, route⟩ := mem_of_mapM_eq_ok prepared listed
  obtain ⟨jobs, matrix, -, found, constructed⟩ := currentRoute_eq_ok.mp (routeOf_eq_ok.mp route).1
  obtain ⟨-, rfl, -, begun⟩ := RouteState.build_eq_ok constructed
  exact ⟨Problem.of_matrixFor_eq_ok found, fun job served => mem_jobs_of_routeOf route served,
    origin_distance_nonneg begun⟩

/-- On every route of an evaluator that gets through, and for every job: at every position at which reachability is
kept, the route with the job in it has a schedule and gets through as well, so every check that looks at the schedule
judges it; all checks but that of areas have an answer there, which is taken without a warning; and whatever a survey
warns about is a constraint asked at a position that is open, and is about areas if reachability is kept there. -/
theorem Evaluator.judges_gated [Plane Exact] {p : Problem Exact} {s : Solution Exact} {catalog : Catalog}
    {settings : DiagnosisSettings Exact} {e : Evaluator Exact}
    (built : (Evaluator.build p s catalog settings).outcome = .ok e)
    (square : ∀ entry ∈ p.matrices, entry.2.IsSquare) (finite : ∀ job ∈ p.jobs, job.IsFinite)
    {state : RouteState Exact} (listed : state ∈ e.states) (reachable : state.base.reachable = true) (job : Job Exact) :
    (∀ k ∈ state.positions, ((e.attempt job state).insertion k).check .reachable = .ok .satisfied →
        (∃ t, state.insertion job k = .ok t ∧ t.reachable = true ∧ t.stops.map (·.job) = insertAt state.jobs k job
          ∧ ∀ judge, ((e.attempt job state).insertion k).onSchedule judge = judge t)
        ∧ ∀ r ∈ priorityOrder, r ≠ .area → ∃ evidence, ((e.attempt job state).insertion k).check r = .ok evidence
          ∧ (e.attempt job state).consult k r = pure (some evidence))
      ∧ ∀ w ∈ (e.evaluateVehicle job state).warnings, ∃ (r : Reason) (k : Nat),
        w = .notEvaluable r job.id state.vehicle.id k ∧ (e.attempt job state).IsOpen k
        ∧ (((e.attempt job state).insertion k).check .reachable = .ok .satisfied → r = .area) := by
  obtain ⟨⟨entry, present, same⟩, served, begins⟩ := of_mem_states built listed
  have judged (k : Nat) (member : k ∈ state.positions)
      (kept : ((e.attempt job state).insertion k).check .reachable = .ok .satisfied) :=
    Insertion.exists_check (same ▸ square entry present) reachable begins
      (fun job' member => finite job' (served job' member)) (Nat.le_of_lt_succ (List.mem_range.mp member)) kept
  constructor
  · intro k member kept
    obtain ⟨⟨t, scheduled, through, stops_eq⟩, answers⟩ := judged k member kept
    refine ⟨⟨t, scheduled, through, stops_eq, Insertion.onSchedule_eq scheduled through⟩, fun r ranked other => ?_⟩
    obtain ⟨evidence, answered⟩ := answers r ranked other
    have answered : ((e.attempt job state).insertion k).check r = .ok evidence := answered
    exact ⟨evidence, answered, by rw [Attempt.consult, answered]⟩
  · intro w warned
    obtain ⟨isOpen, checked, failed⟩ := (e.attempt job state).survey_warnings w warned
    refine ⟨_, _, rfl, isOpen, fun kept => ?_⟩
    -- all other constraints have an answer there
    by_contra other
    obtain ⟨evidence, answered⟩ := (judged _ isOpen.1 kept).2 _ (e.catalog.sublist.subset checked) other
    exact absurd (failed.symm.trans answered) (by simp)

theorem Evaluator.judges_gated_shuttle :
    (Evaluator.build shuttlePlan shuttleSolution (.without []) {}).outcome = .ok shuttleEvaluator
      ∧ RouteState.shuttleRoute.base.reachable = true
      ∧ ((shuttleEvaluator.attempt (RouteState.parcel "b") RouteState.shuttleRoute).insertion 1).check .reachable
        = .ok .satisfied
      ∧ (∃ t, RouteState.shuttleRoute.insertion (RouteState.parcel "b") (1 : Nat) = .ok t ∧ t.reachable = true)
      ∧ (∀ r ∈ priorityOrder, r ≠ .area → ∃ evidence,
        ((shuttleEvaluator.attempt (RouteState.parcel "b") RouteState.shuttleRoute).insertion 1).check r = .ok evidence)
      ∧ ∀ w ∈ (shuttleEvaluator.evaluateVehicle (RouteState.parcel "b") RouteState.shuttleRoute).warnings,
        ∃ k : Nat, w = .notEvaluable .area "b" "shuttle" k := by
  have square : ∀ entry ∈ shuttlePlan.matrices, entry.2.IsSquare :=
    List.forall_mem_singleton.mpr ⟨rfl, by decide⟩
  have finite : ∀ job ∈ shuttlePlan.jobs, job.IsFinite := by simp [shuttlePlan, RouteState.isFinite_parcel]
  have listed : RouteState.shuttleRoute ∈ shuttleEvaluator.states := List.mem_singleton.mpr rfl
  obtain ⟨at_positions, warned⟩ := judges_gated build_shuttleEvaluator square finite listed rfl (RouteState.parcel "b")
  have kept : ((shuttleEvaluator.attempt (RouteState.parcel "b") RouteState.shuttleRoute).insertion 1).check .reachable
      = .ok .satisfied := by decide +kernel
  obtain ⟨⟨t, scheduled, through, -⟩, answers⟩ := at_positions 1 (by decide) kept
  refine ⟨build_shuttleEvaluator, rfl, kept, ⟨t, scheduled, through⟩, ?_, ?_⟩
  · intro r ranked other
    obtain ⟨evidence, answered, -⟩ := answers r ranked other
    exact ⟨evidence, answered⟩
  · intro w member
    obtain ⟨r, k, same, isOpen, only⟩ := warned w member
    have area : r = .area := only (isOpen.2 (by decide))
    exact ⟨k, by rw [same, area]; rfl⟩

end Leftover
