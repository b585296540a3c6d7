/-
# Paths to a job and on from it

Whether a drive gets through depends on the places only, not on the times. So a route that gets through still does with
one more job in it, if paths lead to the job and on from it.

* `drive_of_location_eq` : a drive gets through from the same place at another time
* `drive_drop`, `walk_drop` : the end of a drive or a walk
* `Insertion.checkReachable_eq_satisfied` : the legs that reachability is about
* `Insertion.schedule_of_isReachable` : the schedule with a job put in where paths lead to it and on
-/
import Leftover.Proofs.Faults
import Leftover.Proofs.Times

namespace Leftover

variable {α : Type} [Quantity α]

/-! ## Legs -/

theorem exists_of_isKnown {x : Except Fault α} (h : Matrix.isKnown x = true) :
    ∃ figure, x = .ok figure ∧ Quantity.isFinite figure = true := by
  cases x with
  | error fault => exact absurd h (by simp [Matrix.isKnown])
  | ok figure => exact ⟨figure, rfl, h⟩

/-- A leg with finite minutes and meters can be driven. -/
theorem leg?_of_isReachable {m : Matrix α} {i j : Nat} (h : m.isReachable i j = true) :
    ∃ minutes meters, leg? m i j = .ok (some (minutes, meters)) := by
  simp only [Matrix.isReachable, Bool.and_eq_true] at h
  obtain ⟨minutes, timed, finite⟩ := exists_of_isKnown h.1.2
  obtain ⟨meters, metered, -⟩ := exists_of_isKnown h.2
  refine ⟨minutes, meters, ?_⟩
  rw [leg?, timed, except_ok_bind, if_pos finite, metered]
  rfl

/-! ## Drives from the same place -/

/-- A drive gets through from the same place at another time. -/
theorem drive_of_location_eq {m : Matrix α} {here there last : Place α} {jobs : List (Job α)}
    {stops : List (ScheduledStop α)} (driven : drive m here jobs = .ok (stops, some last))
    (same : there.location = here.location) :
    ∃ stops' last', drive m there jobs = .ok (stops', some last') ∧ last'.location = last.location := by
  induction jobs generalizing here there stops with
  | nil =>
    simp only [drive_nil, Except.ok.injEq, Prod.mk.injEq, Option.some.injEq] at driven
    obtain ⟨-, rfl⟩ := driven
    exact ⟨[], there, rfl, same⟩
  | cons job rest ih =>
    obtain ⟨minutes, meters, later, leg, driven_on, -⟩ := drive_cons_eq_some driven
    obtain ⟨stops', last', driven', same'⟩ := ih driven_on
      (show (serve there job minutes meters).place.location = (serve here job minutes meters).place.location from rfl)
    refine ⟨serve there job minutes meters :: stops', last', ?_, same'⟩
    rw [← same] at leg
    rw [drive_cons_of_some rest leg, driven']
    rfl

/-- The vehicle arrives at the end of its route from the same place at another time. -/
theorem arrive?_of_location_eq {v : Vehicle α} {m : Matrix α} {here there home : Place α}
    (arrived : v.arrive? m here = .ok (some home)) (same : there.location = here.location) :
    ∃ home', v.arrive? m there = .ok (some home') := by
  rcases arrive?_eq_some arrived with ⟨isOpen, -⟩ | ⟨goal, minutes, meters, ends, leg, -⟩
  · exact ⟨there, arrive?_of_none m there isOpen⟩
  · rw [← same] at leg
    exact ⟨_, arrive?_of_leg ends leg⟩

/-- The end of a drive that gets through. -/
theorem drive_drop {m : Matrix α} {here last : Place α} {jobs : List (Job α)} {stops : List (ScheduledStop α)}
    (driven : drive m here jobs = .ok (stops, some last)) (k : Nat) :
    drive m (placeAfter here (stops.take k)) (jobs.drop k) = .ok (stops.drop k, some last) := by
  have parts := drive_append (drive_take driven k) (jobs.drop k)
  rw [List.take_append_drop, driven] at parts
  obtain ⟨⟨later, last'⟩, driven_on, same⟩ := except_map_eq_ok.mp parts.symm
  obtain ⟨stops_eq, rfl⟩ := Prod.mk.inj same
  have later_eq : later = stops.drop k := by
    have both : stops.take k ++ later = stops.take k ++ stops.drop k := by rw [stops_eq, List.take_append_drop]
    exact List.append_cancel_left both
  rw [driven_on, later_eq]

/-- The end of a walk that gets through and arrives. -/
theorem walk_drop {v : Vehicle α} {m : Matrix α} {jobs : List (Job α)} {here : Place α} {startTime : α} {s : Schedule α}
    (walked : walk v m jobs here startTime = .ok s) (reachable : s.reachable = true) {k : Nat}
    (goes_on : Quantity.isFinite (placeAfter here (s.stops.take k)).time = true) :
    walk v m (jobs.drop k) (placeAfter here (s.stops.take k)) startTime = .ok { s with stops := s.stops.drop k } := by
  obtain ⟨-, home, driven, arrived, same⟩ := walk_eq_reachable walked reachable
  rw [walk_of_isFinite goes_on, drive_drop driven k, except_ok_bind, closeRoute, arrived, except_map_ok, same]

/-! ## Inserting a job -/

/-- A route gets through from a place if it did, and paths lead from there to a first job and on from it. -/
theorem walk_cons_reachable {v : Vehicle α} {m : Matrix α} {here last home : Place α} {job : Job α}
    {rest : List (Job α)} {later : List (ScheduledStop α)} (setsOut : Quantity.isFinite here.time = true)
    (driven : drive m here rest = .ok (later, some last)) (arrived : v.arrive? m last = .ok (some home))
    (to_job : m.isReachable here.location job.location = true)
    (on_from : ∀ next ∈ (rest.head?.map (·.location)).or v.endLocation, m.isReachable job.location next = true)
    (startTime : α) :
    ∃ s, walk v m (job :: rest) here startTime = .ok s ∧ s.reachable = true := by
  obtain ⟨minutes, meters, leg⟩ := leg?_of_isReachable to_job
  -- from the job on only the first leg is new
  have goes_on : ∃ stops last' home', drive m (serve here job minutes meters).place rest = .ok (stops, some last')
      ∧ v.arrive? m last' = .ok (some home') := by
    cases rest with
    | nil =>
      cases ends : v.endLocation with
      | none => exact ⟨[], _, _, rfl, arrive?_of_none m _ ends⟩
      | some goal =>
        obtain ⟨minutes', meters', leg'⟩ := leg?_of_isReachable (on_from goal (by simp [ends]))
        have leg' : leg? m (serve here job minutes meters).place.location goal = .ok (some (minutes', meters')) := leg'
        exact ⟨[], _, _, rfl, arrive?_of_leg ends leg'⟩
    | cons next others =>
      obtain ⟨minutes₀, meters₀, later', -, driven_on, -⟩ := drive_cons_eq_some driven
      obtain ⟨minutes', meters', leg'⟩ := leg?_of_isReachable (on_from next.location (by simp))
      have leg' : leg? m (serve here job minutes meters).place.location next.location
        = .ok (some (minutes', meters')) := leg'
      obtain ⟨stops, last', driven', same⟩ := drive_of_location_eq driven_on
        (show (serve (serve here job minutes meters).place next minutes' meters').place.location
          = (serve here next minutes₀ meters₀).place.location from rfl)
      obtain ⟨home', arrived'⟩ := arrive?_of_location_eq arrived same
      have driven_all : drive m (serve here job minutes meters).place (next :: others)
          = .ok (serve (serve here job minutes meters).place next minutes' meters' :: stops, some last') := by
        rw [drive_cons_of_some others leg', driven']
        rfl
      exact ⟨_, last', home', driven_all, arrived'⟩
  obtain ⟨stops, last', home', driven', arrived'⟩ := goes_on
  refine ⟨⟨serve here job minutes meters :: stops, startTime, home'.time, home'.distance, true⟩, ?_, rfl⟩
  rw [walk_of_isFinite setsOut, drive_cons_of_some rest leg, driven']
  simp only [except_map_ok, except_ok_bind, closeRoute, arrived']

namespace RouteState

/-- The place from which a position is driven to: that of the stop before it, or where the route begins. -/
theorem placeBefore_location {s : RouteState α} (reachable : s.base.reachable = true) (k : Nat) :
    (s.placeBefore k).location = (((s.jobs.take k).getLast?).map (·.location)).getD s.origin.location := by
  obtain ⟨-, home, driven, -⟩ := walk_eq_reachable s.walk_eq reachable
  rw [placeBefore, ← (drive_eq_some driven).1, ← List.map_take, List.getLast?_map]
  cases (s.base.stops.take k).getLast? <;> rfl

end RouteState

namespace Insertion

/-- At a position of the route reachability is judged by the legs to the job and on from it. -/
theorem checkReachable_eq_satisfied {i : Insertion α} {k : Nat} (at_k : i.position = k)
    (inside : k ≤ i.state.jobs.length) :
    i.checkReachable = .ok .satisfied ↔
      i.state.matrix.isReachable ((((i.state.jobs.take k).getLast?).map (·.location)).getD i.state.origin.location)
          i.job.location = true
        ∧ ∀ next ∈ (((i.state.jobs.drop k).head?.map (·.location)).or i.vehicle.endLocation),
          i.state.matrix.isReachable i.job.location next = true := by
  rw [checkReachable, locationBefore_eq at_k inside, locationAfter_eq at_k, except_ok_bind, except_ok_bind]
  simp only [except_pure, Except.ok.injEq, Evidence.ofKept]
  split
  · rename_i kept
    simpa [Option.all_eq_true] using kept
  · rename_i kept
    simpa [Option.all_eq_true] using kept

end Insertion

/-- Where paths lead to a job and on from it, a route that gets through at finite times still does with the job in
it. -/
theorem Insertion.schedule_of_isReachable {s : RouteState Exact} (reachable : s.base.reachable = true)
    (begins : 0 ≤ s.origin.distance) (finite : ∀ job ∈ s.jobs, job.IsFinite) {job : Job Exact} {k : Nat}
    (inside : k ≤ s.jobs.length) {p : Problem Exact}
    (kept : (⟨job, s, k, p⟩ : Insertion Exact).checkReachable = .ok .satisfied) :
    ∃ t, (⟨job, s, k, p⟩ : Insertion Exact).schedule = .ok t ∧ t.reachable = true
      ∧ walk s.vehicle s.matrix (s.jobs.take k ++ job :: s.jobs.drop k) s.origin s.origin.time = .ok t
      ∧ t.stops.take k = s.base.stops.take k := by
  obtain ⟨to_job, on_from⟩ := (checkReachable_eq_satisfied rfl inside).mp kept
  obtain ⟨setsOut, home, driven, arrived, -⟩ := walk_eq_reachable s.walk_eq reachable
  -- the vehicle leaves the stop before the position at some finite time
  have timed := (drive_isTimed (drive_take driven k) ⟨setsOut, begins⟩ fun job member =>
    finite job (List.mem_of_mem_take member)).2
  rw [← RouteState.placeBefore_eq] at timed
  have driven_on := drive_drop driven k
  rw [← RouteState.placeBefore_eq] at driven_on
  rw [← RouteState.placeBefore_location reachable] at to_job
  obtain ⟨t, walked, through⟩ := walk_cons_reachable timed.time driven_on arrived to_job on_from s.origin.time
  have length : (s.base.stops.take k).length = k := by
    rw [List.length_take, length_of_drive driven, min_eq_left inside]
  have put_in : s.insertion job k = .ok (t.after (s.base.stops.take k)) := by
    rw [RouteState.insertion_natCast inside, RouteState.insertionAt, if_pos reachable, walked]
    rfl
  refine ⟨t.after (s.base.stops.take k), put_in, through, ?_, ?_⟩
  · have resumes := (RouteState.isFinite_placeBefore reachable inside).mp timed.time
    rw [← RouteState.insertionAt_of_resumes inside resumes, ← RouteState.insertion_natCast inside, put_in]
  · rw [Schedule.after]
    exact List.take_left' length

end Leftover
