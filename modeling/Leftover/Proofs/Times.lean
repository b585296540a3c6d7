/-
# Times along a route

Where the numbers of the jobs are finite, so are all times of a route that gets through. The meters driven may be
infinite, as a leg needs minutes only, but they are never negative.

* `Job.IsFinite` : finite numbers of a job
* `serviceStart_isFinite` : a service starts at some finite time
* `walk_isTimed`, `walk_hasTimes` : finite times of a route that gets through
-/
import Leftover.Proofs.Timelines

namespace Leftover

/-! ## Where a route begins -/

/-- No route begins with negative meters. -/
theorem origin_distance_nonneg {v : Vehicle Exact} {m : Matrix Exact} {startTime : Option Exact} {start : Place Exact}
    (begun : v.origin m startTime = .ok start) : 0 ≤ start.distance := by
  unfold Vehicle.origin at begun
  split at begun
  · obtain rfl := Except.ok.inj begun
    exact Exact.le_refl Exact.isDefined_zero
  · obtain ⟨⟨minutes, meters⟩, approached, begun⟩ := except_bind_eq_ok.mp begun
    obtain rfl := Except.ok.inj begun
    rw [Vehicle.approach] at approached
    split at approached
    · simp only [Except.ok.injEq, Prod.mk.injEq] at approached
      obtain ⟨-, rfl⟩ := approached
      exact Exact.le_refl Exact.isDefined_zero
    · obtain ⟨minutes', -, approached⟩ := except_bind_eq_ok.mp approached
      obtain ⟨meters', metered, approached⟩ := except_bind_eq_ok.mp approached
      simp only [except_pure, Except.ok.injEq, Prod.mk.injEq] at approached
      obtain ⟨-, rfl⟩ := approached
      exact entry_nonneg metered

/-! ## Jobs -/

/-- The numbers of a job that times and loads are worked out from are finite. -/
structure Job.IsFinite (job : Job Exact) : Prop where
  duration : Quantity.isFinite job.duration = true
  demand : ∀ q ∈ job.demand, Quantity.isFinite q = true
  opens : ∀ w ∈ job.windows, Quantity.isFinite w.opens = true
  closes : ∀ w ∈ job.windows, Quantity.isFinite w.closes = true

/-- After an arrival at some finite time the service starts at some finite time, and is late by finitely many
minutes. -/
theorem serviceStart_isFinite {job : Job Exact} (finite : job.IsFinite) {arrival : Exact}
    (arrives : Quantity.isFinite arrival = true) :
    Quantity.isFinite (serviceStart job arrival).1 = true ∧ Quantity.isFinite (serviceStart job arrival).2 = true := by
  rw [serviceStart]
  split
  · exact ⟨arrives, rfl⟩
  · -- the window that is used, and the latest end of all, are among those of the job
    split
    · rename_i w usable
      have member := Window.mem_byStart.mp (List.mem_of_find?_eq_some usable)
      exact ⟨Quantity.isFinite_larger arrives (finite.opens w member), rfl⟩
    · refine ⟨arrives, Exact.isFinite_sub arrives (Exact.isFinite_largest rfl fun x member => ?_)⟩
      obtain ⟨w, listed, rfl⟩ := List.mem_map.mp member
      exact finite.closes w (Window.mem_byStart.mp listed)

/-! ## Stops -/

/-- The times of a stop are finite. -/
structure ScheduledStop.HasTimes (stop : ScheduledStop Exact) : Prop where
  arrival : Quantity.isFinite stop.arrival = true
  start : Quantity.isFinite stop.start = true
  departure : Quantity.isFinite stop.departure = true
  late : Quantity.isFinite stop.late = true

theorem serve_hasTimes {here : Place Exact} (sets_out : Quantity.isFinite here.time = true) {job : Job Exact}
    (finite : job.IsFinite) {minutes : Exact} (minutes_finite : Quantity.isFinite minutes = true) (meters : Exact) :
    (serve here job minutes meters).HasTimes := by
  have arrives := Exact.isFinite_add sets_out minutes_finite
  obtain ⟨starts, late⟩ := serviceStart_isFinite finite arrives
  exact ⟨arrives, starts, Exact.isFinite_add starts finite.duration, late⟩

/-- The times of a stop are finite, and its meters not negative. -/
structure ScheduledStop.IsTimed (stop : ScheduledStop Exact) : Prop where
  arrival : Quantity.isFinite stop.arrival = true
  start : Quantity.isFinite stop.start = true
  departure : Quantity.isFinite stop.departure = true
  late : Quantity.isFinite stop.late = true
  distance : 0 ≤ stop.distance

/-- The time at a place is finite, and the meters to it are not negative. -/
structure Place.IsTimed (here : Place Exact) : Prop where
  time : Quantity.isFinite here.time = true
  distance : 0 ≤ here.distance

theorem ScheduledStop.IsTimed.place {stop : ScheduledStop Exact} (h : stop.IsTimed) : stop.place.IsTimed :=
  ⟨h.departure, h.distance⟩

theorem serve_isTimed {here : Place Exact} (timed : here.IsTimed) {job : Job Exact} (finite : job.IsFinite)
    {minutes meters : Exact} (minutes_finite : Quantity.isFinite minutes = true) (meters_nonneg : 0 ≤ meters) :
    (serve here job minutes meters).IsTimed := by
  have times := serve_hasTimes timed.time finite minutes_finite meters
  exact ⟨times.arrival, times.start, times.departure, times.late, Exact.add_nonneg timed.distance meters_nonneg⟩

/-- A drive that gets through passes its stops at finite times. -/
theorem drive_isTimed {m : Matrix Exact} {here last : Place Exact} {jobs : List (Job Exact)}
    {stops : List (ScheduledStop Exact)} (driven : drive m here jobs = .ok (stops, some last)) (timed : here.IsTimed)
    (finite : ∀ job ∈ jobs, job.IsFinite) : (∀ stop ∈ stops, stop.IsTimed) ∧ last.IsTimed := by
  induction jobs generalizing here stops with
  | nil =>
    simp only [drive_nil, Except.ok.injEq, Prod.mk.injEq, Option.some.injEq] at driven
    obtain ⟨rfl, rfl⟩ := driven
    exact ⟨by simp, timed⟩
  | cons job rest ih =>
    obtain ⟨minutes, meters, later, leg, driven_on, rfl⟩ := drive_cons_eq_some driven
    rw [List.forall_mem_cons] at finite ⊢
    obtain ⟨minutes_finite, meters_nonneg⟩ := leg?_eq_some leg
    have first := serve_isTimed timed finite.1 minutes_finite meters_nonneg
    obtain ⟨later_timed, last_timed⟩ := ih driven_on first.place finite.2
    exact ⟨⟨first, later_timed⟩, last_timed⟩

/-- A drive that sets out at some finite time and gets through passes its stops at finite times. -/
theorem drive_hasTimes {m : Matrix Exact} {here last : Place Exact} {jobs : List (Job Exact)}
    {stops : List (ScheduledStop Exact)} (driven : drive m here jobs = .ok (stops, some last))
    (sets_out : Quantity.isFinite here.time = true) (finite : ∀ job ∈ jobs, job.IsFinite) :
    (∀ stop ∈ stops, stop.HasTimes) ∧ Quantity.isFinite last.time = true := by
  induction jobs generalizing here stops with
  | nil =>
    simp only [drive_nil, Except.ok.injEq, Prod.mk.injEq, Option.some.injEq] at driven
    obtain ⟨rfl, rfl⟩ := driven
    exact ⟨by simp, sets_out⟩
  | cons job rest ih =>
    obtain ⟨minutes, meters, later, leg, driven_on, rfl⟩ := drive_cons_eq_some driven
    rw [List.forall_mem_cons] at finite ⊢
    have first := serve_hasTimes sets_out finite.1 (leg?_eq_some leg).1 meters
    obtain ⟨later_timed, last_timed⟩ := ih driven_on first.departure finite.2
    exact ⟨⟨first, later_timed⟩, last_timed⟩

/-! ## Routes -/

/-- The times of a schedule are finite, and its meters not negative. -/
structure Schedule.IsTimed (s : Schedule Exact) : Prop where
  startTime : Quantity.isFinite s.startTime = true
  stops : ∀ stop ∈ s.stops, stop.IsTimed
  endTime : Quantity.isFinite s.endTime = true
  distance : 0 ≤ s.distance

theorem arrive?_isTimed {v : Vehicle Exact} {m : Matrix Exact} {here home : Place Exact} (timed : here.IsTimed)
    (arrived : v.arrive? m here = .ok (some home)) : home.IsTimed := by
  rcases arrive?_eq_some arrived with ⟨-, rfl⟩ | ⟨goal, minutes, meters, -, leg, rfl⟩
  · exact timed
  · obtain ⟨minutes_finite, meters_nonneg⟩ := leg?_eq_some leg
    exact ⟨Exact.isFinite_add timed.time minutes_finite, Exact.add_nonneg timed.distance meters_nonneg⟩

/-- A walk that gets through and arrives passes its stops, and arrives, at finite times. -/
theorem walk_isTimed {v : Vehicle Exact} {m : Matrix Exact} {jobs : List (Job Exact)} {here : Place Exact}
    {s : Schedule Exact} (walked : walk v m jobs here here.time = .ok s) (reachable : s.reachable = true)
    (distance : 0 ≤ here.distance) (finite : ∀ job ∈ jobs, job.IsFinite) : s.IsTimed := by
  obtain ⟨setsOut, home, driven, arrived, same⟩ := walk_eq_reachable walked reachable
  obtain ⟨stops_timed, last_timed⟩ := drive_isTimed driven ⟨setsOut, distance⟩ finite
  have home_timed := arrive?_isTimed last_timed arrived
  rw [same]
  exact ⟨setsOut, stops_timed, home_timed.time, home_timed.distance⟩

/-- A walk that gets through passes its stops, and arrives, at finite times. -/
theorem walk_hasTimes {v : Vehicle Exact} {m : Matrix Exact} {jobs : List (Job Exact)} {here : Place Exact}
    {startTime : Exact} {s : Schedule Exact} (walked : walk v m jobs here startTime = .ok s)
    (reachable : s.reachable = true) (finite : ∀ job ∈ jobs, job.IsFinite) :
    (∀ stop ∈ s.stops, stop.HasTimes) ∧ Quantity.isFinite s.endTime = true := by
  obtain ⟨sets_out, home, driven, arrived, same⟩ := walk_eq_reachable walked reachable
  obtain ⟨stops_timed, last_timed⟩ := drive_hasTimes driven sets_out finite
  rw [same]
  refine ⟨stops_timed, ?_⟩
  rcases arrive?_eq_some arrived with ⟨-, rfl⟩ | ⟨goal, minutes, meters, -, leg, rfl⟩
  · exact last_timed
  · exact Exact.isFinite_add last_timed (leg?_eq_some leg).1

end Leftover
