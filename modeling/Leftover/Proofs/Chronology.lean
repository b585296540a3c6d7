/-
# Routes in the order of time

Along a route no time and no length goes back: a vehicle arrives at a stop after the minutes of the leg to it, waits
perhaps, serves the job, and leaves for the next stop. This holds up to the first leg without a duration, where the
schedule ends; without such a leg it holds up to the end of the route.

* `ScheduledStop.Follows` : a stop as it follows on a place
* `Matrix.IsChronological` : stops that follow one on the other
* `serve_follows` : one stop
* `drive_isChronological`, `legs_of_drive` : the stops of a drive, and the legs to them
* `walk_isChronological` : whole schedules
-/
import Leftover.Proofs.EarliestStarts
import Leftover.Proofs.LookedUpLegs

namespace Leftover

variable {α : Type} [Quantity α]

/-! ## Stops one after the other -/

/-- A stop follows on a place: it is reached by the leg from there, and neither the time nor the meters go back on the
way to the next stop. -/
structure ScheduledStop.Follows (m : Matrix α) (here : Place α) (stop : ScheduledStop α) : Prop where
  leg : ∃ minutes meters, m.duration here.location stop.job.location = .ok minutes
    ∧ m.distance here.location stop.job.location = .ok meters ∧ Quantity.isFinite minutes = true
    ∧ stop.arrival = here.time + minutes ∧ stop.distance = here.distance + meters
  arrival : here.time ≤ stop.arrival
  start : stop.arrival ≤ stop.start
  departure : stop.departure = stop.start + stop.job.duration
  lasts : stop.start ≤ stop.departure
  late : 0 ≤ stop.late
  distance : here.distance ≤ stop.distance

/-- Stops of a route follow one on the other, the first one on a place. -/
def Matrix.IsChronological (m : Matrix α) : Place α → List (ScheduledStop α) → Prop
  | _, [] => True
  | here, stop :: rest => stop.Follows m here ∧ m.IsChronological stop.place rest

/-- The time at a place and the meters to it are finite, or larger than all finite ones. -/
structure Place.IsAhead (here : Place α) : Prop where
  time : Leftover.IsAhead here.time
  distance : Leftover.IsAhead here.distance

/-- The numbers of a job are those of a validated one. -/
structure Job.IsOrderly (job : Job α) : Prop where
  duration : 0 ≤ job.duration
  windows : ∀ w ∈ job.windows, w.opens ≤ w.closes

/-! ## One stop -/

theorem leg?_eq_some_iff {m : Matrix α} {i j : Nat} {minutes meters : α} :
    leg? m i j = .ok (some (minutes, meters)) ↔
      m.duration i j = .ok minutes ∧ m.distance i j = .ok meters ∧ Quantity.isFinite minutes = true := by
  rw [leg?]
  cases m.duration i j with
  | error fault => simp
  | ok minutes' =>
    rw [except_ok_bind]
    cases finite : Quantity.isFinite minutes' with
    | false =>
      refine iff_of_false (by simp) ?_
      rintro ⟨same, -, finite'⟩
      rw [Except.ok.inj same, finite'] at finite
      exact absurd finite (by simp)
    | true =>
      cases m.distance i j with
      | error fault => simp
      | ok meters' =>
        simp only [if_true, except_ok_bind, except_pure, Except.ok.injEq, Option.some.injEq, Prod.mk.injEq]
        constructor
        · rintro ⟨rfl, rfl⟩
          exact ⟨rfl, rfl, finite⟩
        · rintro ⟨rfl, rfl, -⟩
          exact ⟨rfl, rfl⟩

theorem leg?_eq_none_iff {m : Matrix α} {i j : Nat} :
    leg? m i j = .ok none ↔ ∃ minutes, m.duration i j = .ok minutes ∧ Quantity.isFinite minutes = false := by
  rw [leg?]
  cases m.duration i j with
  | error fault => simp
  | ok minutes =>
    rw [except_ok_bind]
    cases finite : Quantity.isFinite minutes with
    | false => exact iff_of_true (by simp) ⟨minutes, rfl, finite⟩
    | true => cases m.distance i j <;> simp [finite]

section

variable [Timeline α]

/-- A job is not served before the arrival, nor less than not late. -/
theorem le_serviceStart {job : Job α} (ordered : ∀ w ∈ job.windows, w.opens ≤ w.closes) {arrival : α}
    (defined : Quantity.isUndefined arrival = false) :
    arrival ≤ (serviceStart job arrival).1 ∧ 0 ≤ (serviceStart job arrival).2 := by
  have zero : (0 : α) ≤ 0 := OrderedQuantity.le_refl Timekeeping.isUndefined_zero
  have here := OrderedQuantity.le_refl defined
  by_cases none_at_all : job.windows = []
  · rw [serviceStart_of_no_windows none_at_all]
    exact ⟨here, zero⟩
  by_cases usable : ∃ w ∈ job.windows, arrival ≤ w.closes
  · obtain ⟨t, starts, ⟨later, -⟩, -⟩ := isLeast_serviceStart ordered defined usable
    rw [starts]
    exact ⟨later, zero⟩
  · obtain ⟨latest, starts, -, -, positive⟩ :=
      serviceStart_late ordered defined none_at_all fun w listed not_over => usable ⟨w, listed, not_over⟩
    rw [starts]
    exact ⟨here, OrderedQuantity.le_of_lt _ _ positive⟩

/-- What a drive does at one stop. -/
theorem serve_follows {m : Matrix α} {here : Place α} {job : Job α} {minutes meters : α}
    (leg : leg? m here.location job.location = .ok (some (minutes, meters))) (ahead : here.IsAhead)
    (orderly : job.IsOrderly) :
    (serve here job minutes meters).Follows m here ∧ (serve here job minutes meters).place.IsAhead := by
  obtain ⟨timed, metered, finite⟩ := leg?_eq_some_iff.mp leg
  have minutes_nonneg : 0 ≤ minutes := entry_nonneg timed
  have meters_nonneg : 0 ≤ meters := entry_nonneg metered
  have arrives : IsAhead (here.time + minutes) := Timekeeping.isAhead_add _ _ ahead.time minutes_nonneg
  have starts : IsAhead (serviceStart job (here.time + minutes)).1 := serviceStart_isAhead job arrives
  obtain ⟨waits, late⟩ := le_serviceStart orderly.windows (Timeline.isDefined_of_isAhead arrives)
  constructor
  · exact
      { leg := ⟨minutes, meters, timed, metered, finite, rfl, rfl⟩
        arrival := Timeline.le_add _ _ ahead.time minutes_nonneg
        start := waits
        departure := rfl
        lasts := Timeline.le_add _ _ starts orderly.duration
        late := late
        distance := Timeline.le_add _ _ ahead.distance meters_nonneg }
  · exact ⟨Timekeeping.isAhead_add _ _ starts orderly.duration,
      Timekeeping.isAhead_add _ _ ahead.distance meters_nonneg⟩

end

/-! ## Drives -/

/-- A drive is one stop after the other. -/
theorem drive_isChronological [Timeline α] {m : Matrix α} {here : Place α} {jobs : List (Job α)}
    {stops : List (ScheduledStop α)} {last : Option (Place α)} (driven : drive m here jobs = .ok (stops, last))
    (ahead : here.IsAhead) (orderly : ∀ job ∈ jobs, job.IsOrderly) :
    m.IsChronological here stops ∧ (placeAfter here stops).IsAhead := by
  induction jobs generalizing here stops with
  | nil =>
    simp only [drive_nil, Except.ok.injEq, Prod.mk.injEq] at driven
    obtain ⟨rfl, -⟩ := driven
    exact ⟨trivial, ahead⟩
  | cons job rest ih =>
    rw [List.forall_mem_cons] at orderly
    cases leg : leg? m here.location job.location with
    | error fault => exact absurd driven (by simp [drive_cons_of_error rest leg])
    | ok found =>
      cases found with
      | none =>
        simp only [drive_cons_of_none rest leg, Except.ok.injEq, Prod.mk.injEq] at driven
        obtain ⟨rfl, -⟩ := driven
        exact ⟨trivial, ahead⟩
      | some figures =>
        rw [drive_cons_of_some rest leg] at driven
        obtain ⟨⟨later, last'⟩, driven_on, same⟩ := except_map_eq_ok.mp driven
        simp only [Prod.mk.injEq] at same
        obtain ⟨rfl, rfl⟩ := same
        obtain ⟨follows, ahead'⟩ := serve_follows leg ahead orderly.1
        obtain ⟨chronological, arrives⟩ := ih driven_on ahead' orderly.2
        exact ⟨⟨follows, chronological⟩, arrives⟩

/-- A drive passes a stop for each leg with a duration, up to the first one without. -/
theorem legs_of_drive (v : Vehicle α) {m : Matrix α} {here : Place α} {jobs : List (Job α)}
    {stops : List (ScheduledStop α)} {last : Option (Place α)} (driven : drive m here jobs = .ok (stops, last)) :
    ∃ later passed, jobs = stops.map (·.job) ++ later
      ∧ v.legs here.location jobs = passed ++ v.legs (placeAfter here stops).location later
      ∧ passed.length = stops.length ∧ (∀ leg ∈ passed, Matrix.isKnown (m.duration leg.1 leg.2) = true)
      ∧ (last = none →
        ∃ job rest, later = job :: rest ∧ leg? m (placeAfter here stops).location job.location = .ok none)
      ∧ ∀ there, last = some there → later = [] ∧ there = placeAfter here stops := by
  induction jobs generalizing here stops with
  | nil =>
    simp only [drive_nil, Except.ok.injEq, Prod.mk.injEq] at driven
    obtain ⟨rfl, rfl⟩ := driven
    refine ⟨[], [], rfl, rfl, rfl, by simp, fun cut => absurd cut (by simp), fun there arrives => ⟨rfl, ?_⟩⟩
    exact (Option.some.inj arrives).symm
  | cons job rest ih =>
    cases leg : leg? m here.location job.location with
    | error fault => exact absurd driven (by simp [drive_cons_of_error rest leg])
    | ok found =>
      cases found with
      | none =>
        simp only [drive_cons_of_none rest leg, Except.ok.injEq, Prod.mk.injEq] at driven
        obtain ⟨rfl, rfl⟩ := driven
        exact ⟨job :: rest, [], rfl, rfl, rfl, by simp, fun _ => ⟨job, rest, rfl, leg⟩,
          fun there arrives => absurd arrives (by simp)⟩
      | some figures =>
        rw [drive_cons_of_some rest leg] at driven
        obtain ⟨⟨stops', last'⟩, driven_on, same⟩ := except_map_eq_ok.mp driven
        simp only [Prod.mk.injEq] at same
        obtain ⟨rfl, rfl⟩ := same
        obtain ⟨later, passed, jobs_eq, legs_eq, count, known, cut, arrives⟩ := ih driven_on
        have leg_known : Matrix.isKnown (m.duration here.location job.location) = true := Matrix.isKnown_of_leg leg
        refine ⟨later, (here.location, job.location) :: passed, ?_, ?_, ?_, ?_, cut, arrives⟩
        · rw [List.map_cons, List.cons_append, ← jobs_eq]
          rfl
        · rw [Vehicle.legs, List.cons_append]
          exact congrArg _ legs_eq
        · rw [List.length_cons, List.length_cons, count]
        · exact List.forall_mem_cons.mpr ⟨leg_known, known⟩

/-! ## Whole routes -/

/-- Of some legs the one after so many others is the first without a duration. -/
def Matrix.BreaksOffAfter (m : Matrix α) (legs : List (Nat × Nat)) (k : Nat) : Prop :=
  ∃ passed leg rest minutes, legs = passed ++ leg :: rest ∧ passed.length = k
    ∧ (∀ earlier ∈ passed, isKnown (m.duration earlier.1 earlier.2) = true)
    ∧ m.duration leg.1 leg.2 = .ok minutes ∧ Quantity.isFinite minutes = false

/-- A drive that does not get through breaks off at a leg to a job. -/
theorem breaksOff_of_drive (v : Vehicle α) {m : Matrix α} {here : Place α} {jobs : List (Job α)}
    {stops : List (ScheduledStop α)} (driven : drive m here jobs = .ok (stops, none)) :
    m.BreaksOffAfter (v.legs here.location jobs) stops.length := by
  obtain ⟨later, passed, -, legs_eq, count, known, cut, -⟩ := legs_of_drive v driven
  obtain ⟨job, rest, rfl, missing⟩ := cut rfl
  obtain ⟨minutes, timed, endless⟩ := leg?_eq_none_iff.mp missing
  exact ⟨passed, _, _, minutes, legs_eq, count, known, timed, endless⟩

/-- A vehicle that gets through to its last job breaks off at the leg to its end. -/
theorem breaksOff_of_arrive {v : Vehicle α} {m : Matrix α} {here there : Place α} {jobs : List (Job α)}
    {stops : List (ScheduledStop α)} (driven : drive m here jobs = .ok (stops, some there))
    (missing : v.arrive? m there = .ok none) : m.BreaksOffAfter (v.legs here.location jobs) stops.length := by
  obtain ⟨later, passed, -, legs_eq, count, known, -, arrives⟩ := legs_of_drive v driven
  obtain ⟨rfl, rfl⟩ := arrives there rfl
  cases ends : v.endLocation with
  | none => exact absurd missing (by simp [arrive?_of_none m _ ends])
  | some goal =>
    simp only [Vehicle.arrive?, ends] at missing
    obtain ⟨found, leg, missing⟩ := except_bind_eq_ok.mp missing
    cases found with
    | some figures => exact absurd missing (by simp)
    | none =>
      obtain ⟨minutes, timed, endless⟩ := leg?_eq_none_iff.mp leg
      refine ⟨passed, ((placeAfter here stops).location, goal), [], minutes, ?_, count, known, timed, endless⟩
      rw [legs_eq, Vehicle.legs, ends]
      rfl

section

variable [Timeline α]

/-- At the end of its route a vehicle is no earlier than at its last stop, and has driven no less. -/
theorem le_arrive {v : Vehicle α} {m : Matrix α} {there home : Place α} (ahead : there.IsAhead)
    (arrived : v.arrive? m there = .ok (some home)) : there.time ≤ home.time ∧ there.distance ≤ home.distance := by
  rcases arrive?_eq_some arrived with ⟨-, rfl⟩ | ⟨goal, minutes, meters, -, leg, rfl⟩
  · exact ⟨OrderedQuantity.le_refl (Timeline.isDefined_of_isAhead ahead.time),
      OrderedQuantity.le_refl (Timeline.isDefined_of_isAhead ahead.distance)⟩
  · obtain ⟨timed, metered, -⟩ := leg?_eq_some_iff.mp leg
    exact ⟨Timeline.le_add _ _ ahead.time (entry_nonneg timed), Timeline.le_add _ _ ahead.distance (entry_nonneg metered)⟩

/-- What a schedule from a place is like: its stops follow one on the other, and serve the first jobs of the route. A
reachable one serves all jobs and does not end before its last stop; one that is not ends at the first leg without a
duration, and never. -/
structure Schedule.IsChronological (v : Vehicle α) (m : Matrix α) (jobs : List (Job α)) (here : Place α)
    (s : Schedule α) : Prop where
  serves : s.stops.map (·.job) <+: jobs
  stops : m.IsChronological here s.stops
  of_reachable : s.reachable = true → s.stops.map (·.job) = jobs
    ∧ (placeAfter here s.stops).time ≤ s.endTime ∧ (placeAfter here s.stops).distance ≤ s.distance
  of_unreachable : s.reachable = false → m.BreaksOffAfter (v.legs here.location jobs) s.stops.length
    ∧ s.endTime = Quantity.infinity ∧ s.distance = Quantity.infinity

theorem closeRoute_isChronological {v : Vehicle α} {m : Matrix α} {jobs : List (Job α)} {here : Place α}
    {stops : List (ScheduledStop α)} {last : Option (Place α)} (driven : drive m here jobs = .ok (stops, last))
    (ahead : here.IsAhead) (orderly : ∀ job ∈ jobs, job.IsOrderly) {startTime : α} {s : Schedule α}
    (closed : closeRoute v m startTime stops last = .ok s) : s.IsChronological v m jobs here := by
  obtain ⟨chronological, ahead'⟩ := drive_isChronological driven ahead orderly
  obtain ⟨later, -, jobs_eq, -, -, -, -, -⟩ := legs_of_drive v driven
  have served : stops.map (·.job) <+: jobs := ⟨later, jobs_eq.symm⟩
  cases last with
  | none =>
    rw [closeRoute, Except.ok.injEq] at closed
    subst closed
    exact ⟨served, chronological, fun reachable => absurd reachable (by simp [Schedule.cutOff]),
      fun _ => ⟨breaksOff_of_drive v driven, rfl, rfl⟩⟩
  | some there =>
    obtain ⟨home, arrived, rfl⟩ := except_map_eq_ok.mp closed
    cases home with
    | none =>
      exact ⟨served, chronological, fun reachable => absurd reachable (by simp [Schedule.cutOff]),
        fun _ => ⟨breaksOff_of_arrive driven arrived, rfl, rfl⟩⟩
    | some home =>
      obtain ⟨all, rfl⟩ := drive_eq_some driven
      exact ⟨served, chronological, fun _ => ⟨all, le_arrive ahead' arrived⟩, fun reachable => absurd reachable (by simp)⟩

/-- From a finite time on a vehicle is driven through jobs with durations that are not negative and windows that do not
close before they open. There is a schedule just when the legs that are looked up lie within the matrix, and its stops are
in the order of time: each is reached from the one before it after the minutes of the leg, the service starts no earlier,
lasts as long as it takes and is not less than not late, and no length goes back. The stops serve all jobs, and the route
ends no earlier and is no shorter than at the last of them; or they serve those before the first leg without a duration, and
the route has neither an end nor a length. -/
theorem walk_isChronological (v : Vehicle α) {m : Matrix α} (square : m.IsSquare) {jobs : List (Job α)}
    (orderly : ∀ job ∈ jobs, job.IsOrderly) {here : Place α} (sets_out : Quantity.isFinite here.time = true)
    (driven : IsAhead here.distance) (startTime : α) :
    ((∃ s, walk v m jobs here startTime = .ok s) ↔ m.Covers (v.legs here.location jobs))
      ∧ ∀ s, walk v m jobs here startTime = .ok s → s.IsChronological v m jobs here := by
  constructor
  · rw [exists_walk_iff square]
    exact ⟨fun covers => covers sets_out, fun covers _ => covers⟩
  · intro s walked
    rw [walk_of_isFinite sets_out] at walked
    obtain ⟨⟨stops, last⟩, driven_to, closed⟩ := except_bind_eq_ok.mp walked
    exact closeRoute_isChronological driven_to ⟨Or.inl sets_out, driven⟩ orderly closed

end

/-! ### A shuttle on a one-way street -/

/-- The two places of the shuttle, without a way back. -/
def oneWayStreet : Matrix Exact :=
  { RouteState.twoPlaces with
    durations := [[some (.finite 0), some (.finite 7)], [none, some (.finite 0)]] }

open RouteState in
/-- The shuttle brings two parcels and returns; on the one-way street it brings them too, but does not return. -/
theorem walk_isChronological_shuttle :
    (∀ job ∈ [parcel "a", parcel "b"], job.IsOrderly)
      ∧ (∃ s, walk shuttle twoPlaces [parcel "a", parcel "b"] ⟨0, 0, 0⟩ 0 = .ok s ∧ s.reachable = true
        ∧ s.IsChronological shuttle twoPlaces [parcel "a", parcel "b"] ⟨0, 0, 0⟩)
      ∧ ∃ s, walk shuttle oneWayStreet [parcel "a", parcel "b"] ⟨0, 0, 0⟩ 0 = .ok s ∧ s.reachable = false
        ∧ s.IsChronological shuttle oneWayStreet [parcel "a", parcel "b"] ⟨0, 0, 0⟩ := by
  have orderly : ∀ job ∈ [parcel "a", parcel "b"], job.IsOrderly := by
    have parcel_isOrderly (name : String) : (parcel name).IsOrderly :=
      ⟨(by decide : (0 : Exact) ≤ .finite 5), by simp [parcel]⟩
    simp [parcel_isOrderly]
  have driven : IsAhead (0 : Exact) := Or.inl rfl
  have square : twoPlaces.IsSquare := ⟨rfl, by decide⟩
  have square' : oneWayStreet.IsSquare := ⟨rfl, by decide⟩
  refine ⟨orderly, ?_, ?_⟩
  · have walked : (walk shuttle twoPlaces [parcel "a", parcel "b"] ⟨0, 0, 0⟩ 0).map (·.reachable) = .ok true := by
      decide +kernel
    obtain ⟨s, walked, reachable⟩ := except_map_eq_ok.mp walked
    exact ⟨s, walked, reachable, (walk_isChronological shuttle square orderly rfl driven 0).2 s walked⟩
  · have walked : (walk shuttle oneWayStreet [parcel "a", parcel "b"] ⟨0, 0, 0⟩ 0).map (·.reachable) = .ok false := by
      decide +kernel
    obtain ⟨s, walked, reachable⟩ := except_map_eq_ok.mp walked
    exact ⟨s, walked, reachable, (walk_isChronological shuttle square' orderly rfl driven 0).2 s walked⟩

end Leftover
