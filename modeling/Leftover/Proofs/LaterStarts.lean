/-
# Setting out later

A vehicle that sets out later is nowhere earlier. Waiting for a window may take up what it is behind, but never more than
that: of two arrivals at a job the later one never leads to an earlier service, nor to one that is less late.

* `serviceStart_le` : the service of a job after a later arrival
* `ScheduledStop.NotAfter` : a stop is nowhere later than another one for the same job
* `drive_le` : two drives from one place at different times
* `Schedule.NotAfter`, `walk_le` : two schedules of the same jobs from one place at different times
-/
import Leftover.Proofs.Extremes
import Leftover.Proofs.Times
import Leftover.Proofs.WindowOrder

namespace Leftover

/-! ## Sums and differences in order -/

namespace Exact

open Quantity

theorem add_finite_le_add_finite {x y : Exact} (h : x ≤ y) (a : Rat) : x + finite a ≤ y + finite a := by
  rw [Exact.le_def] at h ⊢
  show le (add x (finite a)) (add y (finite a)) = true
  cases x <;> cases y <;> simp_all [le, lt, add]

theorem sub_finite_le_sub_finite {x y : Exact} (h : x ≤ y) (a : Rat) : x - finite a ≤ y - finite a := by
  rw [Exact.le_def] at h ⊢
  show le (add x (neg (finite a))) (add y (neg (finite a))) = true
  cases x <;> cases y <;> simp_all [le, lt, add, neg]

theorem larger_le_larger {x y x' y' : Exact} (first : x ≤ x') (second : y ≤ y') : larger x y ≤ larger x' y' := by
  have hx := isDefined_of_le first
  have hy := isDefined_of_le second
  exact (larger_le_iff hx.1 hy.1).mpr ⟨le_larger first, Exact.le_trans second (le_larger_right hx.2 hy.2)⟩

end Exact

/-! ## The service of a job -/

/-- After a later arrival a job is not served earlier, and not less late. -/
theorem serviceStart_le {job : Job Exact} (finite : job.IsFinite) (ordered : ∀ w ∈ job.windows, w.opens ≤ w.closes)
    {arrival arrival' : Exact} (later : arrival ≤ arrival') :
    (serviceStart job arrival).1 ≤ (serviceStart job arrival').1
      ∧ (serviceStart job arrival).2 ≤ (serviceStart job arrival').2 := by
  have zero : (0 : Exact) ≤ 0 := Exact.le_refl Exact.isDefined_zero
  have arrival_defined := (OrderedQuantity.isDefined_of_le _ _ later).2
  by_cases none_at_all : job.windows = []
  · rw [serviceStart_of_no_windows none_at_all, serviceStart_of_no_windows none_at_all]
    exact ⟨later, zero⟩
  have closes_finite : ∀ x ∈ (Window.byStart job.windows).map (·.closes), Quantity.isFinite x = true := by
    intro x member
    obtain ⟨w, hw, rfl⟩ := List.mem_map.mp member
    exact finite.closes w (Window.mem_byStart.mp hw)
  have opens_defined : ∀ w ∈ job.windows, Quantity.isUndefined w.opens = false := fun w member =>
    (OrderedQuantity.isDefined_of_le _ _ (ordered w member)).1
  cases usable' : firstUsable? (Window.byStart job.windows) arrival' with
  | some w' =>
    -- a window that is not over at the later time is not over at the earlier one
    have not_over : arrival' ≤ w'.closes := by simpa using List.find?_some usable'
    have member' := List.mem_of_find?_eq_some usable'
    cases usable : firstUsable? (Window.byStart job.windows) arrival with
    | none =>
      refine absurd (decide_eq_true (Exact.le_trans later not_over)) ?_
      exact List.find?_eq_none.mp usable w' member'
    | some w =>
      rw [serviceStart_of_usable usable, serviceStart_of_usable usable']
      have opens_le : w.opens ≤ w'.opens :=
        firstUsable?_opens_le (Window.byStart_pairwise opens_defined)
          (fun w hw => opens_defined w (Window.mem_byStart.mp hw)) usable member' (Exact.le_trans later not_over)
      exact ⟨Exact.larger_le_larger later opens_le, zero⟩
  | none =>
    -- at the later time all windows are over, so the last end lies before it
    have ended : ∀ w ∈ Window.byStart job.windows, w.closes < arrival' := by
      intro w member
      have not_usable := List.find?_eq_none.mp usable' w member
      rw [decide_eq_true_iff] at not_usable
      have closes_defined := (OrderedQuantity.isDefined_of_le _ _ (ordered w (Window.mem_byStart.mp member))).2
      exact OrderedQuantity.lt_of_not_le arrival_defined closes_defined not_usable
    rw [serviceStart_of_past none_at_all usable']
    cases usable : firstUsable? (Window.byStart job.windows) arrival with
    | none =>
      have latest_finite : Quantity.isFinite (Quantity.largest 0 ((Window.byStart job.windows).map (·.closes))) = true :=
        Exact.isFinite_largest rfl closes_finite
      obtain ⟨latest, latest_eq⟩ := Exact.isFinite_iff.mp latest_finite
      rw [serviceStart_of_past none_at_all usable, latest_eq]
      exact ⟨later, Exact.sub_finite_le_sub_finite later latest⟩
    | some w =>
      rw [serviceStart_of_usable usable]
      have member := List.mem_of_find?_eq_some usable
      have opens_before : w.opens ≤ arrival' :=
        Exact.le_trans (ordered w (Window.mem_byStart.mp member)) (Exact.le_of_lt (ended w member))
      have some_closes : (Window.byStart job.windows).map (·.closes) ≠ [] := by
        rw [ne_eq, List.map_eq_nil_iff]
        exact List.ne_nil_of_mem member
      obtain ⟨v, hv, latest_eq⟩ := List.mem_map.mp (OrderedQuantity.isGreatest_largest 0 some_closes fun x hx =>
        Exact.isUndefined_eq_false.mpr (Exact.isDefined_of_isFinite (closes_finite x hx))).1
      refine ⟨OrderedQuantity.larger_le later opens_before, ?_⟩
      rw [← latest_eq]
      exact Exact.sub_nonneg_of_lt (ended v hv)

/-! ## Stops and places -/

/-- A stop is nowhere later than another one for the same job, after as many meters. -/
structure ScheduledStop.NotAfter (a b : ScheduledStop Exact) : Prop where
  job : a.job = b.job
  arrival : a.arrival ≤ b.arrival
  start : a.start ≤ b.start
  departure : a.departure ≤ b.departure
  late : a.late ≤ b.late
  distance : a.distance = b.distance

/-- The vehicle is at a place no later than at another time, after as many meters. -/
structure Place.NotAfter (here there : Place Exact) : Prop where
  location : here.location = there.location
  time : here.time ≤ there.time
  distance : here.distance = there.distance

theorem ScheduledStop.NotAfter.place {a b : ScheduledStop Exact} (h : a.NotAfter b) : a.place.NotAfter b.place :=
  ⟨congrArg Job.location h.job, h.departure, h.distance⟩

theorem serve_le {here there : Place Exact} (sets_out : here.NotAfter there) {job : Job Exact} (finite : job.IsFinite)
    (ordered : ∀ w ∈ job.windows, w.opens ≤ w.closes) {minutes : Exact} (minutes_finite : Quantity.isFinite minutes = true)
    (meters : Exact) : (serve here job minutes meters).NotAfter (serve there job minutes meters) := by
  obtain ⟨travel, rfl⟩ := Exact.isFinite_iff.mp minutes_finite
  obtain ⟨duration, duration_eq⟩ := Exact.isFinite_iff.mp finite.duration
  have arrives := Exact.add_finite_le_add_finite sets_out.time travel
  obtain ⟨starts, late⟩ := serviceStart_le finite ordered arrives
  refine ⟨rfl, arrives, starts, ?_, late, ?_⟩
  · show (serviceStart job _).1 + job.duration ≤ (serviceStart job _).1 + job.duration
    rw [duration_eq]
    exact Exact.add_finite_le_add_finite starts duration
  · show here.distance + meters = there.distance + meters
    rw [sets_out.distance]

/-! ## Drives -/

/-- A drive that sets out later passes the same stops, each no earlier, and gets as far. -/
theorem drive_le {m : Matrix Exact} {here there : Place Exact} (sets_out : here.NotAfter there) {jobs : List (Job Exact)}
    {r : List (ScheduledStop Exact) × Option (Place Exact)} (driven : drive m here jobs = .ok r)
    (finite : ∀ job ∈ jobs, job.IsFinite) (ordered : ∀ job ∈ jobs, ∀ w ∈ job.windows, w.opens ≤ w.closes) :
    ∃ r', drive m there jobs = .ok r' ∧ List.Forall₂ ScheduledStop.NotAfter r.1 r'.1
      ∧ Option.Rel Place.NotAfter r.2 r'.2 := by
  induction jobs generalizing here there r with
  | nil =>
    obtain rfl := Except.ok.inj driven
    exact ⟨([], some there), rfl, .nil, .some sets_out⟩
  | cons job rest ih =>
    rw [List.forall_mem_cons] at finite ordered
    cases leg : leg? m here.location job.location with
    | error fault =>
      rw [drive_cons_of_error rest leg] at driven
      cases driven
    | ok found =>
      have leg' := leg
      rw [sets_out.location] at leg'
      cases found with
      | none =>
        rw [drive_cons_of_none rest leg] at driven
        obtain rfl := Except.ok.inj driven
        exact ⟨([], none), drive_cons_of_none rest leg', .nil, .none⟩
      | some figures =>
        obtain ⟨minutes, meters⟩ := figures
        have first := serve_le sets_out finite.1 ordered.1 (leg?_eq_some leg).1 meters
        rw [drive_cons_of_some rest leg] at driven
        obtain ⟨later, driven_on, rfl⟩ := except_map_eq_ok.mp driven
        obtain ⟨later', driven_on', stops, last⟩ := ih first.place driven_on finite.2 ordered.2
        refine ⟨(serve there job minutes meters :: later'.1, later'.2), ?_, .cons first stops, last⟩
        rw [drive_cons_of_some rest leg', driven_on']
        rfl

/-- A drive leads out of the matrix at any time if it does at one. -/
theorem drive_eq_error_of_location_eq {α : Type} [Quantity α] {m : Matrix α} {here there : Place α} {jobs : List (Job α)}
    {fault : Fault} (failed : drive m here jobs = .error fault) (same : here.location = there.location) :
    drive m there jobs = .error fault := by
  induction jobs generalizing here there with
  | nil => exact absurd failed (by simp [drive_nil])
  | cons job rest ih =>
    cases leg : leg? m here.location job.location with
    | error fault' =>
      rw [drive_cons_of_error rest leg] at failed
      rw [same] at leg
      rw [drive_cons_of_error rest leg, failed]
    | ok found =>
      have leg' := leg
      rw [same] at leg'
      cases found with
      | none =>
        rw [drive_cons_of_none rest leg] at failed
        cases failed
      | some figures =>
        rw [drive_cons_of_some rest leg, except_map_eq_error] at failed
        have onward : drive m (serve there job figures.1 figures.2).place rest = .error fault := ih failed rfl
        rw [drive_cons_of_some rest leg', onward, except_map_error]

/-! ## Whole routes -/

/-- A schedule is nowhere later than another one through the same stops, and both get through, or neither does, after as
many meters. -/
structure Schedule.NotAfter (s t : Schedule Exact) : Prop where
  reachable : s.reachable = t.reachable
  stops : List.Forall₂ ScheduledStop.NotAfter s.stops t.stops
  endTime : s.endTime ≤ t.endTime
  distance : s.distance = t.distance

/-- Routes that do not get through end alike. -/
theorem cutOff_le {stops stops' : List (ScheduledStop Exact)} (passed : List.Forall₂ ScheduledStop.NotAfter stops stops')
    (startTime startTime' : Exact) : (Schedule.cutOff stops startTime).NotAfter (.cutOff stops' startTime') :=
  ⟨rfl, passed, Exact.le_refl (by simp [Exact.IsDefined, Schedule.cutOff, Quantity.infinity]), rfl⟩

/-- Of two drives that end at the same location, and of which one is nowhere later, both arrive, or neither does. -/
theorem closeRoute_le (v : Vehicle Exact) (m : Matrix Exact) {stops stops' : List (ScheduledStop Exact)}
    (passed : List.Forall₂ ScheduledStop.NotAfter stops stops') {last last' : Option (Place Exact)}
    (gets_to : Option.Rel Place.NotAfter last last') (startTime startTime' : Exact) :
    (closeRoute v m startTime stops last = .error .outsideMatrix ∧ closeRoute v m startTime' stops' last' = .error .outsideMatrix)
      ∨ ∃ s s', closeRoute v m startTime stops last = .ok s ∧ closeRoute v m startTime' stops' last' = .ok s'
        ∧ s.NotAfter s' := by
  cases gets_to with
  | none => exact Or.inr ⟨_, _, rfl, rfl, cutOff_le passed startTime startTime'⟩
  | @some here there sets_out =>
    rw [closeRoute, closeRoute]
    cases ends : v.endLocation with
    | none =>
      rw [arrive?_of_none m here ends, arrive?_of_none m there ends]
      exact Or.inr ⟨_, _, rfl, rfl, rfl, passed, sets_out.time, sets_out.distance⟩
    | some goal =>
      simp only [Vehicle.arrive?, ends]
      rw [← sets_out.location]
      cases leg : leg? m here.location goal with
      | error fault =>
        obtain rfl := leg?_eq_error leg
        exact Or.inl ⟨rfl, rfl⟩
      | ok found =>
        cases found with
        | none => exact Or.inr ⟨_, _, rfl, rfl, cutOff_le passed startTime startTime'⟩
        | some figures =>
          obtain ⟨minutes, meters⟩ := figures
          obtain ⟨travel, rfl⟩ := Exact.isFinite_iff.mp (leg?_eq_some leg).1
          refine Or.inr ⟨_, _, rfl, rfl, rfl, passed, Exact.add_finite_le_add_finite sets_out.time travel, ?_⟩
          show here.distance + meters = there.distance + meters
          rw [sets_out.distance]

/-- From one place, after as many meters, a vehicle sets out at some finite time or at a later one. Both walks lead out of
the matrix, or both give a schedule: they get through, or neither does, pass as many stops after as many meters, and the
one that sets out first is nowhere later than the other one. When each of them is said to start does not matter. -/
theorem walk_le (v : Vehicle Exact) (m : Matrix Exact) {jobs : List (Job Exact)} (finite : ∀ job ∈ jobs, job.IsFinite)
    (ordered : ∀ job ∈ jobs, ∀ w ∈ job.windows, w.opens ≤ w.closes) (location : Nat) (meters : Exact) {time time' : Exact}
    (time_finite : Quantity.isFinite time = true) (time_finite' : Quantity.isFinite time' = true) (later : time ≤ time')
    (startTime startTime' : Exact) :
    (walk v m jobs ⟨location, time, meters⟩ startTime = .error .outsideMatrix
        ∧ walk v m jobs ⟨location, time', meters⟩ startTime' = .error .outsideMatrix)
      ∨ ∃ s s', walk v m jobs ⟨location, time, meters⟩ startTime = .ok s
        ∧ walk v m jobs ⟨location, time', meters⟩ startTime' = .ok s' ∧ s.NotAfter s' := by
  have sets_out : Place.NotAfter ⟨location, time, meters⟩ ⟨location, time', meters⟩ := ⟨rfl, later, rfl⟩
  rw [walk_of_isFinite time_finite, walk_of_isFinite time_finite']
  cases driven : drive m ⟨location, time, meters⟩ jobs with
  | error fault =>
    obtain rfl := drive_eq_error driven
    rw [drive_eq_error_of_location_eq driven sets_out.location]
    exact Or.inl ⟨rfl, rfl⟩
  | ok r =>
    obtain ⟨r', driven', passed, gets_to⟩ := drive_le sets_out driven finite ordered
    rw [driven', except_ok_bind, except_ok_bind]
    exact closeRoute_le v m passed gets_to startTime startTime'

/-! ### The shuttle, too late for its parcel -/

theorem walk_le_shuttle :
    (∀ job ∈ [RouteState.parcel "a"], job.IsFinite) ∧ (∀ job ∈ [RouteState.parcel "a"], ∀ w ∈ job.windows, w.opens ≤ w.closes)
      ∧ (0 : Exact) ≤ .finite 400
      ∧ ∃ s s', walk RouteState.shuttle RouteState.twoPlaces [RouteState.parcel "a"] ⟨0, 0, 0⟩ 0 = .ok s
        ∧ walk RouteState.shuttle RouteState.twoPlaces [RouteState.parcel "a"] ⟨0, .finite 400, 0⟩ 0 = .ok s'
        ∧ s.NotAfter s' ∧ s.maxLate = 0 ∧ s'.maxLate = .finite 107 := by
  have finite : ∀ job ∈ [RouteState.parcel "a"], job.IsFinite := by
    rw [List.forall_mem_singleton]
    exact ⟨rfl, by decide, by decide, by decide⟩
  have ordered : ∀ job ∈ [RouteState.parcel "a"], ∀ w ∈ job.windows, w.opens ≤ w.closes := by decide +kernel
  have later : (0 : Exact) ≤ .finite 400 := by decide
  refine ⟨finite, ordered, later, ?_⟩
  rcases walk_le RouteState.shuttle RouteState.twoPlaces finite ordered 0 0 rfl rfl later 0 0 with
    ⟨failed, -⟩ | ⟨s, s', walked, walked', not_after⟩
  · exact absurd failed (by decide +kernel)
  · refine ⟨s, s', walked, walked', not_after, ?_, ?_⟩
    · have lateness : (walk RouteState.shuttle RouteState.twoPlaces [RouteState.parcel "a"] ⟨0, 0, 0⟩ 0).map (·.maxLate)
          = .ok 0 := by decide +kernel
      rw [walked] at lateness
      exact Except.ok.inj lateness
    · have lateness : (walk RouteState.shuttle RouteState.twoPlaces [RouteState.parcel "a"] ⟨0, .finite 400, 0⟩ 0).map
          (·.maxLate) = .ok (.finite 107) := by decide +kernel
      rw [walked'] at lateness
      exact Except.ok.inj lateness

end Leftover
