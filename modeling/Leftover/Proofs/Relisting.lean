/-
# Windows and breaks listed in another order

The windows of every job and the breaks of every vehicle are listed in another order. Then every route has the same
schedule but for the signs of zeros, with or without one more job, and so every break misses its limits by as much.

* `Relisting` : the other lists
* `Relisting.ScheduleTies`, `Relisting.StateTies` : the same schedule and the same route, but for the signs of zeros
* `Relisting.walk_ties`, `Relisting.build_ties` : the schedule of a route
* `Relisting.insertion_ties` : the schedule with one more job
* `Relisting.breakOverrun_ties` : the overrun of a break
-/
import Leftover.Proofs.Drive
import Leftover.Proofs.Lookup
import Leftover.Proofs.WindowOrder

namespace Leftover

/-- Other lists of windows for all jobs, and of breaks for all vehicles, the same ones in some order. The windows of a job
are listed as they are unless their ends are defined. -/
structure Relisting (α : Type) [Quantity α] where
  windows : Job α → List (Window α)
  breaks : Vehicle α → List (Break α)
  windows_perm : ∀ j, windows j = j.windows ∨ (windows j).Perm j.windows ∧ ∀ w ∈ j.windows, w.IsDefined
  breaks_perm : ∀ v, (breaks v).Perm v.breaks

/-- The same place, reached at the same time but for the sign of a zero. -/
structure PlaceTies {α : Type} [Quantity α] (there here : Place α) : Prop where
  location : there.location = here.location
  time : Ties there.time here.time
  distance : there.distance = here.distance

@[refl] theorem PlaceTies.refl {α : Type} [Quantity α] (here : Place α) : PlaceTies here here := ⟨rfl, .refl _, rfl⟩

namespace Relisting

variable {α : Type} [Quantity α] (r : Relisting α)

/-! ## Jobs, vehicles and schedules -/

/-- A job with its windows listed in the other order. -/
def job (j : Job α) : Job α := { j with windows := r.windows j }

/-- A vehicle with its breaks listed in the other order. -/
def vehicle (v : Vehicle α) : Vehicle α := { v with breaks := r.breaks v }

/-- The same stop but for the signs of zeros, at the job with its windows listed in the other order. -/
structure StopTies (t s : ScheduledStop α) : Prop where
  job : t.job = r.job s.job
  arrival : Ties t.arrival s.arrival
  start : Ties t.start s.start
  departure : Ties t.departure s.departure
  late : Ties t.late s.late
  distance : t.distance = s.distance

/-- The same schedule but for the signs of zeros, of the jobs with their windows listed in the other order. -/
structure ScheduleTies (t s : Schedule α) : Prop where
  stops : List.Forall₂ r.StopTies t.stops s.stops
  startTime : t.startTime = s.startTime
  endTime : Ties t.endTime s.endTime
  distance : t.distance = s.distance
  reachable : t.reachable = s.reachable

theorem ScheduleTies.cutOff {stops' stops : List (ScheduledStop α)} (each : List.Forall₂ r.StopTies stops' stops)
    (startTime : α) : r.ScheduleTies (.cutOff stops' startTime) (.cutOff stops startTime) where
  stops := each
  startTime := rfl
  endTime := .refl _
  distance := rfl
  reachable := rfl

theorem ScheduleTies.after {r : Relisting α} {stops' stops : List (ScheduledStop α)} {t s : Schedule α}
    (ties : r.ScheduleTies t s) (each : List.Forall₂ r.StopTies stops' stops) :
    r.ScheduleTies (.after stops' t) (.after stops s) :=
  { ties with stops := List.rel_append each ties.stops }

theorem StopTies.place {r : Relisting α} {t s : ScheduledStop α} (ties : r.StopTies t s) : PlaceTies t.place s.place where
  location := by
    show t.job.location = _
    rw [ties.job]
    rfl
  time := ties.departure
  distance := ties.distance

theorem isEmpty_windows (j : Job α) : (r.windows j).isEmpty = j.windows.isEmpty := by
  rcases r.windows_perm j with same | ⟨perm, -⟩
  · rw [same]
  · rw [Bool.eq_iff_iff, List.isEmpty_iff_length_eq_zero, List.isEmpty_iff_length_eq_zero, perm.length_eq]

theorem isEmpty_breaks (v : Vehicle α) : (r.breaks v).isEmpty = v.breaks.isEmpty := by
  rw [Bool.eq_iff_iff, List.isEmpty_iff_length_eq_zero, List.isEmpty_iff_length_eq_zero, (r.breaks_perm v).length_eq]

/-! ## Driving -/

section

variable [SignlessZero α]

theorem serviceStart_job {arrival' arrival : α} (tie : Ties arrival' arrival) (j : Job α) :
    Ties (serviceStart (r.job j) arrival').1 (serviceStart j arrival).1
      ∧ Ties (serviceStart (r.job j) arrival').2 (serviceStart j arrival).2 := by
  rcases r.windows_perm j with same | ⟨perm, defined⟩
  · rw [show r.job j = j by rw [job, same]]
    exact serviceStart_of_ties tie j
  · exact serviceStart_ties tie perm defined

/-- The last of the windows of a job are over at times that tie. -/
theorem latest_ties (j : Job α) :
    Ties (Quantity.largest 0 ((r.windows j).map (·.closes))) (Quantity.largest 0 (j.windows.map (·.closes))) := by
  rcases r.windows_perm j with same | ⟨perm, defined⟩
  · rw [same]
  · refine (largest_perm_ties (perm.symm.map _) fun x hx => ?_).symm
    obtain ⟨w, hw, rfl⟩ := List.mem_map.mp hx
    exact (defined w hw).closes

theorem serve_ties {there here : Place α} (ties : PlaceTies there here) (j : Job α) (minutes meters : α) :
    r.StopTies (serve there (r.job j) minutes meters) (serve here j minutes meters) := by
  have arrival : Ties (there.time + minutes) (here.time + minutes) := ties.time.add (.refl _)
  obtain ⟨start, late⟩ := r.serviceStart_job arrival j
  exact
    { job := rfl
      arrival := arrival
      start := start
      departure := start.add (.refl _)
      late := late
      distance := congrArg (· + meters) ties.distance }

/-- A drive passes the same stops. -/
theorem drive_ties (m : Matrix α) {there here : Place α} (ties : PlaceTies there here) (jobs : List (Job α)) :
    Parallel (fun found' found => List.Forall₂ r.StopTies found'.1 found.1 ∧ Option.Rel PlaceTies found'.2 found.2)
      (drive m there (jobs.map r.job)) (drive m here jobs) := by
  induction jobs generalizing there here with
  | nil => exact .ok ⟨.nil, .some ties⟩
  | cons j rest ih =>
    rw [List.map_cons]
    -- the leg leads to the same location
    have leg' : leg? m there.location (r.job j).location = leg? m here.location j.location := by
      rw [ties.location]
      rfl
    cases leg : leg? m here.location j.location with
    | error fault =>
      rw [drive_cons_of_error rest leg, drive_cons_of_error _ (leg'.trans leg)]
      exact .error fault
    | ok found =>
      cases found with
      | none =>
        rw [drive_cons_of_none rest leg, drive_cons_of_none _ (leg'.trans leg)]
        exact .ok ⟨.nil, .none⟩
      | some figures =>
        obtain ⟨minutes, meters⟩ := figures
        have stop := r.serve_ties ties j minutes meters
        rw [drive_cons_of_some rest leg, drive_cons_of_some _ (leg'.trans leg)]
        exact (ih stop.place).map fun _ _ both => ⟨.cons stop both.1, both.2⟩

theorem arrive?_ties (v : Vehicle α) (m : Matrix α) {there here : Place α} (ties : PlaceTies there here) :
    Parallel (Option.Rel PlaceTies) ((r.vehicle v).arrive? m there) (v.arrive? m here) := by
  have same_end : (r.vehicle v).endLocation = v.endLocation := rfl
  cases ends : v.endLocation with
  | none =>
    rw [arrive?_of_none m there (same_end.trans ends), arrive?_of_none m here ends]
    exact .ok (.some ties)
  | some home =>
    simp only [Vehicle.arrive?, same_end, ends, ties.location]
    cases leg? m here.location home with
    | error fault => exact .error fault
    | ok figures =>
      cases figures with
      | none => exact .ok .none
      | some figures => exact .ok (.some ⟨rfl, ties.time.add (.refl _), congrArg (· + figures.2) ties.distance⟩)

theorem closeRoute_ties (v : Vehicle α) (m : Matrix α) (startTime : α) {stops' stops : List (ScheduledStop α)}
    (each : List.Forall₂ r.StopTies stops' stops) {last' last : Option (Place α)} (ties : Option.Rel PlaceTies last' last) :
    Parallel r.ScheduleTies (closeRoute (r.vehicle v) m startTime stops' last') (closeRoute v m startTime stops last) := by
  cases ties with
  | none => exact .ok (.cutOff r each startTime)
  | some place =>
    refine (r.arrive?_ties v m place).map fun home' home arrived => ?_
    cases arrived with
    | none => exact .cutOff r each startTime
    | some home => exact ⟨each, rfl, home.time, home.distance, rfl⟩

/-- A route has the same schedule. -/
theorem walk_ties (v : Vehicle α) (m : Matrix α) (jobs : List (Job α)) {there here : Place α} (ties : PlaceTies there here)
    (startTime : α) :
    Parallel r.ScheduleTies (walk (r.vehicle v) m (jobs.map r.job) there startTime) (walk v m jobs here startTime) := by
  cases setsOut : Quantity.isFinite here.time with
  | false =>
    rw [walk_of_not_isFinite setsOut, walk_of_not_isFinite (ties.time.isFinite_eq.trans setsOut)]
    exact .ok (.cutOff r .nil startTime)
  | true =>
    rw [walk_of_isFinite setsOut, walk_of_isFinite (ties.time.isFinite_eq.trans setsOut)]
    exact (r.drive_ties m ties jobs).bind fun _ _ both => r.closeRoute_ties v m startTime both.1 both.2

end

/-! ## Routes -/

/-- The same route but for the signs of zeros, with windows and breaks listed in the other order. -/
structure StateTies (t s : RouteState α) : Prop where
  vehicle : t.vehicle = r.vehicle s.vehicle
  matrix : t.matrix = s.matrix
  jobs : t.jobs = s.jobs.map r.job
  origin : t.origin = s.origin
  base : r.ScheduleTies t.base s.base

/-- The route of a vehicle is built in the same way. -/
theorem build_ties [SignlessZero α] (v : Vehicle α) (m : Matrix α) (jobs : List (Job α)) (startTime : Option α) :
    Parallel r.StateTies (RouteState.build (r.vehicle v) m (jobs.map r.job) startTime)
      (RouteState.build v m jobs startTime) := by
  have begun : (r.vehicle v).origin m startTime = v.origin m startTime := rfl
  cases start : v.origin m startTime with
  | error fault =>
    rw [RouteState.build, RouteState.build, begun, start]
    exact .error fault
  | ok here =>
    have walks := r.walk_ties v m jobs (.refl here) here.time
    cases walked : walk v m jobs here here.time with
    | ok base =>
      obtain ⟨base', walked', ties⟩ := walks.exists_ok walked
      rw [RouteState.build_eq_of_walk start walked, RouteState.build_eq_of_walk (begun.trans start) walked']
      exact .ok ⟨rfl, rfl, rfl, rfl, ties⟩
    | error fault =>
      -- neither route can be walked, so neither is built
      have failed : (RouteState.ofOrigin v m jobs here).map RouteState.base = .error fault := by
        rw [RouteState.ofOrigin_map_base, walked]
      have failed' : (RouteState.ofOrigin (r.vehicle v) m (jobs.map r.job) here).map RouteState.base = .error fault := by
        rw [RouteState.ofOrigin_map_base]
        exact (walked ▸ walks).eq_error
      rw [except_map_eq_error] at failed failed'
      rw [RouteState.build, RouteState.build, begun, start, except_ok_bind, except_ok_bind, failed, failed']
      exact .error fault

namespace StateTies

variable {r : Relisting α} {t s : RouteState α} (ties : r.StateTies t s)

include ties

theorem size_eq : t.size = s.size := by
  rw [RouteState.size, ties.jobs, List.length_map, RouteState.size]

theorem jobPlaces_eq : t.jobPlaces = s.jobPlaces := by
  unfold RouteState.jobPlaces
  rw [ties.jobs, List.zipIdx_map, List.map_map]
  rfl

/-- The lateness of a job ties. -/
theorem lateOf (jobId : Text) : Ties (t.lateOf jobId) (s.lateOf jobId) := by
  have each : List.Forall₂ (fun x y : Text × α => x.1 = y.1 ∧ Ties x.2 y.2) t.lateness s.lateness := by
    unfold RouteState.lateness
    rw [List.forall₂_map_left_iff, List.forall₂_map_right_iff]
    exact ties.base.stops.imp fun x y stop => ⟨by rw [stop.job]; rfl, stop.late⟩
  have found := lastOf?_rel each jobId
  unfold RouteState.lateOf
  generalize lastOf? t.lateness jobId = late' at found
  generalize lastOf? s.lateness jobId = late at found
  cases found with
  | none => rfl
  | some tie => exact tie

/-! ### Loads -/

theorem dims_eq : t.dims = s.dims := by
  unfold RouteState.dims
  rw [ties.jobs, ties.vehicle, List.map_map]
  rfl

omit ties in
theorem profileFrom_job (xs : List α) (jobs : List (Job α)) :
    Load.profileFrom xs (jobs.map r.job) = Load.profileFrom xs jobs := by
  induction jobs generalizing xs with
  | nil => rfl
  | cons j rest ih => rw [List.map_cons, Load.profileFrom, Load.profileFrom, ih]; rfl

theorem loads_eq : t.loads = s.loads := by
  have atStart : Load.atStart s.dims (s.jobs.map r.job) = Load.atStart s.dims s.jobs := by
    rw [Load.atStart, List.foldl_map]
    rfl
  rw [RouteState.loads, Load.profile, ties.dims_eq, ties.jobs, atStart, profileFrom_job]
  rfl

theorem peakWith_eq (j : Job α) (position : Int) : t.peakWith (r.job j) position = s.peakWith j position := by
  unfold RouteState.peakWith RouteState.peaksBefore RouteState.peaksAhead
  rw [ties.dims_eq, ties.loads_eq]
  rfl

/-! ### One more job -/

theorem placeBefore (k : Nat) : PlaceTies (t.placeBefore k) (s.placeBefore k) := by
  have after : ∀ {stops' stops : List (ScheduledStop α)} {there here : Place α}, List.Forall₂ r.StopTies stops' stops →
      PlaceTies there here → PlaceTies (placeAfter there stops') (placeAfter here stops) := by
    intro stops' stops there here each place
    induction each generalizing there here with
    | nil => exact place
    | cons stop _ ih => exact ih stop.place
  rw [RouteState.placeBefore_eq, RouteState.placeBefore_eq]
  exact after (List.forall₂_take k ties.base.stops) (ties.origin ▸ .refl _)

variable [SignlessZero α]

theorem insertionAt (j : Job α) (k : Nat) :
    Parallel r.ScheduleTies (t.insertionAt (r.job j) k) (s.insertionAt j k) := by
  rw [RouteState.insertionAt, RouteState.insertionAt, ties.base.reachable, ties.vehicle, ties.matrix, ties.jobs,
    ties.origin, ← List.map_drop, ← List.map_take, ← List.map_cons, ← List.map_append]
  split
  · have resumed := r.walk_ties s.vehicle s.matrix (j :: s.jobs.drop k) (ties.placeBefore k) s.origin.time
    exact resumed.map fun _ _ later => later.after (List.forall₂_take k ties.base.stops)
  · exact r.walk_ties s.vehicle s.matrix _ (.refl s.origin) s.origin.time

/-- The schedule with one more job is the same. -/
theorem insertion (j : Job α) (position : Int) :
    Parallel r.ScheduleTies (t.insertion (r.job j) position) (s.insertion j position) := by
  unfold RouteState.insertion
  rw [ties.size_eq]
  split
  · exact ties.insertionAt j _
  · exact .error _

end StateTies

/-! ## Breaks -/

section

variable [SignlessZero α] {r}

theorem pushDelay_ties {worst' worst delay' delay : α} (worst_ties : Ties worst' worst) (delay_ties : Ties delay' delay)
    {stops' stops : List (ScheduledStop α)} (each : List.Forall₂ r.StopTies stops' stops) :
    Ties (pushDelay worst' delay' stops').1 (pushDelay worst delay stops).1
      ∧ Ties (pushDelay worst' delay' stops').2 (pushDelay worst delay stops).2 := by
  induction each generalizing worst' worst delay' delay with
  | nil => exact ⟨worst_ties, delay_ties⟩
  | @cons stop' stop _ _ first _ ih =>
    obtain ⟨start, late⟩ := r.serviceStart_job (first.arrival.add delay_ties) stop.job
    rw [← first.job] at start late
    simp only [pushDelay, delay_ties.le_iff (.refl 0)]
    split
    · exact ⟨worst_ties, delay_ties⟩
    · exact ih (worst_ties.larger (late.sub first.late)) (start.sub first.start)

omit [SignlessZero α] in
theorem gapsAfter_ties {stops' stops : List (ScheduledStop α)} (each : List.Forall₂ r.StopTies stops' stops) :
    List.Forall₂ (fun gap' gap : α × List (ScheduledStop α) => Ties gap'.1 gap.1 ∧ List.Forall₂ r.StopTies gap'.2 gap.2)
      (gapsAfter stops') (gapsAfter stops) := by
  induction each with
  | nil => exact .nil
  | @cons stop' stop _ _ first rest ih =>
    have eligible : stop'.job.breakEligible = stop.job.breakEligible := by
      rw [first.job]
      rfl
    rw [gapsAfter, gapsAfter, eligible]
    split
    · exact .cons ⟨first.departure, rest⟩ ih
    · exact ih

variable {t s : Schedule α} (ties : r.ScheduleTies t s) (v : Vehicle α) (b : Break α)

omit ties in
theorem shiftExcess_ties {time' time : α} (tie : Ties time' time) :
    Ties (shiftExcess (r.vehicle v) time') (shiftExcess v time) :=
  (Ties.refl 0).larger (tie.sub (.refl v.shift.closes))

include ties

theorem overrunBefore_ties {leaves' leaves : α} (leaves_ties : Ties leaves' leaves)
    {rest' rest : List (ScheduledStop α)} (each : List.Forall₂ r.StopTies rest' rest) :
    Ties (overrunBefore t (r.vehicle v) b leaves' rest') (overrunBefore s v b leaves rest) := by
  have begins := leaves_ties.larger (.refl b.window.opens)
  obtain ⟨worst, delay⟩ := pushDelay_ties (.refl 0) ((begins.add (.refl b.duration)).sub leaves_ties) each
  have excess := (shiftExcess_ties (r := r) v (ties.endTime.add delay)).sub (shiftExcess_ties (r := r) v ties.endTime)
  simp only [overrunBefore, (Ties.refl b.window.closes).lt_iff begins, (Ties.refl (0 : α)).lt_iff delay]
  split
  · exact begins.sub (.refl _)
  · refine Ties.larger ?_ (.refl 0)
    split
    · exact worst.larger excess
    · exact worst

theorem overrunAtEnd_ties : Ties (overrunAtEnd t (r.vehicle v) b) (overrunAtEnd s v b) := by
  have begins := ties.endTime.larger (.refl b.window.opens)
  exact ((Ties.refl 0).larger (begins.sub (.refl _))).larger
    ((shiftExcess_ties (r := r) v (begins.add (.refl _))).sub (shiftExcess_ties (r := r) v ties.endTime))

/-- A break misses its limits by as much. -/
theorem breakOverrun_ties : Ties (breakOverrun t (r.vehicle v) b) (breakOverrun s v b) := by
  have onTheWay : List.Forall₂ Ties (overrunsOnTheWay t (r.vehicle v) b) (overrunsOnTheWay s v b) := by
    rw [overrunsOnTheWay, overrunsOnTheWay, List.forall₂_map_left_iff, List.forall₂_map_right_iff]
    refine .cons ?_ ((gapsAfter_ties ties.stops).imp fun _ _ gap => overrunBefore_ties ties v b gap.1 gap.2)
    exact overrunBefore_ties ties v b (ties.startTime ▸ .refl _) ties.stops
  have ended : decide (t.endTime < b.window.opens) = decide (s.endTime < b.window.opens) :=
    decide_eq_decide.mpr (ties.endTime.lt_iff (.refl _))
  rw [breakOverrun, breakOverrun, ties.reachable, ended]
  split
  · rfl
  · exact ((Ties.refl _).foldl_smaller onTheWay).smaller (overrunAtEnd_ties ties v b)

end

end Relisting

end Leftover
