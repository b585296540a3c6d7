/-
# Driving in parts

A drive through two lists of jobs is a drive through the first, and from where that ends a drive through the
second. So the times of a route with one more job can be worked out from the stop before it.

* `drive_append`, `walk_append` : a drive in two parts
* `drive_take` : the beginning of a drive
* `RouteState.insertion_eq_rebuilt` : inserting into a route as it is, and building the longer route anew
-/
import Leftover.Proofs.Outcome
import Leftover.Route.State

namespace Leftover

variable {α : Type} [Quantity α]

/-! ## Legs -/

/-- A leg fails only if it leads out of the matrix. -/
theorem entry_eq_error {table : List (List (Option α))} {i j : Nat} {fault : Fault}
    (h : Matrix.entry table i j = .error fault) : fault = .outsideMatrix := by
  rw [Matrix.entry, except_map_eq_error, Matrix.cell] at h
  split at h
  · exact (Except.error.inj h).symm
  · split at h
    · exact (Except.error.inj h).symm
    · exact absurd h (by simp)

theorem leg?_eq_error {m : Matrix α} {i j : Nat} {fault : Fault} (h : leg? m i j = .error fault) :
    fault = .outsideMatrix := by
  unfold leg? at h
  rcases except_bind_eq_error.mp h with h | ⟨minutes, -, h⟩
  · exact entry_eq_error h
  · split at h
    · rcases except_bind_eq_error.mp h with h | ⟨meters, -, h⟩
      · exact entry_eq_error h
      · exact absurd h (by simp)
    · exact absurd h (by simp)

/-! ## Drives -/

theorem drive_nil (m : Matrix α) (here : Place α) : drive m here [] = .ok ([], some here) := rfl

/-- A drive without a first leg. -/
theorem drive_cons_of_none {m : Matrix α} {here : Place α} {job : Job α} (rest : List (Job α))
    (leg : leg? m here.location job.location = .ok none) : drive m here (job :: rest) = .ok ([], none) := by
  rw [drive, leg]
  rfl

/-- A drive after its first leg. -/
theorem drive_cons_of_some {m : Matrix α} {here : Place α} {job : Job α} (rest : List (Job α))
    {minutes meters : α} (leg : leg? m here.location job.location = .ok (some (minutes, meters))) :
    drive m here (job :: rest) = (drive m (serve here job minutes meters).place rest).map fun r =>
      (serve here job minutes meters :: r.1, r.2) := by
  rw [drive, leg, except_ok_bind]
  show (drive m _ rest >>= _) = _
  cases drive m (serve here job minutes meters).place rest with
  | error fault => rfl
  | ok r => rfl

theorem drive_cons_of_error {m : Matrix α} {here : Place α} {job : Job α} (rest : List (Job α)) {fault : Fault}
    (leg : leg? m here.location job.location = .error fault) : drive m here (job :: rest) = .error fault := by
  rw [drive, leg]
  rfl

/-- What a drive that gets through has to be like. -/
theorem drive_cons_eq_some {m : Matrix α} {here last : Place α} {job : Job α} {rest : List (Job α)}
    {stops : List (ScheduledStop α)} (h : drive m here (job :: rest) = .ok (stops, some last)) :
    ∃ minutes meters later, leg? m here.location job.location = .ok (some (minutes, meters))
      ∧ drive m (serve here job minutes meters).place rest = .ok (later, some last)
      ∧ stops = serve here job minutes meters :: later := by
  cases leg : leg? m here.location job.location with
  | error fault =>
    rw [drive_cons_of_error rest leg] at h
    exact absurd h (by simp)
  | ok found =>
    cases found with
    | none =>
      rw [drive_cons_of_none rest leg] at h
      exact absurd h (by simp)
    | some figures =>
      obtain ⟨minutes, meters⟩ := figures
      rw [drive_cons_of_some rest leg] at h
      obtain ⟨⟨later, last'⟩, driven, same⟩ := except_map_eq_ok.mp h
      simp only [Prod.mk.injEq] at same
      obtain ⟨rfl, rfl⟩ := same
      exact ⟨minutes, meters, later, rfl, driven, rfl⟩

theorem drive_eq_error {m : Matrix α} {here : Place α} {jobs : List (Job α)} {fault : Fault}
    (h : drive m here jobs = .error fault) : fault = .outsideMatrix := by
  induction jobs generalizing here with
  | nil => exact absurd h (by simp [drive_nil])
  | cons job rest ih =>
    cases leg : leg? m here.location job.location with
    | error fault' =>
      rw [drive_cons_of_error rest leg] at h
      cases h
      exact leg?_eq_error leg
    | ok found =>
      cases found with
      | none => exact absurd h (by simp [drive_cons_of_none rest leg])
      | some figures =>
        rw [drive_cons_of_some rest leg, except_map_eq_error] at h
        exact ih h

/-- The place after some stops. -/
def placeAfter (here : Place α) : List (ScheduledStop α) → Place α
  | [] => here
  | stop :: rest => placeAfter stop.place rest

omit [Quantity α] in
theorem placeAfter_eq_getLast? (here : Place α) (stops : List (ScheduledStop α)) :
    placeAfter here stops = (stops.getLast?.map ScheduledStop.place).getD here := by
  induction stops generalizing here with
  | nil => rfl
  | cons stop rest ih =>
    rw [placeAfter, ih, List.getLast?_cons]
    cases rest.getLast? <;> rfl

/-- A drive that gets through serves every job, and ends at the last of them. -/
theorem drive_eq_some {m : Matrix α} {here last : Place α} {jobs : List (Job α)} {stops : List (ScheduledStop α)}
    (h : drive m here jobs = .ok (stops, some last)) : stops.map (·.job) = jobs ∧ last = placeAfter here stops := by
  induction jobs generalizing here stops with
  | nil =>
    simp only [drive_nil, Except.ok.injEq, Prod.mk.injEq, Option.some.injEq] at h
    obtain ⟨rfl, rfl⟩ := h
    exact ⟨rfl, rfl⟩
  | cons job rest ih =>
    obtain ⟨minutes, meters, later, -, driven, rfl⟩ := drive_cons_eq_some h
    obtain ⟨jobs_eq, last_eq⟩ := ih driven
    exact ⟨by rw [List.map_cons, jobs_eq]; rfl, last_eq⟩

theorem length_of_drive {m : Matrix α} {here last : Place α} {jobs : List (Job α)} {stops : List (ScheduledStop α)}
    (h : drive m here jobs = .ok (stops, some last)) : stops.length = jobs.length := by
  rw [← (drive_eq_some h).1, List.length_map]

/-- The beginning of a drive that gets through. -/
theorem drive_take {m : Matrix α} {here last : Place α} {jobs : List (Job α)} {stops : List (ScheduledStop α)}
    (h : drive m here jobs = .ok (stops, some last)) (k : Nat) :
    drive m here (jobs.take k) = .ok (stops.take k, some (placeAfter here (stops.take k))) := by
  induction jobs generalizing here stops k with
  | nil =>
    simp only [drive_nil, Except.ok.injEq, Prod.mk.injEq, Option.some.injEq] at h
    obtain ⟨rfl, rfl⟩ := h
    simp [drive_nil, placeAfter]
  | cons job rest ih =>
    obtain ⟨minutes, meters, later, leg, driven, rfl⟩ := drive_cons_eq_some h
    cases k with
    | zero => rfl
    | succ k =>
      rw [List.take_succ_cons, drive_cons_of_some _ leg, ih driven k, List.take_succ_cons]
      rfl

/-- A drive in two parts. -/
theorem drive_append {m : Matrix α} {here there : Place α} {xs : List (Job α)} {stops : List (ScheduledStop α)}
    (h : drive m here xs = .ok (stops, some there)) (ys : List (Job α)) :
    drive m here (xs ++ ys) = (drive m there ys).map fun r => (stops ++ r.1, r.2) := by
  induction xs generalizing here stops with
  | nil =>
    simp only [drive_nil, Except.ok.injEq, Prod.mk.injEq, Option.some.injEq] at h
    obtain ⟨rfl, rfl⟩ := h
    rw [List.nil_append]
    cases drive m here ys <;> rfl
  | cons job rest ih =>
    obtain ⟨minutes, meters, later, leg, driven, rfl⟩ := drive_cons_eq_some h
    rw [List.cons_append, drive_cons_of_some _ leg, ih driven]
    cases drive m there ys <;> rfl

/-! ## Arriving -/

theorem arrive?_of_none {v : Vehicle α} (m : Matrix α) (here : Place α) (isOpen : v.endLocation = none) :
    v.arrive? m here = .ok (some here) := by
  rw [Vehicle.arrive?, isOpen]

theorem arrive?_of_leg {v : Vehicle α} {m : Matrix α} {here : Place α} {goal : Nat} {minutes meters : α}
    (ends : v.endLocation = some goal) (leg : leg? m here.location goal = .ok (some (minutes, meters))) :
    v.arrive? m here = .ok (some ⟨goal, here.time + minutes, here.distance + meters⟩) := by
  simp only [Vehicle.arrive?, ends, leg, except_ok_bind]
  rfl

/-- A vehicle that arrives stays where it is, or drives the last leg. -/
theorem arrive?_eq_some {v : Vehicle α} {m : Matrix α} {here home : Place α}
    (arrived : v.arrive? m here = .ok (some home)) :
    (v.endLocation = none ∧ home = here) ∨ ∃ goal minutes meters, v.endLocation = some goal
      ∧ leg? m here.location goal = .ok (some (minutes, meters))
      ∧ home = ⟨goal, here.time + minutes, here.distance + meters⟩ := by
  cases ends : v.endLocation with
  | none =>
    rw [arrive?_of_none m here ends] at arrived
    exact Or.inl ⟨rfl, (Option.some.inj (Except.ok.inj arrived)).symm⟩
  | some goal =>
    simp only [Vehicle.arrive?, ends] at arrived
    obtain ⟨found, leg, arrived⟩ := except_bind_eq_ok.mp arrived
    cases found with
    | none => exact absurd arrived (by simp)
    | some figures =>
      obtain ⟨minutes, meters⟩ := figures
      exact Or.inr ⟨goal, minutes, meters, rfl, leg, (Option.some.inj (Except.ok.inj arrived)).symm⟩

/-! ## Whole routes -/

/-- What becomes of a drive at the end of a route. -/
def closeRoute (v : Vehicle α) (m : Matrix α) (startTime : α) (stops : List (ScheduledStop α)) :
    Option (Place α) → Except Fault (Schedule α)
  | none => .ok (.cutOff stops startTime)
  | some last => (v.arrive? m last).map fun
    | none => .cutOff stops startTime
    | some home => ⟨stops, startTime, home.time, home.distance, true⟩

/-- A walk that sets out at some finite time is a drive and an arrival. -/
theorem walk_of_isFinite {v : Vehicle α} {m : Matrix α} {jobs : List (Job α)} {here : Place α} {startTime : α}
    (h : Quantity.isFinite here.time = true) :
    walk v m jobs here startTime = drive m here jobs >>= fun r => closeRoute v m startTime r.1 r.2 := by
  rw [walk, if_pos h]
  cases drive m here jobs with
  | error fault => rfl
  | ok r =>
    obtain ⟨stops, last⟩ := r
    cases last with
    | none => rfl
    | some last =>
      simp only [except_ok_bind, closeRoute]
      cases v.arrive? m last with
      | error fault => rfl
      | ok home => cases home <;> rfl

theorem walk_of_not_isFinite {v : Vehicle α} {m : Matrix α} {jobs : List (Job α)} {here : Place α} {startTime : α}
    (h : Quantity.isFinite here.time = false) : walk v m jobs here startTime = .ok (.cutOff [] startTime) := by
  rw [walk, if_neg (by simp [h])]

theorem closeRoute_append (v : Vehicle α) (m : Matrix α) (startTime : α) (stops later : List (ScheduledStop α))
    (last : Option (Place α)) :
    closeRoute v m startTime (stops ++ later) last
      = (closeRoute v m startTime later last).map (Schedule.after stops) := by
  cases last with
  | none => rfl
  | some last =>
    simp only [closeRoute]
    cases v.arrive? m last with
    | error fault => rfl
    | ok home => cases home <;> rfl

/-- A walk in two parts. -/
theorem walk_append {v : Vehicle α} {m : Matrix α} {xs : List (Job α)} {here there : Place α}
    {stops : List (ScheduledStop α)} (driven : drive m here xs = .ok (stops, some there))
    (setsOut : Quantity.isFinite here.time = true) (goesOn : Quantity.isFinite there.time = true)
    (ys : List (Job α)) (startTime : α) :
    walk v m (xs ++ ys) here startTime = (walk v m ys there startTime).map (Schedule.after stops) := by
  rw [walk_of_isFinite setsOut, walk_of_isFinite goesOn, drive_append driven]
  cases drive m there ys with
  | error fault => rfl
  | ok r => exact closeRoute_append v m startTime stops r.1 r.2

theorem closeRoute_eq_error {v : Vehicle α} {m : Matrix α} {startTime : α} {stops : List (ScheduledStop α)}
    {last : Option (Place α)} {fault : Fault} (h : closeRoute v m startTime stops last = .error fault) :
    fault = .outsideMatrix := by
  cases last with
  | none => exact absurd h (by simp [closeRoute])
  | some last =>
    rw [closeRoute, except_map_eq_error, Vehicle.arrive?] at h
    split at h
    · exact absurd h (by simp)
    · rcases except_bind_eq_error.mp h with h | ⟨found, -, h⟩
      · exact leg?_eq_error h
      · cases found <;> exact absurd h (by simp)

/-- A walk fails only if it leads out of the matrix. -/
theorem walk_eq_error {v : Vehicle α} {m : Matrix α} {jobs : List (Job α)} {here : Place α} {startTime : α}
    {fault : Fault} (h : walk v m jobs here startTime = .error fault) : fault = .outsideMatrix := by
  cases setsOut : Quantity.isFinite here.time with
  | false => exact absurd h (by simp [walk_of_not_isFinite setsOut])
  | true =>
    rw [walk_of_isFinite setsOut] at h
    rcases except_bind_eq_error.mp h with h | ⟨r, -, h⟩
    · exact drive_eq_error h
    · exact closeRoute_eq_error h

/-- A walk whose schedule is reachable gets through all jobs and arrives. -/
theorem walk_eq_reachable {v : Vehicle α} {m : Matrix α} {jobs : List (Job α)} {here : Place α} {startTime : α}
    {s : Schedule α} (h : walk v m jobs here startTime = .ok s) (reachable : s.reachable = true) :
    Quantity.isFinite here.time = true ∧ ∃ home, drive m here jobs = .ok (s.stops, some (placeAfter here s.stops))
      ∧ v.arrive? m (placeAfter here s.stops) = .ok (some home)
      ∧ s = ⟨s.stops, startTime, home.time, home.distance, true⟩ := by
  -- a walk that does not set out, or is cut off on a leg, is not reachable
  cases setsOut : Quantity.isFinite here.time with
  | false =>
    rw [walk_of_not_isFinite setsOut, Except.ok.injEq] at h
    subst h
    exact absurd reachable (by simp [Schedule.cutOff])
  | true =>
    rw [walk_of_isFinite setsOut] at h
    obtain ⟨⟨stops, last⟩, driven, closed⟩ := except_bind_eq_ok.mp h
    cases last with
    | none =>
      rw [closeRoute, Except.ok.injEq] at closed
      subst closed
      exact absurd reachable (by simp [Schedule.cutOff])
    | some last =>
      obtain ⟨arrival, arrived, rfl⟩ := except_map_eq_ok.mp closed
      cases arrival with
      | none => exact absurd reachable (by simp [Schedule.cutOff])
      | some home =>
        obtain ⟨-, rfl⟩ := drive_eq_some driven
        exact ⟨rfl, home, driven, arrived, rfl⟩

/-- A walk whose schedule is not reachable has neither an end nor a length. -/
theorem walk_eq_unreachable {v : Vehicle α} {m : Matrix α} {jobs : List (Job α)} {here : Place α} {startTime : α}
    {s : Schedule α} (h : walk v m jobs here startTime = .ok s) (unreachable : s.reachable = false) :
    s = .cutOff s.stops startTime := by
  cases setsOut : Quantity.isFinite here.time with
  | false =>
    rw [walk_of_not_isFinite setsOut, Except.ok.injEq] at h
    subst h
    rfl
  | true =>
    rw [walk_of_isFinite setsOut] at h
    obtain ⟨⟨stops, last⟩, -, closed⟩ := except_bind_eq_ok.mp h
    cases last with
    | none =>
      rw [closeRoute, Except.ok.injEq] at closed
      subst closed
      rfl
    | some last =>
      obtain ⟨arrival, -, rfl⟩ := except_map_eq_ok.mp closed
      cases arrival with
      | none => rfl
      | some home => exact absurd unreachable (by simp)

section

variable {v : Vehicle α} {m : Matrix α} {jobs : List (Job α)} {here : Place α} {startTime : α} {s : Schedule α}
  (walked : walk v m jobs here startTime = .ok s) (reachable : s.reachable = true)

include walked reachable

theorem startTime_of_walk : s.startTime = startTime := by
  obtain ⟨-, home, -, -, same⟩ := walk_eq_reachable walked reachable
  rw [same]

/-- A walk that gets through serves every job. -/
theorem jobs_of_walk : s.stops.map (·.job) = jobs := by
  obtain ⟨-, home, driven, -⟩ := walk_eq_reachable walked reachable
  exact (drive_eq_some driven).1

end

/-! ## Inserting into a route -/

namespace RouteState

theorem build_eq_ok {v : Vehicle α} {m : Matrix α} {jobs : List (Job α)} {startTime : Option α} {s : RouteState α}
    (h : build v m jobs startTime = .ok s) :
    s.vehicle = v ∧ s.matrix = m ∧ s.jobs = jobs ∧ v.origin m startTime = .ok s.origin := by
  obtain ⟨start, begun, h⟩ := except_bind_eq_ok.mp h
  unfold ofOrigin at h
  split at h
  · cases h
    exact ⟨rfl, rfl, rfl, begun⟩
  · exact absurd h (by simp)

/-- A route can be built if it can be walked. -/
theorem build_eq_of_walk {v : Vehicle α} {m : Matrix α} {jobs : List (Job α)} {startTime : Option α}
    {start : Place α} {base : Schedule α} (begun : v.origin m startTime = .ok start)
    (walked : walk v m jobs start start.time = .ok base) :
    build v m jobs startTime = .ok ⟨v, m, jobs, start, base, walked⟩ := by
  rw [build, begun, except_ok_bind]
  unfold ofOrigin
  split
  · rename_i base' h
    have same : base' = base := Except.ok.inj (h.symm.trans walked)
    subst same
    rfl
  · rename_i fault h
    exact absurd (h.symm.trans walked) (by simp)

/-- The schedule of a route through jobs from a given place. -/
theorem ofOrigin_map_base (v : Vehicle α) (m : Matrix α) (jobs : List (Job α)) (start : Place α) :
    (ofOrigin v m jobs start).map base = walk v m jobs start start.time := by
  unfold ofOrigin
  split
  · rename_i base h
    exact h.symm
  · rename_i fault h
    exact h.symm

/-- The schedule of a route of the same vehicle through other jobs. -/
theorem build_map_base {v : Vehicle α} {m : Matrix α} {jobs : List (Job α)} {startTime : Option α}
    {s : RouteState α} (h : build v m jobs startTime = .ok s) (others : List (Job α)) :
    (build v m others startTime).map base = walk s.vehicle s.matrix others s.origin s.origin.time := by
  obtain ⟨rfl, rfl, -, begun⟩ := build_eq_ok h
  rw [build, begun, except_ok_bind, ofOrigin_map_base]

/-- The times of a route can be taken over up to a position: it is not reachable anyway, or the position is the first
one, or the vehicle leaves the stop before it at some finite time. -/
def Resumes (s : RouteState α) (k : Nat) : Prop :=
  s.base.reachable = false ∨ k = 0
    ∨ ∃ stop, s.base.stops[k - 1]? = some stop ∧ Quantity.isFinite stop.departure = true

theorem placeBefore_eq (s : RouteState α) (k : Nat) : s.placeBefore k = placeAfter s.origin (s.base.stops.take k) := by
  rw [placeAfter_eq_getLast?, placeBefore]
  cases (s.base.stops.take k).getLast? <;> rfl

/-- The vehicle leaves for a position at some finite time just when the times of the route can be taken over. -/
theorem isFinite_placeBefore {s : RouteState α} {k : Nat} (reachable : s.base.reachable = true)
    (inside : k ≤ s.jobs.length) : Quantity.isFinite (s.placeBefore k).time = true ↔ s.Resumes k := by
  obtain ⟨setsOut, home, driven, -⟩ := walk_eq_reachable s.walk_eq reachable
  -- the place before the first position is the origin, and before any other one that of a stop
  cases k with
  | zero => simp [Resumes, placeBefore, setsOut]
  | succ k =>
    have inside' : k < s.base.stops.length := by rw [length_of_drive driven]; omega
    have last : (s.base.stops.take (k + 1)).getLast? = some s.base.stops[k] := by
      simp [List.getLast?_take, List.getElem?_eq_getElem inside']
    simp [Resumes, reachable, placeBefore, last, ScheduledStop.place, inside']

/-- Where the times of a route can be taken over, inserting a job gives the schedule of the longer route. -/
theorem insertionAt_of_resumes {s : RouteState α} {k : Nat} (inside : k ≤ s.jobs.length) (h : s.Resumes k)
    (job : Job α) :
    s.insertionAt job k
      = walk s.vehicle s.matrix (s.jobs.take k ++ job :: s.jobs.drop k) s.origin s.origin.time := by
  unfold insertionAt
  cases reachable : s.base.reachable with
  | false => rfl
  | true =>
    obtain ⟨setsOut, home, driven, -⟩ := walk_eq_reachable s.walk_eq reachable
    have goesOn := (isFinite_placeBefore reachable inside).mpr h
    rw [placeBefore_eq] at goesOn
    rw [if_pos rfl, placeBefore_eq, walk_append (drive_take driven k) setsOut goesOn]

/-- Where they cannot be taken over, the schedule ends with the stops before the job. -/
theorem insertionAt_of_not_resumes {s : RouteState α} {k : Nat} (inside : k ≤ s.jobs.length) (h : ¬s.Resumes k)
    (job : Job α) : s.insertionAt job k = .ok (.cutOff (s.base.stops.take k) s.origin.time) := by
  have reachable : s.base.reachable = true := by
    cases r : s.base.reachable with
    | false => exact absurd (Or.inl r) h
    | true => rfl
  have stopped : Quantity.isFinite (s.placeBefore k).time = false := by
    rw [← isFinite_placeBefore reachable inside] at h
    simpa using h
  rw [insertionAt, if_pos reachable, walk_of_not_isFinite stopped]
  simp [Schedule.after, Schedule.cutOff]

theorem insertion_natCast {s : RouteState α} {k : Nat} (inside : k ≤ s.jobs.length) (job : Job α) :
    s.insertion job k = s.insertionAt job k := by
  rw [insertion, if_pos (by simpa [size] using inside), Int.toNat_natCast]

theorem insertion_outside {s : RouteState α} {position : Int} (h : position < 0 ∨ (s.jobs.length : Int) < position)
    (job : Job α) : s.insertion job position = .error (.outsideRoute (toString position) s.jobs.length) := by
  rw [insertion, if_neg (by rw [size]; omega)]
  rfl

/-- Inserting a job into a route as it is gives the schedule of the longer route built anew, and fails when that does,
which is only when it leads out of the matrix. The exception is a route that gets through although the vehicle leaves
the stop before the position at no finite time: then the schedule ends there. No job can be inserted at a position
outside the route. -/
theorem insertion_eq_rebuilt {v : Vehicle α} {m : Matrix α} {jobs : List (Job α)} {startTime : Option α}
    {s : RouteState α} (built : build v m jobs startTime = .ok s) (job : Job α) :
    (∀ k : Nat, k ≤ jobs.length → s.Resumes k →
        s.insertion job k = (build v m (jobs.take k ++ job :: jobs.drop k) startTime).map base
        ∧ ∀ fault, s.insertion job k = .error fault → fault = .outsideMatrix)
      ∧ (∀ k : Nat, k ≤ jobs.length → ¬s.Resumes k →
        s.base.reachable = true ∧ s.insertion job k = .ok (.cutOff (s.base.stops.take k) s.origin.time))
      ∧ ∀ position : Int, position < 0 ∨ (jobs.length : Int) < position →
        s.insertion job position = .error (.outsideRoute (toString position) jobs.length) := by
  obtain ⟨-, -, rfl, -⟩ := build_eq_ok built
  refine ⟨fun k inside h => ?_, fun k inside h => ?_, fun position outside => insertion_outside outside job⟩
  · have same := insertionAt_of_resumes inside h job
    rw [insertion_natCast inside, build_map_base built, same]
    exact ⟨rfl, fun fault failed => walk_eq_error failed⟩
  · refine ⟨?_, ?_⟩
    · cases r : s.base.reachable with
      | false => exact absurd (Or.inl r) h
      | true => rfl
    · rw [insertion_natCast inside]
      exact insertionAt_of_not_resumes inside h job

/-! ### A shuttle

A vehicle between two places, a few minutes apart. -/

/-- A vehicle that is on duty for ten hours and returns to where it starts. -/
def shuttle : Vehicle Exact where
  id := "shuttle"
  profile := "car"
  skills := []
  capacity := [.finite 3]
  shift := ⟨.finite 0, .finite 600⟩
  startLocation := 0
  endLocation := some 0
  maxDistance := some (.finite 90)
  maxDuration := some (.finite 480)
  maxTourSize := some 4
  dispatch := none
  breaks := [⟨⟨.finite 10, .finite 100⟩, .finite 30⟩]
  allowedAreas := []

/-- Two places, seven minutes and nine meters apart in either direction. -/
def twoPlaces : Matrix Exact where
  durations := [[some (.finite 0), some (.finite 7)], [some (.finite 7), some (.finite 0)]]
  distances := [[some (.finite 0), some (.finite 9)], [some (.finite 9), some (.finite 0)]]

/-- A delivery to the far place. -/
def parcel (name : String) : Job Exact where
  id := name
  location := 1
  coordinates := none
  duration := .finite 5
  skills := []
  demand := [.finite 1]
  kind := .delivery
  windows := [⟨.finite 0, .finite 300⟩]
  order := none
  areaIds := []
  breakEligible := true

/-- The shuttle with one parcel. -/
def shuttleRoute : RouteState Exact where
  vehicle := shuttle
  matrix := twoPlaces
  jobs := [parcel "a"]
  origin := ⟨0, 0, 0⟩
  base := ⟨[⟨parcel "a", .finite 7, .finite 7, .finite 12, 0, .finite 9⟩], 0, .finite 19, .finite 18, true⟩
  walk_eq := by decide +kernel

theorem build_shuttleRoute : build shuttle twoPlaces [parcel "a"] none = .ok shuttleRoute :=
  build_eq_of_walk rfl shuttleRoute.walk_eq

theorem insertion_eq_rebuilt_shuttle :
    shuttleRoute.Resumes 1 ∧ shuttleRoute.insertion (parcel "b") (1 : Nat)
      = (build shuttle twoPlaces [parcel "a", parcel "b"] none).map base := by
  have resumes : shuttleRoute.Resumes 1 := Or.inr (Or.inr ⟨_, rfl, rfl⟩)
  exact ⟨resumes, ((insertion_eq_rebuilt build_shuttleRoute (parcel "b")).1 1 (by decide) resumes).1⟩

end RouteState

end Leftover
