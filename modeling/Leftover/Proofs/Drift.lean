/-
# Drift

When an evaluator is built, the figures that the stops of a route report are held against those that are worked out for
them: stop by stop, the arrival, the departure and the meters with a tolerance of one, then the load after the stop with
a tolerance of a millionth in each dimension. A route without a path is only said to be broken.

* `NotesFigure`, `NotesLoad` : what is noted on one figure, and on a load
* `RouteState.NotesStop`, `RouteState.Notes` : what is noted on a stop, and on a route
* `prepare_warnings` : the warnings about the routes of a fleet
* `RouteState.IsToldBy` : stops that report nothing but what is worked out for them
* `Solution.bare`, `Evaluator.told` : a solution without figures, and with those that are worked out
* `Evaluator.build_warnings` : the warnings on building an evaluator
-/
import Leftover.Proofs.Buildable
import Leftover.Proofs.DoubleSums
import Leftover.Proofs.ExceededLimits
import Leftover.Proofs.LoadPeaks
import Leftover.Proofs.RouteShapes

namespace Leftover

variable {α : Type} [Quantity α]

/-! ## One figure -/

section

variable (vehicleId jobId : Text) (figure : Figure) (reported : Option α) (workedOut : α)

/-- What is noted on a figure of a stop: a warning with the reported and the worked out value just when one is reported
and they are more than one apart. -/
def NotesFigure (noted : Option (Warning α)) : Prop :=
  ∀ w, noted = some w ↔ ∃ x, reported = some x ∧ Quantity.one < Quantity.size (x - workedOut)
    ∧ w = .figureDrift vehicleId jobId figure x workedOut

theorem exists_notesFigure : ∃ noted, driftOf vehicleId jobId figure reported workedOut = noted.toList
    ∧ NotesFigure vehicleId jobId figure reported workedOut noted := by
  cases reported with
  | none => exact ⟨none, rfl, fun w => by simp⟩
  | some x =>
    rw [driftOf]
    by_cases apart : Quantity.one < Quantity.size (x - workedOut)
    · exact ⟨some (.figureDrift vehicleId jobId figure x workedOut), if_pos apart, fun w => by simp [apart, eq_comm]⟩
    · exact ⟨none, if_neg apart, fun w => by simp [apart]⟩

end

/-! ## Loads -/

/-- How far loads may be apart in a dimension. -/
def millionth : α := Quantity.one / Quantity.ofInt 1000000

/-- Loads differ if they are apart in one of the dimensions that either of them has. -/
theorem loadsDiffer_padTo {dims : Nat} {xs ys : List α} (fits : xs.length ≤ dims) (fits' : ys.length ≤ dims) :
    loadsDiffer (Load.padTo dims xs) (Load.padTo dims ys) = true
      ↔ ∃ d < dims, millionth < Quantity.size (xs.getD d 0 - ys.getD d 0) := by
  rw [Load.padTo_eq_map fits, Load.padTo_eq_map fits', loadsDiffer, List.zipWith_map, List.zipWith_self, List.any_map,
    List.any_eq_true]
  simp only [List.mem_range, Function.comp, decide_eq_true_eq, millionth, List.getD_eq_getElem?_getD]

section

variable (vehicleId jobId : Text) (reported workedOut : List α)

/-- What is noted on the load after a stop: a warning just when a load is reported, and some dimension of the two is more
than a millionth apart, where each has zeros in the dimensions that only the other one has. -/
def NotesLoad (noted : Option (Warning α)) : Prop :=
  let dims := max reported.length workedOut.length
  ∀ w, noted = some w ↔ reported ≠ [] ∧ (∃ d < dims, millionth < Quantity.size (reported.getD d 0 - workedOut.getD d 0))
    ∧ w = .loadDrift vehicleId jobId (Load.padTo dims reported) (Load.padTo dims workedOut)

theorem exists_notesLoad : ∃ noted, loadDriftOf vehicleId jobId reported workedOut = noted.toList
    ∧ NotesLoad vehicleId jobId reported workedOut noted := by
  rw [loadDriftOf]
  cases reported with
  | nil => exact ⟨none, rfl, fun w => by simp⟩
  | cons x xs =>
    have differ := loadsDiffer_padTo (le_max_left (x :: xs).length workedOut.length) (le_max_right _ _)
    simp only [List.isEmpty_cons, Bool.false_eq_true, if_false]
    by_cases apart : loadsDiffer (Load.padTo (max (x :: xs).length workedOut.length) (x :: xs))
        (Load.padTo (max (x :: xs).length workedOut.length) workedOut) = true
    · refine ⟨some _, if_pos apart, fun w => ?_⟩
      rw [Option.some.injEq, eq_comm, ← differ]
      simp only [apart, ne_eq, List.cons_ne_nil, not_false_eq_true, true_and]
    · refine ⟨none, if_neg apart, fun w => ?_⟩
      rw [← differ]
      simp only [apart, false_and, and_false, reduceCtorEq, Bool.false_eq_true]

end

/-! ## One route -/

/-- The stops that are reported for a vehicle, none if it has no route. -/
def Solution.stopsOf (s : Solution α) (vehicleId : Text) : List (Stop α) :=
  ((s.routeFor? vehicleId).map (·.stops)).getD []

omit [Quantity α] in
theorem Solution.jobIdsOf_eq (s : Solution α) (vehicleId : Text) :
    s.jobIdsOf vehicleId = (s.stopsOf vehicleId).map (·.jobId) := by
  rw [jobIdsOf, stopsOf]
  cases s.routeFor? vehicleId with
  | none => rfl
  | some r => rfl

namespace RouteState

/-- The load after the stop at a place of a route: that at the start, with the jobs up to this one done. -/
def loadAfter (state : RouteState α) (k : Nat) : List α :=
  (state.jobs.take (k + 1)).foldl Load.after (Load.atStart state.dims state.jobs)

/-- What is noted on the stop at a place of a route: what is noted on its arrival, departure, meters and load, in this
order, each against the figure of the same stop as the route is worked out. -/
def NotesStop (state : RouteState α) (stop : Stop α) (k : Nat) (noted : List (Warning α)) : Prop :=
  ∃ scheduled, state.base.stops[k]? = some scheduled ∧ scheduled.job.id = stop.jobId
    ∧ state.loads[k + 1]? = some (state.loadAfter k) ∧ ∃ arrival departure distance load,
      NotesFigure state.vehicle.id stop.jobId .arrival stop.arrival scheduled.arrival arrival
      ∧ NotesFigure state.vehicle.id stop.jobId .departure stop.departure scheduled.departure departure
      ∧ NotesFigure state.vehicle.id stop.jobId .distance stop.distance scheduled.distance distance
      ∧ NotesLoad state.vehicle.id stop.jobId stop.load (state.loadAfter k) load
      ∧ noted = arrival.toList ++ departure.toList ++ distance.toList ++ load.toList

/-- What is noted on a route with some reported stops: that it is broken, or what is noted on its stops one after the
other. -/
inductive Notes (state : RouteState α) (stops : List (Stop α)) : List (Warning α) → Prop where
  | broken (unreachable : state.base.reachable = false) : state.Notes stops [.brokenRoute state.vehicle.id]
  | checked {lists : List (List (Warning α))} (reachable : state.base.reachable = true)
      (each : List.Forall₂ (fun entry noted => state.NotesStop entry.1 entry.2 noted) stops.zipIdx lists) :
      state.Notes stops lists.flatten

/-- The loads of a route stand one place behind its stops. -/
theorem getElem?_loads (state : RouteState α) {k : Nat} (inside : k < state.jobs.length) :
    state.loads[k + 1]? = some (state.loadAfter k) :=
  Load.getElem?_profileFrom _ inside

section

variable {state : RouteState α} {stops : List (Stop α)} (reachable : state.base.reachable = true)
  (served : state.jobs.map (·.id) = stops.map (·.jobId))

include reachable served

/-- On a route that gets through the reported stops stand beside the worked out ones. -/
theorem exists_scheduled {k : Nat} {stop : Stop α} (at_k : stops[k]? = some stop) :
    ∃ scheduled, state.base.stops[k]? = some scheduled ∧ scheduled.job.id = stop.jobId
      ∧ state.loads[k + 1]? = some (state.loadAfter k) := by
  have serves := jobs_of_walk state.walk_eq reachable
  have same_id : (state.base.stops[k]?).map (·.job.id) = some stop.jobId := by
    have there := congrArg (·[k]?) served
    simp only [← serves, List.map_map, List.getElem?_map, at_k, Option.map_some] at there
    exact there
  obtain ⟨scheduled, there, same_id⟩ := Option.map_eq_some_iff.mp same_id
  refine ⟨scheduled, there, same_id, state.getElem?_loads ?_⟩
  rw [← serves, List.length_map]
  exact (List.getElem?_eq_some_iff.mp there).1

/-- The stop at a place is gone through together with the figures for it. -/
theorem exists_notesStop_at {k : Nat} {stop : Stop α} (at_k : stops[k]? = some stop) :
    ∃ scheduled, (stops.zip (state.base.stops.zip (state.loads.drop 1)))[k]? = some (stop, scheduled, state.loadAfter k)
      ∧ state.NotesStop stop k (stopDrift state.vehicle.id stop scheduled (state.loadAfter k)) := by
  obtain ⟨scheduled, there, same_id, loaded⟩ := exists_scheduled reachable served at_k
  refine ⟨scheduled, ?_, scheduled, there, same_id, loaded, ?_⟩
  · rw [List.getElem?_zip_eq_some, List.getElem?_zip_eq_some, List.getElem?_drop, Nat.add_comm]
    exact ⟨at_k, there, loaded⟩
  · obtain ⟨arrival, arrival_eq, notes_arrival⟩ :=
      exists_notesFigure state.vehicle.id stop.jobId .arrival stop.arrival scheduled.arrival
    obtain ⟨departure, departure_eq, notes_departure⟩ :=
      exists_notesFigure state.vehicle.id stop.jobId .departure stop.departure scheduled.departure
    obtain ⟨distance, distance_eq, notes_distance⟩ :=
      exists_notesFigure state.vehicle.id stop.jobId .distance stop.distance scheduled.distance
    obtain ⟨load, load_eq, notes_load⟩ := exists_notesLoad state.vehicle.id stop.jobId stop.load (state.loadAfter k)
    refine ⟨arrival, departure, distance, load, notes_arrival, notes_departure, notes_distance, notes_load, ?_⟩
    rw [stopDrift, arrival_eq, departure_eq, distance_eq, load_eq]

/-- Going through the figures of a route notes on its stops, one after the other. -/
theorem exists_notesStop :
    ∃ lists, List.Forall₂ (fun entry noted => state.NotesStop entry.1 entry.2 noted) stops.zipIdx lists
      ∧ routeDrift state stops = lists.flatten := by
  have stops_length : state.base.stops.length = state.jobs.length := by
    simpa using congrArg List.length (jobs_of_walk state.walk_eq reachable)
  have jobs_length : state.jobs.length = stops.length := by simpa using congrArg List.length served
  -- the three lists have a row for every stop, so going through them together leaves none out
  refine ⟨_, ?_, List.flatMap_def⟩
  rw [List.forall₂_map_right_iff, List.forall₂_iff_get]
  refine ⟨by simp [stops_length, state.length_loads, jobs_length], fun k inside inside' => ?_⟩
  rw [List.length_zipIdx] at inside
  obtain ⟨scheduled, row, notes⟩ := exists_notesStop_at reachable served (List.getElem?_eq_getElem inside)
  obtain ⟨_, row⟩ := List.getElem?_eq_some_iff.mp row
  simp only [List.get_eq_getElem, List.getElem_zipIdx, zero_add, row]
  exact notes

end

end RouteState

/-! ## The routes of a fleet -/

section

variable {p : Problem α} {s : Solution α}

/-- The warnings about the route of a vehicle are what is noted on it. -/
theorem notes_routeWarnings {v : Vehicle α} {state : RouteState α} (route : routeOf p s v = .ok state) :
    state.Notes (s.stopsOf state.vehicle.id) (routeWarnings s state) := by
  obtain ⟨rfl, served⟩ := of_routeOf_eq_ok route
  rw [routeWarnings]
  split
  · rename_i reachable
    obtain ⟨lists, each, drift⟩ := RouteState.exists_notesStop reachable (served.trans (s.jobIdsOf_eq _))
    show state.Notes _ (routeDrift state (s.stopsOf state.vehicle.id))
    rw [drift]
    exact .checked reachable each
  · rename_i broken
    exact .broken (Bool.eq_false_iff.mpr broken)

/-- The warnings about the routes of a fleet come one route after the other. -/
theorem prepare_warnings {fleet : List (Vehicle α)} {states : List (RouteState α)}
    (prepared : (prepare p s fleet).outcome = .ok states) :
    (prepare p s fleet).warnings = (states.map (routeWarnings s)).flatten := by
  induction fleet generalizing states with
  | nil =>
    obtain rfl := Except.ok.inj prepared
    rfl
  | cons v rest ih =>
    obtain ⟨state, later, route, others, rfl⟩ := List.forall₂_cons_left_iff.mp (prepare_eq_ok.mp prepared)
    have prepared_rest := prepare_eq_ok.mpr others
    have route : (Observed.ofExcept (routeOf p s v) : Observed α _).outcome = .ok state := route
    rw [prepare, Observed.warnings_bind route, Observed.warnings_bind (Observed.outcome_warn _),
      Observed.warnings_bind prepared_rest, ih prepared_rest]
    simp

end

namespace Evaluator

variable {p : Problem α} {s : Solution α} {catalog : Catalog} {settings : DiagnosisSettings α} {e : Evaluator α}
  (built : (build p s catalog settings).outcome = .ok e)

include built

/-- Building an evaluator warns of nothing but its routes. -/
theorem build_warnings_eq : (build p s catalog settings).warnings = (e.states.map (routeWarnings s)).flatten := by
  obtain ⟨valid, states, prepared, rfl⟩ := build_eq_ok.mp built
  have valid : (Observed.ofExcept (checkRoutes p [] s.routes) : Observed α _).outcome = .ok () := valid
  rw [build, Observed.warnings_bind valid, Observed.warnings_bind prepared, prepare_warnings prepared]
  simp

/-- On building an evaluator each of its routes is noted on, in the order of the fleet. -/
theorem exists_notes : ∃ lists,
    List.Forall₂ (fun state noted => state.Notes (s.stopsOf state.vehicle.id) noted) e.states lists
      ∧ (build p s catalog settings).warnings = lists.flatten := by
  refine ⟨_, ?_, build_warnings_eq built⟩
  obtain ⟨-, states, prepared, rfl⟩ := build_eq_ok.mp built
  rw [List.forall₂_map_right_iff, List.forall₂_same]
  intro state held
  rw [prepare_outcome] at prepared
  obtain ⟨v, -, route⟩ := mem_of_mapM_eq_ok prepared held
  exact notes_routeWarnings route

end Evaluator

/-! ## Figures as they are worked out -/

/-- A scale on which a value is not away from itself, and on which the tolerances are not below zero. -/
class Gauge (α : Type) [Quantity α] : Prop extends Scale α where
  sub_self (x : α) : x - x = 0 ∨ Quantity.isUndefined (x - x) = true
  one_nonneg : (0 : α) ≤ Quantity.one
  millionth_nonneg : (0 : α) ≤ millionth

instance : Gauge Exact where
  sub_self x := by
    cases x with
    | undefined | minusInfinity | plusInfinity => exact Or.inr rfl
    | finite a =>
      left
      show Exact.finite (a + -a) = .finite 0
      rw [Rat.add_neg_cancel]
  one_nonneg := by decide
  millionth_nonneg := by decide +kernel

instance : Gauge Float where
  sub_self := float_sub_self
  one_nonneg := by decide
  millionth_nonneg := by decide +kernel

/-- A stop reports no figure but the one that is worked out. -/
structure Stop.TellsOnly (stop : Stop α) (scheduled : ScheduledStop α) (load : List α) : Prop where
  arrival : ∀ x, stop.arrival = some x → x = scheduled.arrival
  departure : ∀ x, stop.departure = some x → x = scheduled.departure
  distance : ∀ x, stop.distance = some x → x = scheduled.distance
  load : stop.load ≠ [] → stop.load = load

/-- The stops of a route report no figures but those that are worked out for them. -/
def RouteState.IsToldBy (state : RouteState α) (stops : List (Stop α)) : Prop :=
  ∀ (k : Nat) (stop : Stop α) (scheduled : ScheduledStop α), stops[k]? = some stop →
    state.base.stops[k]? = some scheduled → stop.TellsOnly scheduled (state.loadAfter k)

/-- The warnings about those routes of an evaluator that are broken. -/
def Evaluator.brokenRoutes (e : Evaluator α) : List (Warning α) :=
  (e.states.filter fun state => !state.base.reachable).map fun state => .brokenRoute state.vehicle.id

section

variable [Gauge α]

theorem not_lt_size_sub_self {tolerance : α} (nonneg : 0 ≤ tolerance) (x : α) : ¬tolerance < Quantity.size (x - x) := by
  rcases Gauge.sub_self x with zero | undefined
  · rw [zero, Quantity.size, if_neg fun lt => OrderedQuantity.lt_asymm lt lt]
    exact fun lt => OrderedQuantity.not_le_of_lt lt nonneg
  · rw [Quantity.size, if_neg fun lt => absurd (OrderedQuantity.isDefined_of_lt lt).1 (by simp [undefined])]
    exact fun lt => absurd (OrderedQuantity.isDefined_of_lt lt).2 (by simp [undefined])

theorem NotesFigure.eq_none {vehicleId jobId : Text} {figure : Figure} {reported : Option α} {workedOut : α}
    {noted : Option (Warning α)} (notes : NotesFigure vehicleId jobId figure reported workedOut noted)
    (right : ∀ x, reported = some x → x = workedOut) : noted = none := by
  cases noted with
  | none => rfl
  | some w =>
    obtain ⟨x, told, apart, -⟩ := (notes w).mp rfl
    rw [right x told] at apart
    exact absurd apart (not_lt_size_sub_self Gauge.one_nonneg _)

theorem NotesLoad.eq_none {vehicleId jobId : Text} {reported workedOut : List α} {noted : Option (Warning α)}
    (notes : NotesLoad vehicleId jobId reported workedOut noted) (right : reported ≠ [] → reported = workedOut) :
    noted = none := by
  cases noted with
  | none => rfl
  | some w =>
    obtain ⟨told, ⟨d, -, apart⟩, -⟩ := (notes w).mp rfl
    rw [right told] at apart
    exact absurd apart (not_lt_size_sub_self Gauge.millionth_nonneg _)

/-- Nothing is noted on a route that is not broken and whose stops report no other figures. -/
theorem RouteState.Notes.eq_nil {state : RouteState α} {stops : List (Stop α)} {noted : List (Warning α)}
    (notes : state.Notes stops noted) (reachable : state.base.reachable = true) (told : state.IsToldBy stops) :
    noted = [] := by
  cases notes with
  | broken unreachable => exact absurd reachable (by simp [unreachable])
  | @checked lists _ each =>
    rw [List.flatten_eq_nil_iff]
    intro noted listed
    obtain ⟨⟨stop, k⟩, at_k, scheduled, there, -, -, arrival, departure, distance, load, notes_arrival, notes_departure,
      notes_distance, notes_load, rfl⟩ := exists_of_forall₂ each.flip listed
    have right := told k stop scheduled (List.mem_zipIdx_iff_getElem?.mp at_k) there
    rw [notes_arrival.eq_none right.arrival, notes_departure.eq_none right.departure, notes_distance.eq_none right.distance,
      notes_load.eq_none right.load]
    rfl

/-- Where routes report no figures but those that are worked out, the broken ones are all that is noted. -/
theorem flatten_eq_brokenRoutes {stops : RouteState α → List (Stop α)} {states : List (RouteState α)}
    {lists : List (List (Warning α))}
    (notes : List.Forall₂ (fun state noted => state.Notes (stops state) noted) states lists)
    (told : ∀ state ∈ states, state.base.reachable = true → state.IsToldBy (stops state)) :
    lists.flatten = (states.filter fun state => !state.base.reachable).map fun state => .brokenRoute state.vehicle.id := by
  induction notes with
  | nil => rfl
  | @cons state noted _ _ first _ ih =>
    rw [List.forall_mem_cons] at told
    rw [List.flatten_cons, ih told.2]
    cases reachable : state.base.reachable with
    | true => simp [first.eq_nil reachable (told.1 reachable), reachable]
    | false =>
      cases first with
      | broken => simp [reachable]
      | checked reachable' => exact absurd reachable' (by simp [reachable])

end

/-! ## Figures told anew -/

/-- A solution in which the stops of each vehicle are told anew. -/
def Solution.retell (s : Solution α) (tell : Text → List (Stop α) → List (Stop α)) : Solution α :=
  { s with routes := s.routes.map fun r => { r with stops := tell r.vehicleId r.stops } }

section

variable {p : Problem α} {s : Solution α} {tell : Text → List (Stop α) → List (Stop α)}

omit [Quantity α] in
theorem Solution.routeFor?_retell (vehicleId : Text) :
    (s.retell tell).routeFor? vehicleId
      = (s.routeFor? vehicleId).map fun r => { r with stops := tell vehicleId r.stops } := by
  rw [routeFor?, retell, List.find?_map]
  show (s.routeFor? vehicleId).map _ = _
  refine Option.map_congr fun r found => ?_
  have own : r.vehicleId = vehicleId := by simpa using List.find?_some found
  rw [own]

omit [Quantity α] in
theorem Solution.sameShape_retell (kept : ∀ vehicleId stops, (tell vehicleId stops).map (·.jobId) = stops.map (·.jobId))
    (vehicleId : Text) : s.SameShape (s.retell tell) vehicleId := by
  constructor
  · rw [startTimeOf?, startTimeOf?, routeFor?_retell]
    cases s.routeFor? vehicleId <;> rfl
  · rw [jobIdsOf, jobIdsOf, routeFor?_retell]
    cases s.routeFor? vehicleId with
    | none => rfl
    | some r => exact (kept vehicleId r.stops).symm

omit [Quantity α] in
theorem Solution.stopsOf_retell (empty : ∀ vehicleId, tell vehicleId [] = []) (vehicleId : Text) :
    (s.retell tell).stopsOf vehicleId = tell vehicleId (s.stopsOf vehicleId) := by
  rw [stopsOf, stopsOf, routeFor?_retell]
  cases s.routeFor? vehicleId with
  | none => exact (empty vehicleId).symm
  | some r => rfl

/-- Telling figures anew does not change what an evaluator holds. -/
theorem Evaluator.build_retell {catalog : Catalog} {settings : DiagnosisSettings α} {e : Evaluator α}
    (built : (build p s catalog settings).outcome = .ok e)
    (kept : ∀ vehicleId stops, (tell vehicleId stops).map (·.jobId) = stops.map (·.jobId)) :
    (build p (s.retell tell) catalog settings).outcome = .ok (e.onSolution (s.retell tell)) := by
  obtain ⟨valid, states, prepared, rfl⟩ := build_eq_ok.mp built
  refine build_eq_ok.mpr ⟨?_, states, ?_, rfl⟩
  · rw [checkRoutes_eq_ok] at valid ⊢
    simp only [Solution.retell, List.map_map, List.forall_mem_map, Function.comp_def]
    exact valid
  · rw [prepare_eq_ok] at prepared ⊢
    refine prepared.imp fun v state route => ?_
    rwa [← routeOf_congr (Solution.sameShape_retell kept v.id)]

end

/-- A solution whose stops report nothing. -/
def Solution.bare (s : Solution α) : Solution α := s.retell fun _ stops => stops.map fun stop => .bare stop.jobId

/-- The stops of a route with the figures that are worked out for them, as far as the route leads. -/
def RouteState.tell (state : RouteState α) (stops : List (Stop α)) : List (Stop α) :=
  stops.zipIdx.map fun (stop, k) =>
    match state.base.stops[k]? with
    | some scheduled =>
      { jobId := stop.jobId
        arrival := some scheduled.arrival
        departure := some scheduled.departure
        load := state.loadAfter k
        distance := some scheduled.distance }
    | none => stop

/-- The stops of a vehicle with the figures that an evaluator works out for them. -/
def Evaluator.tell (e : Evaluator α) (vehicleId : Text) (stops : List (Stop α)) : List (Stop α) :=
  match e.states.find? (·.vehicle.id = vehicleId) with
  | some state => state.tell stops
  | none => stops

/-- The solution of an evaluator with the figures that are worked out for the routes of its vehicles. -/
def Evaluator.told (e : Evaluator α) : Solution α := e.solution.retell e.tell

omit [Quantity α] in
theorem Stop.jobIds_bare (stops : List (Stop α)) :
    (stops.map fun stop => (.bare stop.jobId : Stop α)).map (·.jobId) = stops.map (·.jobId) := by
  rw [List.map_map]
  rfl

namespace RouteState

variable {state : RouteState α} {stops : List (Stop α)}

theorem jobIds_tell : (state.tell stops).map (·.jobId) = stops.map (·.jobId) := by
  rw [tell, List.map_map]
  conv_rhs => rw [← List.zipIdx_map_fst 0 stops, List.map_map]
  refine List.map_congr_left fun entry _ => ?_
  simp only [Function.comp]
  split <;> rfl

theorem isToldBy_bare : state.IsToldBy (stops.map fun stop => .bare stop.jobId) := by
  intro k stop scheduled at_k _
  rw [List.getElem?_map, Option.map_eq_some_iff] at at_k
  obtain ⟨stop, -, rfl⟩ := at_k
  exact ⟨by simp [Stop.bare], by simp [Stop.bare], by simp [Stop.bare], fun told => absurd rfl told⟩

theorem isToldBy_tell : state.IsToldBy (state.tell stops) := by
  intro k stop scheduled at_k there
  rw [tell, List.getElem?_map, Option.map_eq_some_iff] at at_k
  obtain ⟨⟨stop, k⟩, listed, rfl⟩ := at_k
  rw [List.getElem?_zipIdx, Option.map_eq_some_iff] at listed
  obtain ⟨stop, -, same⟩ := listed
  obtain ⟨rfl, rfl⟩ := Prod.mk.inj same
  -- the stop is told by the figures that it is held against
  simp only [zero_add, there]
  exact ⟨fun x told => (Option.some.inj told).symm, fun x told => (Option.some.inj told).symm,
    fun x told => (Option.some.inj told).symm, fun _ => rfl⟩

end RouteState

namespace Evaluator

variable {p : Problem α} {s : Solution α} {catalog : Catalog} {settings : DiagnosisSettings α} {e : Evaluator α}

theorem jobIds_tell (vehicleId : Text) (stops : List (Stop α)) :
    (e.tell vehicleId stops).map (·.jobId) = stops.map (·.jobId) := by
  rw [tell]
  split
  · exact RouteState.jobIds_tell
  · rfl

/-- Among vehicles with distinct ids each is told by its own route. -/
theorem tell_eq (distinct : (e.states.map (·.vehicle.id)).Nodup) {state : RouteState α} (held : state ∈ e.states)
    (stops : List (Stop α)) : e.tell state.vehicle.id stops = state.tell stops := by
  rw [tell, find?_key_eq_some distinct held]

section

variable [Gauge α] (built : (build p s catalog settings).outcome = .ok e)

include built

/-- Where the reachable routes report no figures but those that are worked out, only the broken ones are warned of. -/
theorem warnings_of_isToldBy
    (told : ∀ state ∈ e.states, state.base.reachable = true → state.IsToldBy (s.stopsOf state.vehicle.id)) :
    (build p s catalog settings).warnings = e.brokenRoutes := by
  obtain ⟨lists, notes, warnings_eq⟩ := exists_notes built
  rw [warnings_eq]
  exact flatten_eq_brokenRoutes notes told

/-- Stops may be told anew by what is worked out, or by nothing at all. -/
theorem build_retell_of_isToldBy {tell : Text → List (Stop α) → List (Stop α)}
    (kept : ∀ vehicleId stops, (tell vehicleId stops).map (·.jobId) = stops.map (·.jobId))
    (told : ∀ state ∈ e.states, ∀ stops, state.IsToldBy (tell state.vehicle.id stops)) :
    build p (s.retell tell) catalog settings = ⟨e.brokenRoutes, .ok (e.onSolution (s.retell tell))⟩ := by
  have rebuilt := build_retell built kept
  have empty (vehicleId : Text) : tell vehicleId [] = [] := by simpa using kept vehicleId []
  have warned : (build p (s.retell tell) catalog settings).warnings = (e.onSolution (s.retell tell)).brokenRoutes := by
    refine warnings_of_isToldBy rebuilt fun state held _ => ?_
    rw [Solution.stopsOf_retell empty]
    exact told state held _
  rw [← rebuilt]
  show _ = Observed.mk (e.onSolution (s.retell tell)).brokenRoutes _
  rw [← warned]

/-- When an evaluator is built its warnings are those about the routes of the vehicles of the fleet, one after the other:
that the route is broken, or, stop by stop, one for each of arrival, departure and meters that is reported and more than one
away from the figure of the same stop as the route is worked out, and one for a load that is reported and more than a
millionth away, in some dimension, from the load after that stop. If nothing is reported on the reachable routes but what is
worked out, only the broken routes are warned of. That is so for the solution without figures, and for the solution with the
figures that are worked out if the ids of the vehicles are distinct; the evaluators that are built on these hold the same
routes. -/
theorem build_warnings :
    (e.states.map (·.vehicle) = p.fleet
        ∧ ∃ lists, List.Forall₂ (fun state noted => state.Notes (s.stopsOf state.vehicle.id) noted) e.states lists
          ∧ (build p s catalog settings).warnings = lists.flatten)
      ∧ ((∀ state ∈ e.states, state.base.reachable = true → state.IsToldBy (s.stopsOf state.vehicle.id)) →
        (build p s catalog settings).warnings = e.brokenRoutes)
      ∧ build p s.bare catalog settings = ⟨e.brokenRoutes, .ok (e.onSolution s.bare)⟩
      ∧ (p.fleetIds.Nodup → build p e.told catalog settings = ⟨e.brokenRoutes, .ok (e.onSolution e.told)⟩) := by
  have fleet : e.states.map (·.vehicle) = p.fleet := by
    obtain ⟨-, states, prepared, rfl⟩ := build_eq_ok.mp built
    exact vehicles_of_routes (prepare_eq_ok.mp prepared)
  have own : e.solution = s := by
    obtain ⟨-, states, -, rfl⟩ := build_eq_ok.mp built
    rfl
  refine ⟨⟨fleet, exists_notes built⟩, warnings_of_isToldBy built, ?_, fun distinct => ?_⟩
  · exact build_retell_of_isToldBy built (fun _ stops => Stop.jobIds_bare stops) fun state _ stops => RouteState.isToldBy_bare
  · -- with two vehicles of one id the stops of the second would be told by the route of the first
    have distinct : (e.states.map (·.vehicle.id)).Nodup := by
      rw [Problem.fleetIds, ← fleet, List.map_map] at distinct
      exact distinct
    rw [told, own]
    refine build_retell_of_isToldBy built jobIds_tell fun state held stops => ?_
    rw [tell_eq distinct held]
    exact RouteState.isToldBy_tell

end

/-! ### A shuttle and a wagon -/

/-- A parcel that the shuttle picks up. -/
def pickup : Job Exact := { RouteState.parcel "b" with kind := .pickup }

/-- A vehicle that cannot get to the far place. -/
def wagon : Vehicle Exact := { RouteState.shuttle with id := "wagon", profile := "cart" }

/-- Two deliveries and a pickup for the shuttle and the wagon. -/
def wagonPlan : Problem Exact where
  jobs := [RouteState.parcel "a", pickup, RouteState.parcel "c"]
  fleet := [wagon, RouteState.shuttle]
  relations := []
  matrices := [("car", RouteState.twoPlaces), ("cart", brokenPlaces)]

/-- The shuttle reports a delivery as it is, and is off with the departure, the meters and the load of the pickup; with its
arrival it is off by no more than one. -/
def wagonSolution : Solution Exact where
  routes := [⟨"shuttle", none, [⟨"a", some (.finite 7), none, [.finite 0, .finite 0], none⟩,
      ⟨"b", some (.finite 13), some (.finite 19), [.finite 0, .finite 1], some .plusInfinity⟩], none, none⟩,
    ⟨"wagon", none, [⟨"c", some (.finite 3), none, [], none⟩], none, none⟩]
  unassigned := []
  hints := []

theorem build_warnings_wagon :
    wagonPlan.fleetIds.Nodup
      ∧ (build wagonPlan wagonSolution (.without []) {}).warnings
        = [.brokenRoute "wagon", .figureDrift "shuttle" "b" .departure (.finite 19) (.finite 17),
          .figureDrift "shuttle" "b" .distance .plusInfinity (.finite 9),
          .loadDrift "shuttle" "b" [.finite 0, .finite 1] [.finite 1, .finite 0]]
      ∧ ∃ e, (build wagonPlan wagonSolution (.without []) {}).outcome = .ok e
        ∧ (∃ lists,
          List.Forall₂ (fun state noted => state.Notes (wagonSolution.stopsOf state.vehicle.id) noted) e.states lists
          ∧ (build wagonPlan wagonSolution (.without []) {}).warnings = lists.flatten)
        ∧ e.brokenRoutes = [.brokenRoute "wagon"]
        ∧ (build wagonPlan wagonSolution.bare (.without []) {}).warnings = [.brokenRoute "wagon"]
        ∧ (build wagonPlan e.told (.without []) {}).warnings = [.brokenRoute "wagon"] := by
  have distinct : wagonPlan.fleetIds.Nodup := by decide
  have warned : (build wagonPlan wagonSolution (.without []) {}).warnings
      = [.brokenRoute "wagon", .figureDrift "shuttle" "b" .departure (.finite 19) (.finite 17),
        .figureDrift "shuttle" "b" .distance .plusInfinity (.finite 9),
        .loadDrift "shuttle" "b" [.finite 0, .finite 1] [.finite 1, .finite 0]] := by
    decide +kernel
  have built : (build wagonPlan wagonSolution (.without []) {}).outcome.map brokenRoutes = .ok [.brokenRoute "wagon"] := by
    decide +kernel
  obtain ⟨e, built, broken⟩ := except_map_eq_ok.mp built
  obtain ⟨⟨-, notes⟩, -, bare, told⟩ := build_warnings built
  rw [broken] at bare told
  exact ⟨distinct, warned, e, built, notes, broken, congrArg Observed.warnings bare,
    congrArg Observed.warnings (told distinct)⟩

end Evaluator

end Leftover
