/-
# Evaluating jobs

An evaluator holds the routes of a solution as they are, and finds out for a job which constraints keep it
out of each of them.

* `Evaluator.build` : the routes of all vehicles, with warnings where reported figures are off
* `Evaluator.buildFor` : the same with the checks that are asked for, or all that are not switched off
* `Evaluator.evaluate` : the records of a job over the whole fleet
* `Evaluator.mergeHints` : the records together with what the optimizer noted
-/
import Leftover.Diagnosis.Survey

namespace Leftover

variable {α : Type} [Quantity α] [Plane α]

/-- The routes of a solution, with the checks to be made on them, in fleet order. -/
structure Evaluator (α : Type) [Quantity α] where
  problem : Problem α
  solution : Solution α
  catalog : Catalog
  settings : DiagnosisSettings α
  states : List (RouteState α)

/-! ## Drift

Reported figures may differ from those worked out by one minute or meter, loads by a millionth. -/

/-- A figure is reported, and is more than one off. -/
def driftOf (vehicleId jobId : Text) (figure : Figure) (reported : Option α) (workedOut : α) :
    List (Warning α) :=
  match reported with
  | none => []
  | some x =>
    if Quantity.one < Quantity.size (x - workedOut) then [.figureDrift vehicleId jobId figure x workedOut] else []

/-- Two loads differ in some dimension. -/
def loadsDiffer (xs ys : List α) : Bool :=
  (List.zipWith (fun x y => Quantity.size (x - y)) xs ys).any fun d =>
    decide (Quantity.one / Quantity.ofInt 1000000 < d)

/-- A load is reported, and differs from the one worked out. -/
def loadDriftOf (vehicleId jobId : Text) (reported workedOut : List α) : List (Warning α) :=
  if reported.isEmpty then []
  else
    let dims := max reported.length workedOut.length
    let reported := Load.padTo dims reported
    let workedOut := Load.padTo dims workedOut
    if loadsDiffer reported workedOut then [.loadDrift vehicleId jobId reported workedOut] else []

/-- The figures of a stop that are off; `load` is the load after it. -/
def stopDrift (vehicleId : Text) (stop : Stop α) (scheduled : ScheduledStop α) (load : List α) :
    List (Warning α) :=
  driftOf vehicleId stop.jobId .arrival stop.arrival scheduled.arrival
    ++ driftOf vehicleId stop.jobId .departure stop.departure scheduled.departure
    ++ driftOf vehicleId stop.jobId .distance stop.distance scheduled.distance
    ++ loadDriftOf vehicleId stop.jobId stop.load load

/-- The figures of a route that are off, stop by stop. -/
def routeDrift (state : RouteState α) (stops : List (Stop α)) : List (Warning α) :=
  (stops.zip (state.base.stops.zip (state.loads.drop 1))).flatMap fun (stop, scheduled, load) =>
    stopDrift state.vehicle.id stop scheduled load

/-! ## Building an evaluator -/

/-- Every route belongs to a vehicle of the fleet, and no vehicle has two. -/
def checkRoutes (p : Problem α) : List Text → List (Route α) → Except Fault Unit
  | _, [] => .ok ()
  | seen, r :: rest => do
    let v ← p.vehicle r.vehicleId
    if seen.contains v.id then .error (.secondRoute v.id) else checkRoutes p (v.id :: seen) rest

/-- A time that a clock text can be given for. -/
def showable (time : α) : Except Fault Unit :=
  if Quantity.isFinite time then .ok ()
  else .error (if Quantity.isUndefined time then .undefinedTime else .endlessTime)

/-- The route of a vehicle as it is, without stops when it has none. -/
def currentRoute (p : Problem α) (s : Solution α) (v : Vehicle α) : Except Fault (RouteState α) := do
  let route := s.routeFor? v.id
  let jobs ← ((route.map Route.jobIds).getD []).mapM p.job
  let matrix ← p.matrixFor v
  RouteState.build v matrix jobs (route.bind (·.startTime))

/-- The route of a vehicle as it is. A reachable route has to start and end at some finite time. -/
def routeOf (p : Problem α) (s : Solution α) (v : Vehicle α) : Except Fault (RouteState α) := do
  let state ← currentRoute p s v
  if state.base.reachable then
    showable state.base.startTime
    showable state.base.endTime
  return state

/-- What is off with the route of a vehicle. -/
def routeWarnings (s : Solution α) (state : RouteState α) : List (Warning α) :=
  if state.base.reachable then routeDrift state (((s.routeFor? state.vehicle.id).map (·.stops)).getD [])
  else [.brokenRoute state.vehicle.id]

/-- The routes of vehicles, with what is off with them. -/
def prepare (p : Problem α) (s : Solution α) : List (Vehicle α) → Observed α (List (RouteState α))
  | [] => pure []
  | v :: rest => do
    let state ← .ofExcept (routeOf p s v)
    .warn (routeWarnings s state)
    let states ← prepare p s rest
    return state :: states

namespace Evaluator

/-- The evaluator of a solution. -/
def build (p : Problem α) (s : Solution α) (catalog : Catalog) (settings : DiagnosisSettings α) :
    Observed α (Evaluator α) := do
  .ofExcept (checkRoutes p [] s.routes)
  let states ← prepare p s p.fleet
  return ⟨p, s, catalog, settings, states⟩

/-- The evaluator of a solution, with the checks that are asked for. -/
def buildFor (p : Problem α) (s : Solution α) (asked : Option Catalog) (settings : DiagnosisSettings α) :
    Observed α (Evaluator α) :=
  build p s (.inUse asked settings.disabled) settings

omit [Plane α] in
/-- To ask for all checks that are not switched off is to make these. -/
theorem buildFor_without (p : Problem α) (s : Solution α) (settings : DiagnosisSettings α) :
    buildFor p s (some (.without settings.disabled)) settings = build p s (.without settings.disabled) settings := by
  rw [buildFor, Catalog.inUse_without]

/-! ## Hints -/

/-- The hint is about a constraint that is judged. -/
def isUsable (e : Evaluator α) (h : Hint α) : Bool :=
  h.code ≠ .unexplained && !e.settings.disabled.contains h.code

/-- The record of a hint. -/
def recordOf (h : Hint α) : Record α := ⟨h.code, .violated h.severity, h.vehicleId, none⟩

/-- A record put among others: in place of one for the same vehicle and reason if it is milder than that
one, at the end if there is none. -/
def putRecord (new : Record α) : List (Record α) → List (Record α)
  | [] => [new]
  | r :: rest =>
    if r.vehicleId = new.vehicleId ∧ r.code = new.code then
      if compareSeverity new.evidence.severity r.evidence.severity = .lt then new :: rest else r :: rest
    else r :: putRecord new rest

/-- Records together with those of the hints for a job. -/
def mergeHints (e : Evaluator α) (jobId : Text) (records : List (Record α)) : List (Record α) :=
  let usable := (e.solution.hintsFor jobId).filter e.isUsable
  usable.foldl (fun done h => putRecord (recordOf h) done) records

/-- The order of records: by priority, then by vehicle in fleet order, then by position. -/
def compareRecord (fleet : List Text) (a b : Record α) : Ordering :=
  ((compare a.code.rank b.code.rank).then (compare (placeIn fleet a.vehicleId) (placeIn fleet b.vehicleId))).then
    (compare (a.position.getD (-1)) (b.position.getD (-1)))

/-- Records in their order. -/
def sortRecords (fleet : List Text) (records : List (Record α)) : List (Record α) :=
  sortedBy (fun a b => compareRecord fleet a b = .lt) records

/-! ## Evaluating a job -/

/-- The attempt to put a job into a route. -/
def attempt (e : Evaluator α) (job : Job α) (state : RouteState α) : Attempt α :=
  ⟨e.problem, e.catalog, e.settings.exhaustive, job, state⟩

/-- The outcome for a job and the vehicle of a route. -/
def evaluateVehicle (e : Evaluator α) (job : Job α) (state : RouteState α) : Observed α (VehicleOutcome α) :=
  survey (e.attempt job state)

/-- The outcomes for a job and some routes. `late` tells whether the deadline has passed when it is the
turn of the vehicle at a place of the fleet. -/
def evaluateFrom (e : Evaluator α) (late : Nat → Bool) (job : Job α) :
    Nat → List (RouteState α) → Observed α (List (VehicleOutcome α))
  | _, [] => pure []
  | k, state :: rest => do
    if late k then .ofExcept (.error (.interrupted job.id))
    let outcome ← e.evaluateVehicle job state
    let outcomes ← e.evaluateFrom late job (k + 1) rest
    return outcome :: outcomes

/-- The evaluation that outcomes for all vehicles make up. -/
def collect (e : Evaluator α) (job : Job α) (outcomes : List (VehicleOutcome α)) : JobEvaluation α :=
  let found := outcomes.flatMap (·.records)
  let records := if e.settings.useHints then e.mergeHints job.id found else found
  { jobId := job.id
    records := sortRecords e.problem.fleetIds records
    vehiclesEvaluated := outcomes.map (·.vehicleId)
    unreachableVehicles := (outcomes.filter (·.unreachable)).map (·.vehicleId)
    feasibleVehicles := (outcomes.filter (·.feasible)).map (·.vehicleId) }

/-- The evaluation of a job over the whole fleet, unless the deadline passes. -/
def evaluate (e : Evaluator α) (late : Nat → Bool) (job : Job α) : Observed α (JobEvaluation α) := do
  let outcomes ← e.evaluateFrom late job 0 e.states
  return e.collect job outcomes

end Evaluator

end Leftover
