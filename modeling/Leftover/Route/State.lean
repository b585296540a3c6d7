/-
# The route of a vehicle

A vehicle's route as it is, and what becomes of it when a job is inserted. The part of the route before
the new job does not change, so its times are taken over.

* `RouteState` : the route with its schedule
* `RouteState.build` : the route of some jobs
* `RouteState.insertion` : the schedule with a job inserted
* `RouteState.peakWith` : the highest load with a job inserted
-/
import Leftover.Plan.Names
import Leftover.Plan.Position
import Leftover.Route.Load
import Leftover.Route.Schedule

namespace Leftover

variable {α : Type} [Quantity α]

/-! ## Routes -/

/-- The route of a vehicle through some jobs, and its schedule. -/
structure RouteState (α : Type) [Quantity α] where
  vehicle : Vehicle α
  matrix : Matrix α
  jobs : List (Job α)
  origin : Place α
  base : Schedule α
  walk_eq : walk vehicle matrix jobs origin origin.time = .ok base

namespace RouteState

/-- The route through jobs from a given place. -/
def ofOrigin (v : Vehicle α) (m : Matrix α) (jobs : List (Job α)) (start : Place α) :
    Except Fault (RouteState α) :=
  match h : walk v m jobs start start.time with
  | .ok base => .ok ⟨v, m, jobs, start, base, h⟩
  | .error fault => .error fault

/-- The route of a vehicle through jobs. -/
def build (v : Vehicle α) (m : Matrix α) (jobs : List (Job α)) (startTime : Option α) :
    Except Fault (RouteState α) := do
  ofOrigin v m jobs (← v.origin m startTime)

/-- The number of stops. -/
def size (s : RouteState α) : Nat := s.jobs.length

/-- The positions at which a job can be inserted: before each stop, and after the last one. -/
def positions (s : RouteState α) : List Nat := List.range (s.size + 1)

/-! ## Looking things up -/

/-- Each job with its place in the route. -/
def jobPlaces (s : RouteState α) : List (Text × Nat) := s.jobs.zipIdx.map fun (job, k) => (job.id, k)

/-- The place of a job in the route, the last one if it is there more than once. -/
def placeOf? (s : RouteState α) (jobId : Text) : Option Nat := lastOf? s.jobPlaces jobId

/-- Each job with its lateness in the route as it is. -/
def lateness (s : RouteState α) : List (Text × α) := s.base.stops.map fun stop => (stop.job.id, stop.late)

/-- The lateness of a job in the route as it is, zero for a job that it does not serve. -/
def lateOf (s : RouteState α) (jobId : Text) : α := (lastOf? s.lateness jobId).getD 0

/-! ## Loads -/

/-- The number of load dimensions of the vehicle and its jobs. -/
def dims (s : RouteState α) : Nat :=
  (s.jobs.map fun job => job.demand.length).foldl max s.vehicle.capacity.length

/-- The load before each stop and after the last one. -/
def loads (s : RouteState α) : List (List α) := Load.profile s.dims s.jobs

/-- The highest load up to each stop. -/
def peaksBefore (s : RouteState α) : List (List α) := Load.peaks s.dims s.loads

/-- The highest load from each stop on. -/
def peaksAhead (s : RouteState α) : List (List α) := Load.peaksAhead s.dims s.loads

/-- The capacity in at least so many dimensions, zero in those the vehicle does not have. -/
def capacity (s : RouteState α) (dims : Nat) : List α := Load.padTo dims s.vehicle.capacity

/-- The highest load along the route with a job inserted at a position. -/
def peakWith (s : RouteState α) (job : Job α) (position : Int) : Except Fault (List α) :=
  let dims := max s.dims job.demand.length
  match itemAt? s.peaksBefore position, itemAt? s.peaksAhead position with
  | some before, some ahead =>
    .ok (Load.joinPeaks job.kind (Load.padTo dims before) (Load.padTo dims ahead) (Load.padTo dims job.demand))
  | _, _ => .error .noSuchStop

/-! ## Inserting a job -/

/-- The place from which the stops at a position and later are driven. -/
def placeBefore (s : RouteState α) (k : Nat) : Place α :=
  match (s.base.stops.take k).getLast? with
  | some stop => stop.place
  | none => s.origin

/-- The schedule with a job inserted before the `k`-th stop. -/
def insertionAt (s : RouteState α) (job : Job α) (k : Nat) : Except Fault (Schedule α) :=
  if s.base.reachable then
    (walk s.vehicle s.matrix (job :: s.jobs.drop k) (s.placeBefore k) s.origin.time).map
      (Schedule.after (s.base.stops.take k))
  else walk s.vehicle s.matrix (s.jobs.take k ++ job :: s.jobs.drop k) s.origin s.origin.time

/-- The schedule with a job inserted at a position of the route. -/
def insertion (s : RouteState α) (job : Job α) (position : Int) : Except Fault (Schedule α) :=
  if 0 ≤ position ∧ position ≤ s.size then s.insertionAt job position.toNat
  else .error (.outsideRoute (toString position) s.size)

end RouteState

end Leftover
