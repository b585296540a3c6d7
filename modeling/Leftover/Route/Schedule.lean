/-
# Schedules

Driving through a list of jobs from a place at a time. The drive ends early at the first leg without a
duration; a route that holds such a leg is not reachable and has neither an end nor a length.

* `Place` : where the vehicle is, at what time, after how many meters
* `Schedule` : the stops of a route with their times
* `drive` : the stops from a place on
* `walk` : the schedule from a place to the end of the route
* `Vehicle.origin` : where a route begins
-/
import Leftover.Route.ServiceTime

namespace Leftover

variable {α : Type} [Quantity α]

/-! ## Schedules -/

/-- Where a vehicle is, at what time, and how many meters it has driven. -/
structure Place (α : Type) where
  location : Nat
  time : α
  distance : α
  deriving DecidableEq

/-- The times of one job in a route: arrival, start of the service, departure, minutes of lateness, and
the meters driven on arrival. -/
structure ScheduledStop (α : Type) where
  job : Job α
  arrival : α
  start : α
  departure : α
  late : α
  distance : α
  deriving DecidableEq

/-- The vehicle as it leaves a stop. -/
def ScheduledStop.place (stop : ScheduledStop α) : Place α := ⟨stop.job.location, stop.departure, stop.distance⟩

/-- The times of a whole route. -/
structure Schedule (α : Type) where
  stops : List (ScheduledStop α)
  startTime : α
  endTime : α
  distance : α
  reachable : Bool
  deriving DecidableEq

namespace Schedule

/-- The minutes from start to end. -/
def duration (s : Schedule α) : α := s.endTime - s.startTime

/-- The greatest lateness of a stop. -/
def maxLate (s : Schedule α) : α := Quantity.largest 0 (s.stops.map (·.late))

/-- A route that stops for want of a path. -/
def cutOff (stops : List (ScheduledStop α)) (startTime : α) : Schedule α :=
  ⟨stops, startTime, Quantity.infinity, Quantity.infinity, false⟩

/-- A schedule with earlier stops in front. -/
def after (stops : List (ScheduledStop α)) (s : Schedule α) : Schedule α :=
  { s with stops := stops ++ s.stops }

end Schedule

/-! ## Driving -/

/-- The minutes and meters of a leg, nothing without a duration. -/
def leg? (m : Matrix α) (origin destination : Nat) : Except Fault (Option (α × α)) := do
  let minutes ← m.duration origin destination
  if Quantity.isFinite minutes then
    let meters ← m.distance origin destination
    return some (minutes, meters)
  else return none

/-- The stop at a job after a leg of so many minutes and meters. -/
def serve (here : Place α) (job : Job α) (minutes meters : α) : ScheduledStop α :=
  let arrival := here.time + minutes
  let (start, late) := serviceStart job arrival
  ⟨job, arrival, start, start + job.duration, late, here.distance + meters⟩

/-- The stops at jobs from a place on, and the place after the last one if every leg has a duration. -/
def drive (m : Matrix α) : Place α → List (Job α) → Except Fault (List (ScheduledStop α) × Option (Place α))
  | here, [] => .ok ([], some here)
  | here, job :: rest => do
    match ← leg? m here.location job.location with
    | none => return ([], none)
    | some (minutes, meters) =>
      let stop := serve here job minutes meters
      let (stops, last) ← drive m stop.place rest
      return (stop :: stops, last)

/-- The vehicle at the end of its route, nothing without a path to it. -/
def Vehicle.arrive? (v : Vehicle α) (m : Matrix α) (here : Place α) : Except Fault (Option (Place α)) :=
  match v.endLocation with
  | none => .ok (some here)
  | some home => do
    match ← leg? m here.location home with
    | none => return none
    | some (minutes, meters) => return some ⟨home, here.time + minutes, here.distance + meters⟩

/-- The schedule of jobs from a place to the end of the route. Nothing is driven from a place that is not
reached at a finite time. -/
def walk (v : Vehicle α) (m : Matrix α) (jobs : List (Job α)) (here : Place α) (startTime : α) :
    Except Fault (Schedule α) :=
  if Quantity.isFinite here.time then do
    match ← drive m here jobs with
    | (stops, none) => return .cutOff stops startTime
    | (stops, some last) =>
      match ← v.arrive? m last with
      | none => return .cutOff stops startTime
      | some home => return ⟨stops, startTime, home.time, home.distance, true⟩
  else .ok (.cutOff [] startTime)

/-! ## Where a route begins -/

/-- The minutes and meters from the start of a vehicle to a location, zero when it is there already. -/
def Vehicle.approach (v : Vehicle α) (m : Matrix α) (location : Nat) : Except Fault (α × α) :=
  if location = v.startLocation then .ok (0, 0)
  else do
    let minutes ← m.duration v.startLocation location
    let meters ← m.distance v.startLocation location
    return (minutes, meters)

/-- Where a route begins. A vehicle with a dispatch begins there, once it is dispatched and not before the
given start; any other vehicle at its own start, at the given time or at the start of its shift. -/
def Vehicle.origin (v : Vehicle α) (m : Matrix α) (startTime : Option α) : Except Fault (Place α) :=
  match v.dispatch with
  | none => .ok ⟨v.startLocation, startTime.getD v.shift.opens, 0⟩
  | some d => do
    let location := d.location.getD v.startLocation
    let (minutes, meters) ← v.approach m location
    let ready := Quantity.larger (v.shift.opens + minutes) d.window.opens + d.duration
    let time := match startTime with
      | none => ready
      | some t => Quantity.larger ready t
    return ⟨location, time, meters⟩

end Leftover
