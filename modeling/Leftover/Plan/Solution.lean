/-
# Solutions

What the optimizer gives back: a route per vehicle, the jobs it left over, and the violations it noted on
the way.

* `Solution.routeFor?`, `Solution.assignedJobs` : looking things up
* `Solution.assign`, `Solution.drop` : moving a job into a route and out of all routes
-/
import Leftover.Plan.Names
import Leftover.Plan.Position
import Leftover.Plan.Problem

namespace Leftover

/-! ## Routes -/

/-- A job served by a route, with the figures reported for it: arrival and departure, the load after the
stop, and the meters driven on arrival. -/
structure Stop (α : Type) where
  jobId : Text
  arrival : Option α
  departure : Option α
  load : List α
  distance : Option α
  deriving DecidableEq

/-- A stop without any figures. -/
def Stop.bare {α : Type} (jobId : Text) : Stop α := ⟨jobId, none, none, [], none⟩

/-- The stops of a vehicle, with reported totals. -/
structure Route (α : Type) where
  vehicleId : Text
  startTime : Option α
  stops : List (Stop α)
  distance : Option α
  duration : Option α
  deriving DecidableEq

/-- The ids of the jobs that a route serves. -/
def Route.jobIds {α : Type} (r : Route α) : List Text := r.stops.map (·.jobId)

/-- A violation noted during the search for a plan. -/
structure Hint (α : Type) where
  code : Reason
  vehicleId : Option Text
  severity : Option α
  deriving DecidableEq

/-! ## Solutions -/

/-- Routes, leftover jobs, and the hints for each job id. -/
structure Solution (α : Type) where
  routes : List (Route α)
  unassigned : List Text
  hints : List (Text × List (Hint α))
  deriving DecidableEq

namespace Solution

variable {α : Type}

/-- The first route of a vehicle. -/
def routeFor? (s : Solution α) (vehicleId : Text) : Option (Route α) :=
  s.routes.find? (·.vehicleId = vehicleId)

/-- The ids of all jobs served by a route, as a set. -/
def assignedJobs (s : Solution α) : List Text := nameSet (s.routes.flatMap Route.jobIds)

/-- The job is served by a route. -/
def isRouted (s : Solution α) (jobId : Text) : Bool := s.routes.any fun r => r.jobIds.contains jobId

/-- The hints for a job. -/
def hintsFor (s : Solution α) (jobId : Text) : List (Hint α) :=
  ((s.hints.find? (·.1 = jobId)).map (·.2)).getD []

/-! ## Edits -/

/-- The first route of a vehicle changed, or a new one when the vehicle has none. -/
def updateRoute (vehicleId : Text) (change : Route α → Route α) : List (Route α) → List (Route α)
  | [] => [change ⟨vehicleId, none, [], none, none⟩]
  | r :: rest => if r.vehicleId = vehicleId then change r :: rest else r :: updateRoute vehicleId change rest

/-- A job taken from the leftover ones for a route of a vehicle, which is changed. -/
def claim (s : Solution α) (jobId vehicleId : Text) (change : Route α → Route α) : Solution α :=
  { s with
    unassigned := s.unassigned.erase jobId
    routes := updateRoute vehicleId change s.routes }

/-- A job moved from the leftover ones into a route of a vehicle. -/
def assign (s : Solution α) (jobId vehicleId : Text) (position : Int) : Solution α :=
  s.claim jobId vehicleId fun r => { r with stops := insertAt r.stops position (Stop.bare jobId) }

/-- A job taken out of all routes and added to the leftover ones. -/
def drop (s : Solution α) (jobId : Text) : Solution α :=
  { s with
    routes := s.routes.map fun r => { r with stops := r.stops.filter (·.jobId ≠ jobId) }
    unassigned := s.unassigned ++ [jobId] }

end Solution

end Leftover
