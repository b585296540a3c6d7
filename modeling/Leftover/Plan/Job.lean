/-
# Jobs and vehicles

What has to be done, and who can do it.
-/
import Leftover.Plan.Matrix
import Leftover.Plan.Window

namespace Leftover

/-! ## Jobs -/

/-- How a job's demand moves: loaded at the start of the route and dropped at the stop, or loaded at the
stop and carried to the end. -/
inductive JobKind : Type where
  | delivery
  | pickup
  deriving DecidableEq, Repr, Inhabited

namespace JobKind

/-- The kinds, in the order in which a message lists them. -/
def all : List JobKind := [delivery, pickup]

/-- The written kind. -/
def name : JobKind → String
  | delivery => "delivery"
  | pickup => "pickup"

end JobKind

/-- A task at a location. Without time windows it can be done at any time; a lower order value means that
it has to be done earlier. Sets of names are lists in ascending order without repeats. -/
structure Job (α : Type) where
  id : Text
  location : Nat
  coordinates : Option (Coordinates α)
  duration : α
  skills : List Text
  demand : List α
  kind : JobKind
  windows : List (Window α)
  order : Option Int
  areaIds : List Text
  breakEligible : Bool
  deriving DecidableEq

/-- The job with its numbers changed. -/
def Job.map {α β : Type} (f : α → β) (j : Job α) : Job β :=
  { j with
    coordinates := j.coordinates.map (·.map f)
    duration := f j.duration
    demand := j.demand.map f
    windows := j.windows.map (·.map f) }

/-! ## Vehicles -/

/-- A break that has to begin inside its window. -/
structure Break (α : Type) where
  window : Window α
  duration : α
  deriving DecidableEq

/-- Loading before the first job, at the start of the vehicle when no location is given. -/
structure Dispatch (α : Type) where
  location : Option Nat
  window : Window α
  duration : α
  deriving DecidableEq

/-- A named polygon of (latitude, longitude) pairs. -/
structure Area (α : Type) where
  id : Text
  shape : List (α × α)
  deriving DecidableEq

/-- A vehicle with its limits. Without an end location the route is open. -/
structure Vehicle (α : Type) where
  id : Text
  profile : Text
  skills : List Text
  capacity : List α
  shift : Window α
  startLocation : Nat
  endLocation : Option Nat
  maxDistance : Option α
  maxDuration : Option α
  maxTourSize : Option Nat
  dispatch : Option (Dispatch α)
  breaks : List (Break α)
  allowedAreas : List (Area α)
  deriving DecidableEq

/-! ### Numbers changed -/

section
variable {α β : Type} (f : α → β)

/-- The break with its numbers changed. -/
def Break.map (b : Break α) : Break β := ⟨b.window.map f, f b.duration⟩

/-- The dispatch with its numbers changed. -/
def Dispatch.map (d : Dispatch α) : Dispatch β := ⟨d.location, d.window.map f, f d.duration⟩

/-- The area with its numbers changed. -/
def Area.map (a : Area α) : Area β := ⟨a.id, a.shape.map fun (lat, lon) => (f lat, f lon)⟩

/-- The vehicle with its numbers changed. -/
def Vehicle.map (v : Vehicle α) : Vehicle β :=
  { v with
    capacity := v.capacity.map f
    shift := v.shift.map f
    maxDistance := v.maxDistance.map f
    maxDuration := v.maxDuration.map f
    dispatch := v.dispatch.map (·.map f)
    breaks := v.breaks.map (·.map f)
    allowedAreas := v.allowedAreas.map (·.map f) }

end

end Leftover
