/-
# Whether vehicle and job suit each other

The constraints on skills, load, paths, areas, dispatch and the number of jobs of a vehicle.
-/
import Leftover.Check.Insertion
import Leftover.Plan.Plane

namespace Leftover
namespace Insertion

variable {α : Type} [Quantity α]

/-! ## Skills, load and paths -/

/-- The vehicle has every skill that the job needs. -/
def checkSkill (i : Insertion α) : Except Fault (Evidence α) :=
  .ok (.ofKept (i.job.skills.all i.vehicle.skills.contains))

/-- The load stays within the capacity, in every dimension, along the whole route. -/
def checkCapacity (i : Insertion α) : Except Fault (Evidence α) := do
  let peak ← i.state.peakWith i.job i.position
  return .ofExcess (Quantity.largest 0 (List.zipWith (· - ·) peak (i.state.capacity peak.length)))

/-- The location before the position: that of a stop, or where the route begins. -/
def locationBefore (i : Insertion α) : Except Fault Nat :=
  if 0 < i.position then
    match itemAt? i.state.jobs (i.position - 1) with
    | some job => .ok job.location
    | none => .error .noSuchStop
  else .ok i.state.origin.location

/-- The location after the position: that of a stop, or where the route ends, if anywhere. -/
def locationAfter (i : Insertion α) : Except Fault (Option Nat) :=
  if i.position < i.state.size then
    match itemAt? i.state.jobs i.position with
    | some job => .ok (some job.location)
    | none => .error .noSuchStop
  else .ok i.vehicle.endLocation

/-- Paths lead to the job and on from it. -/
def checkReachable (i : Insertion α) : Except Fault (Evidence α) := do
  let before ← i.locationBefore
  let after ← i.locationAfter
  let m := i.state.matrix
  return .ofKept (m.isReachable before i.job.location && after.all (m.isReachable i.job.location))

/-! ## Areas -/

/-- The corners of an area as points: longitudes to the right, latitudes upwards. -/
def corners (area : Area α) : List (Point α) := area.shape.map fun (lat, lon) => ⟨lon, lat⟩

/-- One of the areas covers the point; areas after that one are not looked at. -/
def anyCovers [Plane α] (point : Point α) : List (Area α) → Except Fault Bool
  | [] => .ok false
  | area :: rest => do
    if ← Plane.covers (corners area) point then return true else anyCovers point rest

/-- The job lies in an area of the vehicle. Its named areas count before its coordinates; a job with
neither can lie anywhere. -/
def checkArea [Plane α] (i : Insertion α) : Except Fault (Evidence α) :=
  let areas := i.vehicle.allowedAreas
  if areas.isEmpty then .ok .satisfied
  else if !i.job.areaIds.isEmpty then
    .ok (.ofKept (areas.any fun area => i.job.areaIds.contains area.id))
  else
    match i.job.coordinates with
    | none => .ok .satisfied
    | some c => do
      return .ofKept (← anyCovers ⟨c.lon, c.lat⟩ areas)

/-! ## Dispatch and tour size -/

/-- The job can be reached in time after the dispatch. -/
def checkAfterDispatch (i : Insertion α) : Except Fault (Evidence α) :=
  let ready := i.state.origin
  match i.job.windows with
  | [] => .ok .satisfied
  | windows@(_ :: _) => do
    let minutes ← i.state.matrix.duration ready.location i.job.location
    if Quantity.isFinite minutes then
      return .ofExcess (ready.time + minutes - Quantity.largest 0 (windows.map (·.closes)))
    else return .satisfied

/-- The dispatch of the vehicle overlaps its shift, begins inside its window, and leaves time to reach the
job. -/
def checkDispatch (i : Insertion α) : Except Fault (Evidence α) :=
  match i.vehicle.dispatch with
  | none => .ok .satisfied
  | some d =>
    let shift := i.vehicle.shift
    let ready := i.state.origin.time
    if shift.closes < d.window.opens then .ok (.violated (some (d.window.opens - shift.closes)))
    else if d.window.closes < shift.opens then .ok (.violated (some (shift.opens - d.window.closes)))
    else if !Quantity.isFinite ready then .ok (.violated none)
    else if d.window.closes < ready - d.duration then
      .ok (.violated (some (ready - d.duration - d.window.closes)))
    else i.checkAfterDispatch

/-- The vehicle takes one more job. -/
def checkTourSize (i : Insertion α) : Except Fault (Evidence α) :=
  match i.vehicle.maxTourSize with
  | none => .ok .satisfied
  | some limit =>
    if limit < i.state.size + 1 then .ok (.violated (some (Quantity.ofNat (i.state.size + 1 - limit))))
    else .ok .satisfied

end Insertion
end Leftover
