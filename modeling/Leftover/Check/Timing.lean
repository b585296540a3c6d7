/-
# Times, distances and breaks

The constraints on the schedule of a route with a job in it: time windows, the shift, the length of the
route, and breaks. What was wrong with the route before does not count against the job.
-/
import Leftover.Check.Insertion

namespace Leftover
namespace Insertion

variable {α : Type} [Quantity α]

/-! ## Time windows -/

/-- The lateness of the job itself. A job with windows must also start before the shift is over. -/
def ownLateness (i : Insertion α) (stop : ScheduledStop α) : α :=
  if i.job.windows.isEmpty then stop.late
  else Quantity.larger stop.late (stop.start - i.vehicle.shift.closes)

/-- The lateness that the job adds to a later stop. -/
def addedLateness (i : Insertion α) (stop : ScheduledStop α) : α := stop.late - i.state.lateOf stop.job.id

/-- The job and every later stop are reached before their windows close. -/
def checkTimeWindow (i : Insertion α) : Except Fault (Evidence α) :=
  i.onSchedule fun schedule =>
    match schedule.stops.drop i.position.toNat with
    | [] => .error .noSuchStop
    | stop :: later =>
      .ok (.ofExcess ((later.map i.addedLateness).foldl Quantity.larger (i.ownLateness stop)))

/-! ## Distance and shift -/

/-- The route is not longer than the vehicle may drive. -/
def checkMaxDistance (i : Insertion α) : Except Fault (Evidence α) :=
  match i.vehicle.maxDistance with
  | none => .ok .satisfied
  | some limit => i.onSchedule fun schedule =>
    .ok (.ofExcess (addedOverrun (schedule.distance - limit) (i.state.base.distance - limit)))

/-- The minutes that the job adds beyond the end of the shift. -/
def addedShift (i : Insertion α) (schedule : Schedule α) : α :=
  let shiftEnd := i.vehicle.shift.closes
  addedOverrun (schedule.endTime - shiftEnd) (i.state.base.endTime - shiftEnd)

/-- The route ends inside the shift and takes no longer than the vehicle may be on its way. -/
def checkShiftTime (i : Insertion α) : Except Fault (Evidence α) :=
  i.onSchedule fun schedule =>
    match i.vehicle.maxDuration with
    | none => .ok (.ofExcess (i.addedShift schedule))
    | some limit =>
      let added := addedOverrun (schedule.duration - limit) (i.state.base.duration - limit)
      .ok (.ofExcess (Quantity.larger (i.addedShift schedule) added))

/-! ## Breaks -/

/-- The overrun of a break that could be taken before the job was inserted. -/
def addedBreakOverrun (i : Insertion α) (schedule : Schedule α) (b : Break α) (before : α) : Option α :=
  if 0 < before then none else some (breakOverrun schedule i.vehicle b)

/-- Every break that could be taken without the job can be taken with it. -/
def checkBreaks (i : Insertion α) : Except Fault (Evidence α) :=
  if i.vehicle.breaks.isEmpty then .ok .satisfied
  else i.onSchedule fun schedule =>
    let overruns := (i.vehicle.breaks.zip i.state.breakOverruns).filterMap fun (b, before) =>
      i.addedBreakOverrun schedule b before
    .ok (.ofExcess (overruns.foldl Quantity.larger 0))

end Insertion
end Leftover
