/-
# Placing breaks

A break can be taken at the start of a route, after a stop whose job allows it, or at the end. It delays
everything after it; waiting for a window takes up part of the delay.

* `breakOverrun` : how far the best placement of a break misses its limits
-/
import Leftover.Route.State

namespace Leftover

variable {α : Type} [Quantity α]

/-- The minutes by which a time lies after the shift. -/
def shiftExcess (v : Vehicle α) (time : α) : α := Quantity.larger 0 (time - v.shift.closes)

/-- A delay pushed through stops: the greatest added lateness, not below `worst`, and the delay that is
left in the end. -/
def pushDelay (worst delay : α) : List (ScheduledStop α) → α × α
  | [] => (worst, delay)
  | stop :: rest =>
    if delay ≤ 0 then (worst, delay)
    else
      let (start, late) := serviceStart stop.job (stop.arrival + delay)
      pushDelay (Quantity.larger worst (late - stop.late)) (start - stop.start) rest

/-- The overrun of a break taken when the vehicle leaves for the given stops. -/
def overrunBefore (s : Schedule α) (v : Vehicle α) (b : Break α) (leaves : α)
    (rest : List (ScheduledStop α)) : α :=
  let begins := Quantity.larger leaves b.window.opens
  if b.window.closes < begins then begins - b.window.closes
  else
    let (worst, delay) := pushDelay 0 (begins + b.duration - leaves) rest
    let worst :=
      if 0 < delay then
        Quantity.larger worst (shiftExcess v (s.endTime + delay) - shiftExcess v s.endTime)
      else worst
    Quantity.larger worst 0

/-- The overrun of a break taken at the end of the route. -/
def overrunAtEnd (s : Schedule α) (v : Vehicle α) (b : Break α) : α :=
  let begins := Quantity.larger s.endTime b.window.opens
  Quantity.larger (Quantity.larger 0 (begins - b.window.closes))
    (shiftExcess v (begins + b.duration) - shiftExcess v s.endTime)

/-- The times at which a break can be taken after a stop, each with the stops that follow. -/
def gapsAfter : List (ScheduledStop α) → List (α × List (ScheduledStop α))
  | [] => []
  | stop :: rest =>
    if stop.job.breakEligible then (stop.departure, rest) :: gapsAfter rest else gapsAfter rest

/-- The overruns of a break at the start of the route and after its stops. -/
def overrunsOnTheWay (s : Schedule α) (v : Vehicle α) (b : Break α) : List α :=
  ((s.startTime, s.stops) :: gapsAfter s.stops).map fun (leaves, rest) => overrunBefore s v b leaves rest

/-- The minutes by which the best placement of a break misses its limits, zero if it can be taken. A break
that is not due before the route is over is no burden. -/
def breakOverrun (s : Schedule α) (v : Vehicle α) (b : Break α) : α :=
  if !s.reachable || decide (s.endTime < b.window.opens) then 0
  else
    Quantity.smaller ((overrunsOnTheWay s v b).foldl Quantity.smaller Quantity.infinity) (overrunAtEnd s v b)

/-- The overruns of the breaks of a route as it is. -/
def RouteState.breakOverruns (s : RouteState α) : List α :=
  s.vehicle.breaks.map (breakOverrun s.base s.vehicle)

end Leftover
