/-
# Auditing routes

Routes are checked against the limits of their vehicles. Totals are taken as reported where they are
reported, and worked out from the travel matrix where they are not.

* `limitViolations` : every limit that a route exceeds
* `LimitViolation.message` : the text of a violation
-/
import Leftover.Clock
import Leftover.Decimal.Typed
import Leftover.Json.Shown
import Leftover.Plan.Solution
import Leftover.Route.State

namespace Leftover

/-! ## Limits -/

/-- The limits of a vehicle that an audit looks at. -/
inductive Limit : Type where
  | distance
  | shiftTime
  | tourSize
  deriving DecidableEq, Repr

/-- The name of a limit. -/
def Limit.name : Limit → String
  | distance => "max distance"
  | shiftTime => "shift time"
  | tourSize => "tour size"

/-- A limit of a vehicle that its route exceeds. -/
structure LimitViolation (α : Type) where
  vehicleId : Text
  limit : Limit
  expected : α
  actual : α
  deriving DecidableEq

variable {α : Type} [Quantity α]

/-! ## The audit -/

/-- The meters and minutes of a route, as reported or else as worked out. -/
def routeTotals (p : Problem α) (v : Vehicle α) (r : Route α) : Except Fault (α × α) :=
  match r.distance, r.duration with
  | some distance, some duration => .ok (distance, duration)
  | _, _ => do
    let jobs ← r.jobIds.mapM p.job
    let matrix ← p.matrixFor v
    let state ← RouteState.build v matrix jobs r.startTime
    return (r.distance.getD state.base.distance, r.duration.getD state.base.duration)

/-- The violation of a limit, if it is set and exceeded. A total equal to the limit is fine. -/
def exceeding (v : Vehicle α) (limit : Limit) (expected : Option α) (actual : α) : List (LimitViolation α) :=
  match expected with
  | none => []
  | some most => if most < actual then [⟨v.id, limit, most, actual⟩] else []

/-- The violation of the number of stops, if it is limited and exceeded. -/
def exceedingSize (v : Vehicle α) (stops : Nat) : List (LimitViolation α) :=
  match v.maxTourSize with
  | none => []
  | some most =>
    if most < stops then [⟨v.id, .tourSize, Quantity.ofNat most, Quantity.ofNat stops⟩] else []

/-- The limits that a route exceeds. -/
def routeViolations (p : Problem α) (r : Route α) : Except Fault (List (LimitViolation α)) := do
  let v ← p.vehicle r.vehicleId
  let (distance, duration) ← routeTotals p v r
  return exceeding v .distance v.maxDistance distance
    ++ exceeding v .shiftTime v.maxDuration duration
    ++ exceedingSize v r.stops.length

/-- The limits that the routes of a solution exceed, route by route. -/
def limitViolations (p : Problem α) (s : Solution α) : Except Fault (List (LimitViolation α)) := do
  return (← s.routes.mapM (routeViolations p)).flatten

/-! ## Messages -/

/-- A figure in a message: without decimal places if it is whole, else with two. -/
def figureText (x : Float) : String :=
  match (Dyadic.ofFloat? x).bind Dyadic.toInt? with
  | some n => toString n
  | none => fixedText 2 x

/-- A figure that is typed as a text. -/
def typedFigureText (t : Text) : Except Fault String :=
  match typedMeasure? t with
  | none => .error (.notANumber t)
  | some x =>
    if ((Dyadic.ofFloat? x).bind Dyadic.toInt?).isNone then .error .notAFigure
    else
      match typedWhole t with
      | .ok n => .ok (toString n)
      | .error .unreadable => .error (.notWhole t)
      | .error (.tooLong digits) => .error (.tooManyDigits mostDigits digits)

/-- A figure of a document in a message. -/
def figureTextOf : Json → Except Fault String
  | .whole n => do
    let _ ← Clock.ofWhole n
    return toString n
  | .measure x => .ok (figureText x)
  | .flag b => .ok (if b then "1" else "0")
  | .text t => typedFigureText t
  | _ => .error .wrongKind

/-- The text on a limit. -/
def limitText (limit : Text) (expected actual : String) (vehicleId : Text) : Text :=
  limit ++ " limit violation, expected: not more than " ++ expected ++ ", got: " ++ actual
    ++ ", vehicle id '" ++ vehicleId ++ "'"

/-- The text of a limit, a bound, a figure and a vehicle in a document. -/
def limitTextOf (vehicle limit expected actual : Json) : Except Fault Text := do
  return limitText limit.told (← figureTextOf expected) (← figureTextOf actual) vehicle.told

/-- The text of a violation. -/
def LimitViolation.message (v : LimitViolation Float) : Text :=
  limitText v.limit.name (figureText v.expected) (figureText v.actual) v.vehicleId

end Leftover
