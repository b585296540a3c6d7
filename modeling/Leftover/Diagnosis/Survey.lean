/-
# Surveying a vehicle

A job is tried at every position of a vehicle's route that it can be reached from and left again. A
constraint that cannot be judged does not count as violated, but is warned about.

* `Attempt.consult` : what a constraint says at a position
* `Attempt.openPositions` : the positions with paths to the job and on from it
* `Attempt.trial` : the violations at a position, or the first of them
* `survey` : the outcome for the vehicle, with the warnings of the checks
-/
import Leftover.Check.Catalog
import Leftover.Diagnosis.Trial
import Leftover.Diagnosis.Warning
import Leftover.Settings

namespace Leftover

variable {α : Type} [Quantity α] [Plane α]

/-! ## Consulting constraints -/

/-- A job that is to be put into a route, and the checks that are made. `exhaustive` makes all of them at
every position; otherwise a position is left at its first violation. -/
structure Attempt (α : Type) [Quantity α] where
  problem : Problem α
  catalog : Catalog
  exhaustive : Bool
  job : Job α
  state : RouteState α

namespace Attempt

/-- The insertion at a position. -/
def insertion (a : Attempt α) (position : Nat) : Insertion α := ⟨a.job, a.state, position, a.problem⟩

/-- What a constraint says at a position, nothing when it cannot be judged. -/
def consult (a : Attempt α) (position : Nat) (r : Reason) : Observed α (Option (Evidence α)) :=
  match (a.insertion position).check r with
  | .ok evidence => pure (some evidence)
  | .error fault =>
    if fault.ends then .ofExcept (.error fault)
    else do
      .warn [.notEvaluable r a.job.id a.state.vehicle.id position]
      return none

/-- The constraint is not known to be violated. -/
def isKept (evidence : Option (Evidence α)) : Bool := evidence.all Evidence.isSatisfied

/-- The positions among some with paths to the job and on from it. -/
def openAmong (a : Attempt α) : List Nat → Observed α (List Nat)
  | [] => pure []
  | k :: rest => do
    let evidence ← a.consult k .reachable
    let others ← a.openAmong rest
    return if isKept evidence then k :: others else others

/-- The positions with paths to the job and on from it, as far as that is checked. -/
def openPositions (a : Attempt α) : Observed α (List Nat) :=
  if a.catalog.contains .reachable then a.openAmong a.state.positions else pure a.state.positions

/-! ## Trials -/

/-- What is known about a whole route: the answers of the checks that do not depend on the position. -/
abbrev Known (α : Type) : Type := List (Reason × Option (Evidence α))

/-- What some constraints say at a position. -/
def consultAll (a : Attempt α) (position : Nat) : List Reason → Observed α (Known α)
  | [] => pure []
  | r :: rest => do
    let evidence ← a.consult position r
    let others ← a.consultAll position rest
    return (r, evidence) :: others

/-- What a constraint says at a position, taken from what is known if it is known. -/
def recalled (a : Attempt α) (known : Known α) (position : Nat) (r : Reason) : Observed α (Option (Evidence α)) :=
  match known.lookup r with
  | some evidence => pure evidence
  | none => a.consult position r

/-- The trial of some constraints at a position. A hasty one is broken off at its first violation. -/
def trialOf (a : Attempt α) (known : Known α) (hasty : Bool) (position : Nat) : List Reason → Observed α (Trial α)
  | [] => pure ⟨position, [], true⟩
  | r :: rest => do
    match ← a.recalled known position r with
    | some (.violated severity) =>
      if hasty then return ⟨position, [(r, severity)], false⟩
      else do
        let others ← a.trialOf known hasty position rest
        return others.blame r severity
    | _ => a.trialOf known hasty position rest

/-- The trial at a position. -/
def trial (a : Attempt α) (known : Known α) (hasty : Bool) (position : Nat) : Observed α (Trial α) :=
  a.trialOf known hasty position a.catalog.gated

/-- The trials at some positions. -/
def trialsAt (a : Attempt α) (known : Known α) (hasty : Bool) : List Nat → Observed α (List (Trial α))
  | [] => pure []
  | k :: rest => do
    let t ← a.trial known hasty k
    let others ← a.trialsAt known hasty rest
    return t :: others

/-- The trials made at the open positions: complete ones everywhere; or hasty ones, and then a complete one where
the obstacle is least, unless nothing stands in the way there. -/
def trials (a : Attempt α) (known : Known α) (positions : List Nat) : Observed α (List (Trial α)) :=
  if a.exhaustive then a.trialsAt known false positions
  else do
    let hasty ← a.trialsAt known true positions
    let least ← .ofExcept (Trial.nearest Trial.compareObstacle hasty)
    if least.complete then return hasty
    else do
      let again ← a.trial known false least.position
      return hasty ++ [again]

/-! ## Outcomes -/

/-- The outcome for a vehicle that the job cannot be reached by. -/
def outOfReach (vehicleId : Text) : VehicleOutcome α :=
  ⟨vehicleId, [⟨.reachable, .violated none, some vehicleId, none⟩], true, false⟩

/-- The outcome for a vehicle of which a trial is shown. -/
def outcomeOf (vehicleId : Text) (shown : Trial α) : VehicleOutcome α :=
  ⟨vehicleId, shown.records vehicleId, false, shown.isFree⟩

/-- The trial that is shown: of the complete ones the closest. -/
def shown (a : Attempt α) (first : Nat) (rest : List Nat) : Observed α (Trial α) := do
  let known ← a.consultAll first a.catalog.routeWide
  let made ← a.trials known (first :: rest)
  .ofExcept (Trial.nearest Trial.compareClosest (made.filter (·.complete)))

end Attempt

/-- The outcome for a job and a vehicle, with the warnings of the checks that it rests on. -/
def survey (a : Attempt α) : Observed α (VehicleOutcome α) := do
  match ← a.openPositions with
  | [] => return Attempt.outOfReach a.state.vehicle.id
  | first :: rest => do
    let shown ← a.shown first rest
    return Attempt.outcomeOf a.state.vehicle.id shown

end Leftover
