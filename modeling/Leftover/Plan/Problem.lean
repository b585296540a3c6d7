/-
# Problems

Jobs, the fleet, relations between them, and a travel matrix for each vehicle profile.

* `Problem.job`, `Problem.vehicle`, `Problem.matrixFor` : what an id stands for, or a fault
* `Problem.relationsFor` : the relations of a job
-/
import Leftover.Plan.Job
import Leftover.Plan.Names

namespace Leftover

/-! ## Relations -/

/-- What a relation locks: the vehicle only, also the order, or also that nothing comes between. -/
inductive RelationType : Type where
  | any
  | sequence
  | strict
  deriving DecidableEq, Repr, Inhabited

namespace RelationType

/-- The types, in the order in which a message lists them. -/
def all : List RelationType := [any, sequence, strict]

/-- The written type. -/
def name : RelationType → String
  | any => "any"
  | sequence => "sequence"
  | strict => "strict"

end RelationType

/-- A list of jobs locked to a vehicle. -/
structure Relation where
  type : RelationType
  jobs : List Text
  vehicleId : Text
  deriving DecidableEq

/-! ## Problems -/

/-- Everything a plan is made for. -/
structure Problem (α : Type) where
  jobs : List (Job α)
  fleet : List (Vehicle α)
  relations : List Relation
  matrices : List (Text × Matrix α)
  deriving DecidableEq

namespace Problem

variable {α : Type}

/-- The problem with its numbers changed. -/
def map {β : Type} (f : α → β) (p : Problem α) : Problem β :=
  { p with
    jobs := p.jobs.map (·.map f)
    fleet := p.fleet.map (·.map f)
    matrices := p.matrices.map fun (profile, m) => (profile, m.map f) }

/-- The job with an id. -/
def job? (p : Problem α) (id : Text) : Option (Job α) := p.jobs.find? (·.id = id)

/-- The job with an id, or a fault. -/
def job (p : Problem α) (id : Text) : Except Fault (Job α) :=
  match p.job? id with
  | some j => .ok j
  | none => .error (.unknownJob id)

/-- The place of a job in the order of the problem. -/
def jobPlace (p : Problem α) (id : Text) : Nat := (lastOf? (p.jobs.zipIdx.map fun entry => (entry.1.id, entry.2)) id).getD 0

/-- The vehicle with an id. -/
def vehicle? (p : Problem α) (id : Text) : Option (Vehicle α) := p.fleet.find? (·.id = id)

/-- The vehicle with an id, or a fault. -/
def vehicle (p : Problem α) (id : Text) : Except Fault (Vehicle α) :=
  match p.vehicle? id with
  | some v => .ok v
  | none => .error (.unknownVehicle id)

/-- The travel matrix of a vehicle's profile, or a fault. -/
def matrixFor (p : Problem α) (v : Vehicle α) : Except Fault (Matrix α) :=
  match p.matrices.find? (·.1 = v.profile) with
  | some (_, m) => .ok m
  | none => .error (.noMatrix v.profile v.id)

/-- The ids of the vehicles, in fleet order. -/
def fleetIds (p : Problem α) : List Text := p.fleet.map (·.id)

/-- The relations that list a job, each as often as it lists the job. -/
def relationsFor (p : Problem α) (id : Text) : List Relation :=
  p.relations.flatMap fun r => List.replicate (r.jobs.count id) r

/-- The relations locked to a vehicle. -/
def relationsOf (p : Problem α) (vehicleId : Text) : List Relation :=
  p.relations.filter (·.vehicleId = vehicleId)

/-- The first id that occurs a second time in a list. -/
def firstRepeated? : List Text → List Text → Option Text
  | _, [] => none
  | seen, id :: rest => if seen.contains id then some id else firstRepeated? (id :: seen) rest

end Problem

end Leftover
