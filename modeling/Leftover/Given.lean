/-
# Values as steps are given them

A single step takes its numbers and positions as they come, without a document around them. What is no
number, or no position, is a fault only where it is used as one.

* `Given.job`, `Given.vehicle` : what a value names
* `Given.number`, `Given.position` : what a value is used as
* `Given.overrun`, `Given.contains`, `Given.serviceStart` : single questions about times
* `Given.Tables` : two tables of the right shape, whatever their entries are
* `Given.entry`, `Given.isReachable` : single questions about tables
* `Given.origin`, `Given.route`, `Given.insertion` : the route of a vehicle
-/
import Leftover.Check.Insertion
import Leftover.Document.Writer
import Leftover.Json.Shown
import Leftover.Number

namespace Leftover
namespace Given

/-! ## Names -/

/-- A value used as the name of something. Any single value may be asked for, but only texts are names. -/
def name (unknown : Text → Fault) : Json → Except Fault Text
  | .text t => .ok t
  | .list _ | .record _ => .error .wrongKind
  | v => .error (unknown v.told)

/-- The job that a value names. -/
def job {α : Type} (p : Problem α) (v : Json) : Except Fault (Job α) := do p.job (← name .unknownJob v)

/-- The vehicle that a value names. -/
def vehicle {α : Type} (p : Problem α) (v : Json) : Except Fault (Vehicle α) := do
  p.vehicle (← name .unknownVehicle v)

/-! ## Numbers and positions -/

/-- A value used as a number. -/
def number : Json → Except Fault Number
  | .flag b => .ok (.flag b)
  | .whole n => .ok (.whole n)
  | .measure x => .ok (.measure x)
  | _ => .error .wrongKind

/-- A value used as a number, if there is one. -/
def number? : Json → Except Fault (Option Number)
  | .null => .ok none
  | v => some <$> number v

/-- A value used as a position: a whole number, or a flag. -/
def position : Json → Except Fault Int
  | .flag b => .ok (if b then 1 else 0)
  | .whole n => .ok n
  | _ => .error .wrongKind

/-- A number is within the range of the sizes of lists and of positions in them. -/
def isListSize (n : Int) : Bool := decide (-(twoTo 63 : Int) ≤ n) && decide (n < (twoTo 63 : Int))

/-- A value used as the position at which something is put into a list. -/
def listPosition (v : Json) : Except Fault Int := do
  let k ← position v
  if isListSize k then return k else throw .positionTooLarge

/-- How often something is repeated, if there is room for that. -/
def repeated (n : Int) : Except Fault Nat :=
  if !isListSize n then .error .positionTooLarge
  else if (twoTo 34 : Int) ≤ n then .error .outOfMemory
  else .ok n.toNat

/-! ## Times -/

/-- How much an insertion pushes a route beyond a limit. What the limit was exceeded by before has to have a
place among doubles. -/
def overrun (after before : Json) : Except Fault Number := do
  let before ← (← number before).bounded
  (addedOverrun (← number after) before).settled

/-- The time lies in the window. -/
def contains (w : Window Number) (time : Json) : Except Fault Bool := do return w.contains (← number time)

/-- When the service of a job starts after an arrival, and how late it is. A job without windows starts on
arrival, whatever that is. -/
def serviceStart (job : Job Number) (arrival : Json) : Except Fault (Json × Number) :=
  if job.windows.isEmpty then .ok (arrival, 0)
  else do
    let (start, late) := Leftover.serviceStart job (← number arrival)
    return (document start, ← late.settled)

/-! ## Tables -/

/-- The parts of a value that has to have some. -/
def parts (v : Json) : Except Fault (List Json) :=
  match v.parts? with
  | some parts => .ok parts
  | none => .error .wrongKind

/-- Two tables of which only the shape is known: as many rows as each row has entries. -/
structure Tables where
  durations : Json
  distances : Json

namespace Tables

/-- Two values as tables, if their shape is right. -/
def make (durations distances : Json) : Except Fault Tables := do
  let rows ← parts durations
  let more ← parts distances
  if rows.length ≠ more.length then throw (.matrixSizes rows.length more.length)
  (rows ++ more).forM fun row => do
    let entries ← parts row
    if entries.length ≠ rows.length then throw (.matrixRow entries.length rows.length)
  return ⟨durations, distances⟩

/-- The tables of a matrix. -/
def ofMatrix (m : Matrix Json) : Tables :=
  let table (rows : List (List (Option Json))) : Json := .ofList (.ofList (Json.ofOption id)) rows
  ⟨table m.durations, table m.distances⟩

/-- The number of rows. -/
def size (t : Tables) : Nat := (t.durations.parts?.getD []).length

end Tables

/-- The part of a value at a position, or the field with a name. -/
def part (v place : Json) : Except Fault Json :=
  match v, place with
  | .record fields, .text key => (Json.lookup? key fields).elim (.error .noSuchField) .ok
  | .record _, .list _ | .record _, .record _ => .error .wrongKind
  | .record _, _ => .error .noSuchField
  | v, place => do
    match itemAt? (← parts v) (← position place) with
    | some item => return item
    | none => throw .outsideMatrix

/-- The figure of an entry. -/
def figure : Json → Except Fault Float
  | .null => .ok Quantity.infinity
  | v => do
    match (Matrix.figure (some (← number v))).double? with
    | some x => return x
    | none => throw .numberTooLarge

/-- The figure at a pair of positions in a table. -/
def entry (table origin destination : Json) : Except Fault Float := do
  figure (← part (← part table origin) destination)

/-- The number lies in a range of places that begins with zero. -/
def isPlace (size : Nat) (v : Json) : Except Fault Bool := do
  let n ← number v
  return decide (Number.whole 0 ≤ n) && decide (n < Number.whole size)

/-- The leg has finite minutes and meters. A place outside the tables is not reachable. -/
def isReachable (t : Tables) (origin destination : Json) : Except Fault Bool := do
  if !(← isPlace t.size origin) then return false
  if !(← isPlace t.size destination) then return false
  if !(← entry t.durations origin destination).isFinite then return false
  return (← entry t.distances origin destination).isFinite

/-! ## Routes -/

/-- Where the route of a vehicle begins. Without a dispatch it begins at the given time, whatever that is. -/
def origin (v : Vehicle Number) (m : Matrix Number) (startTime : Json) : Except Fault (Place Json) := do
  let known ← v.origin m none
  let time ← match startTime, v.dispatch with
    | .null, _ => pure (document known.time)
    | given, none => pure given
    | given, some _ => do pure (document (← v.origin m (some (← number given))).time)
  return ⟨known.location, time, document known.distance⟩

/-- The route of a vehicle through jobs. It begins at a time that has a place among doubles. -/
def route (v : Vehicle Number) (m : Matrix Number) (jobs : List (Job Number)) (startTime : Json) :
    Except Fault (RouteState Number) := do
  let start ← origin v m startTime
  let time ← (← number start.time).bounded
  RouteState.ofOrigin v m jobs { ← v.origin m none with time := time }

/-- The schedule with a job inserted at a position of the route. -/
def insertion {α : Type} [Quantity α] (s : RouteState α) (job : Job α) (place : Json) :
    Except Fault (Schedule α) := do
  let n ← number place
  if Number.whole 0 ≤ n ∧ n ≤ Number.whole s.size then s.insertion job (← position place)
  else throw (.outsideRoute place.shown s.size)

/-- The capacity in at least so many dimensions. -/
def capacity (s : RouteState Number) (dims : Json) : Except Fault (List Number) := do
  let count ← position dims
  let _ ← repeated (count - s.vehicle.capacity.length)
  return s.capacity count.toNat

end Given
end Leftover
