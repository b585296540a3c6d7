/-
# Travel matrices

Two square tables over the same locations: minutes and meters from each location to each other. An entry
that is missing, negative, infinite or undefined means that there is no path.

* `Matrix.make` : tables of one size as a matrix
* `Matrix.duration`, `Matrix.distance` : a leg's minutes and meters, infinite without a path
* `Matrix.isReachable` : a leg has both
-/
import Leftover.Fault
import Leftover.Quantity

namespace Leftover

/-- A point on the globe. -/
structure Coordinates (α : Type) where
  lat : α
  lon : α
  deriving DecidableEq

/-- The point with its coordinates changed. -/
def Coordinates.map {α β : Type} (f : α → β) (c : Coordinates α) : Coordinates β := ⟨f c.lat, f c.lon⟩

/-- Minutes and meters between locations; the row is where a leg starts, the column where it ends. -/
structure Matrix (α : Type) where
  durations : List (List (Option α))
  distances : List (List (Option α))
  deriving DecidableEq

namespace Matrix

variable {α : Type}

/-- The matrix with its entries changed. -/
def map {β : Type} (f : α → β) (m : Matrix α) : Matrix β :=
  ⟨m.durations.map fun row => row.map (·.map f), m.distances.map fun row => row.map (·.map f)⟩

/-- The number of locations. -/
def size (m : Matrix α) : Nat := m.durations.length

/-- Two tables as a matrix, if both are square and of one size. -/
def make (durations distances : List (List (Option α))) : Except Fault (Matrix α) :=
  if durations.length ≠ distances.length then
    .error (.matrixSizes durations.length distances.length)
  else
    match (durations ++ distances).find? (fun row => row.length ≠ durations.length) with
    | some row => .error (.matrixRow row.length durations.length)
    | none => .ok ⟨durations, distances⟩

/-- The entry in a row and column of a table. -/
def cell (table : List (List (Option α))) (origin destination : Nat) : Except Fault (Option α) :=
  match table[origin]? with
  | none => .error .outsideMatrix
  | some row =>
    match row[destination]? with
    | none => .error .outsideMatrix
    | some x => .ok x

variable [Quantity α]

/-- The figure of an entry, infinite when the entry means that there is no path. -/
def figure : Option α → α
  | none => Quantity.infinity
  | some x => if x < 0 ∨ Quantity.isUndefined x then Quantity.infinity else x

/-- The figure in a row and column of a table. -/
def entry (table : List (List (Option α))) (origin destination : Nat) : Except Fault α :=
  (cell table origin destination).map figure

/-- The minutes of a leg. -/
def duration (m : Matrix α) (origin destination : Nat) : Except Fault α :=
  entry m.durations origin destination

/-- The meters of a leg. -/
def distance (m : Matrix α) (origin destination : Nat) : Except Fault α :=
  entry m.distances origin destination

/-- The figure is known and finite. -/
def isKnown : Except Fault α → Bool
  | .ok x => Quantity.isFinite x
  | .error _ => false

/-- The leg has finite minutes and meters. A location outside the matrix is not reachable. -/
def isReachable (m : Matrix α) (origin destination : Nat) : Bool :=
  decide (origin < m.size) && decide (destination < m.size)
    && isKnown (m.duration origin destination) && isKnown (m.distance origin destination)

end Matrix

end Leftover
