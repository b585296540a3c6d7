/-
# Names

Sets of names, and values given by name.

* `nameSet` : names in ascending order, without repeats
* `lastOf?` : the value given last for a name
* `placeIn` : the place of a name in a list of names
-/
import Leftover.Text

namespace Leftover

/-- A name put in its place among names in ascending order, unless it is there already. -/
def insertName (name : Text) : List Text → List Text
  | [] => [name]
  | n :: rest =>
    if name < n then name :: n :: rest
    else if name = n then n :: rest
    else n :: insertName name rest

/-- Names in ascending order of code points, without repeats. -/
def nameSet (names : List Text) : List Text := names.foldl (fun done name => insertName name done) []

theorem mem_insertName {x name : Text} {names : List Text} :
    x ∈ insertName name names ↔ x = name ∨ x ∈ names := by
  induction names with
  | nil => simp [insertName]
  | cons n rest ih =>
    rw [insertName]
    split
    · simp
    · split
      · rename_i h
        simp [h]
      · rw [List.mem_cons, ih, List.mem_cons]
        exact or_left_comm

theorem mem_foldl_insertName {x : Text} {names done : List Text} :
    x ∈ names.foldl (fun done name => insertName name done) done ↔ x ∈ done ∨ x ∈ names := by
  induction names generalizing done with
  | nil => simp
  | cons n rest ih =>
    rw [List.foldl_cons, ih, mem_insertName, List.mem_cons, or_comm (a := x = n), or_assoc]

/-- A set of names holds the names that it is made of. -/
theorem mem_nameSet {x : Text} {names : List Text} : x ∈ nameSet names ↔ x ∈ names := by
  rw [nameSet, mem_foldl_insertName]
  simp

/-- The value given last for a name. -/
def lastOf? {β : Type} (entries : List (Text × β)) (name : Text) : Option β :=
  (entries.reverse.find? (·.1 = name)).map (·.2)

/-- The place of a name in a list of names, the last one if it occurs more than once. A name that does not
occur, or none at all, comes after all of them. -/
def placeIn (names : List Text) (name : Option Text) : Nat :=
  (name.bind (lastOf? names.zipIdx)).getD (nameSet names).length

end Leftover
