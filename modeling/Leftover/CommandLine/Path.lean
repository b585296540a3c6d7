/-
# Paths

A path is a text with slashes between the names of directories. Different texts may stand for one path, and a
path may lead out of the current directory.

* `systemText` : a text as the system takes it, for paths and for variables
* `Path.normal` : the plain text of a path
* `Path.steps` : the names that are gone through one by one
* `Path.Spot` : where steps lead to
-/
import Leftover.Fault
import Leftover.Text.Bytes

namespace Leftover

/-- A text as the system takes it. Two texts are the same there when their bytes are, and no byte is zero. -/
def systemText (t : Text) : Except Fault Text :=
  match t.bytes? with
  | none => .error .unwritable
  | some bytes => if bytes.contains 0 then .error .textCutShort else .ok (.ofBytes bytes)

namespace Path

/-! ## Texts of paths -/

/-- Code points cut at each slash. -/
def splitPoints : List CodePoint → List CodePoint × List (List CodePoint)
  | [] => ([], [])
  | p :: rest =>
    let (part, parts) := splitPoints rest
    if p = .ofChar '/' then ([], part :: parts) else (p :: part, parts)

/-- The parts of a path between slashes, those without a text left out. -/
def parts (path : Text) : List Text :=
  let (part, parts) := splitPoints path.points
  ((part :: parts).map Text.mk).filter (!·.isEmpty)

/-- The names in a path, without those that stand for the same directory. -/
def names (path : Text) : List Text := (parts path).filter (· ≠ ".")

/-- What a path begins with: nothing, or slashes when it does not depend on the current directory. Two
slashes are kept, more than two count as one. -/
def root (path : Text) : Text :=
  if path.startsWith "//" && !path.startsWith "///" then "//"
  else if path.startsWith "/" then "/"
  else ""

/-- A path from what it begins with and its names. -/
def ofNames (root : Text) (names : List Text) : Text :=
  if root.isEmpty && names.isEmpty then "." else root ++ Text.intercalate "/" names

/-- The plain text of a path. -/
def normal (path : Text) : Text := ofNames (root path) (names path)

/-- The directory that a path lies in. -/
def parent (path : Text) : Text := ofNames (root path) (names path).dropLast

/-- The names in a path as they are gone through. A slash at the end asks for a directory, as a dot does. -/
def steps (path : Text) : List Text :=
  parts path ++ if path.points.getLast? = some (.ofChar '/') then [Text.ofString "."] else []

/-- The path is longer than a file system takes. -/
def isLong (path : Text) : Bool := 4095 < path.byteLength

/-- The name is longer than a directory takes. -/
def isLongName (name : Text) : Bool := 255 < name.byteLength

/-! ## Where paths lead -/

/-- A spot among the directories: from a root, or so many levels up from the current directory, down through
directories by name. -/
structure Spot where
  root : Text
  levelsUp : Nat
  names : List Text
  deriving DecidableEq

namespace Spot

/-- Where a path begins. -/
def start (path : Text) : Spot := ⟨Path.root path, 0, []⟩

/-- The spot that one more name leads to; two dots lead to the directory above, and a root has none. -/
def step (p : Spot) (name : Text) : Spot :=
  if name = "." then p
  else if name ≠ ".." then { p with names := p.names ++ [name] }
  else if !p.names.isEmpty then { p with names := p.names.dropLast }
  else if p.root.isEmpty then { p with levelsUp := p.levelsUp + 1 }
  else p

/-- The plain path of a spot. -/
def path (p : Spot) : Text := ofNames p.root (List.replicate p.levelsUp (Text.ofString "..") ++ p.names)

end Spot
end Path
end Leftover
