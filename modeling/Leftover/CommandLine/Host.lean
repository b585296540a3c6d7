/-
# What a command works with

A command reads and writes files and looks at the clock. What these are is left open, so that a command can
be run on files that are only texts by name.

* `Host` : the operations
* `Shelf` : files as texts by name, with `Shelf.host`
-/
import Leftover.CommandLine.Path
import Leftover.Fault
import Leftover.Json.Reader

namespace Leftover

/-- What a path leads to. -/
inductive PathKind : Type where
  | missing
  | file
  | directory
  /-- A name on the way, or the whole path, is longer than can be looked up. -/
  | tooLong
  deriving DecidableEq

/-- The operations that a command needs. `makeWay` makes a directory and those that it lies in; the way to a file
has to be made before the file is written. -/
structure Host (m : Type → Type) where
  kindOf : Text → m PathKind
  read : Text → m String
  makeWay : Text → m (Except Fault Unit)
  write : Text → String → m (Except Fault Unit)
  now : m Float
  environment : List (String × String)

/-! ## Files as texts -/

/-- Files and directories by the plain paths of their spots. Only directories that may be empty are listed. -/
structure Shelf where
  files : List (Text × String)
  directories : List Text

namespace Shelf

/-- What is at a spot. Directories above the current one are always there, and those in which something is. -/
def kindAt (s : Shelf) (p : Path.Spot) : PathKind :=
  let paths := s.files.map (·.1) ++ s.directories
  if p.names.isEmpty || s.directories.contains p.path then .directory
  else if s.files.any (·.1 = p.path) then .file
  else if paths.any fun path => path.startsWith (p.path ++ "/") then .directory
  else .missing

/-- The spot that steps lead to, or what they lead to if there is no such spot. Every step has to start from a
directory, and a name is looked up only there. -/
def follow (s : Shelf) (here : Path.Spot) : List Text → Except PathKind Path.Spot
  | [] => .ok here
  | name :: rest =>
    if s.kindAt here ≠ .directory then .error .missing
    else if Path.isLongName name then .error .tooLong
    else s.follow (here.step name) rest

/-- The spot that a path leads to; no path at all leads nowhere. -/
def spot (s : Shelf) (path : Text) : Except PathKind Path.Spot :=
  if path.isEmpty then .error .missing
  else if Path.isLong path then .error .tooLong
  else s.follow (.start path) (Path.steps path)

/-- What a path leads to. -/
def kind (s : Shelf) (path : Text) : PathKind :=
  match s.spot path with
  | .ok p => s.kindAt p
  | .error kind => kind

/-- The text of a file. -/
def text? (s : Shelf) (path : Text) : Option String :=
  (s.spot path).toOption.bind fun p => (s.files.find? (·.1 = p.path)).map (·.2)

/-- The files with one more, or with another text in one. -/
def put (s : Shelf) (path : Text) (text : String) : Shelf :=
  { s with files := s.files.filter (·.1 ≠ path) ++ [(path, text)] }

/-- Texts given by any path as files. -/
def ofList (files : List (Text × String)) : Shelf :=
  files.foldl (fun s f => s.put (Path.normal f.1) f.2) ⟨[], []⟩

/-- How many directories are missing on the way that steps lead; none if something is in the way. -/
def gap (s : Shelf) (here : Path.Spot) : List Text → Nat
  | [] => 0
  | name :: rest =>
    if Path.isLongName name then 0
    else
      match s.kindAt (here.step name) with
      | .directory => s.gap (here.step name) rest
      | .missing => rest.length + 1
      | _ => 0

/-- The most directories that are made on one way, as many as the levels of a document. -/
def longestGap : Nat := Json.deepest

/-- The shelf with the missing directories on the way that steps lead. A file in the way ends it, and a long name. -/
def makeSteps (s : Shelf) (here : Path.Spot) : List Text → Except Fault Shelf
  | [] => .ok s
  | name :: rest =>
    let next := here.step name
    if Path.isLongName name then .error .pathTooLong
    else
      match s.kindAt next with
      | .file => .error (if rest.isEmpty then .fileExists else .notDirectory)
      | .missing => makeSteps { s with directories := next.path :: s.directories } next rest
      | _ => s.makeSteps next rest

/-- The shelf with the directory that a plain path leads to, and those on the way. -/
def makeWay (s : Shelf) (path : Text) : Except Fault Shelf :=
  if Path.isLong path then .error .pathTooLong
  else if longestGap < s.gap (.start path) (Path.names path) then .error .tooDeep
  else s.makeSteps (.start path) (Path.names path)

/-- The shelf after a text is written to a plain path that lies in a directory. -/
def write (s : Shelf) (path : Text) (text : String) : Except Fault Shelf :=
  match s.spot path with
  | .error .tooLong => .error .pathTooLong
  | .error _ => .error .notDirectory
  | .ok p => if s.kindAt p = .directory then .error .isDirectory else .ok (s.put p.path text)

/-- What became of changing a shelf, and the shelf after it; one that cannot be changed stays. -/
def changed (change : Shelf → Except Fault Shelf) : StateM Shelf (Except Fault Unit) := fun s =>
  match change s with
  | .ok next => (.ok (), next)
  | .error fault => (.error fault, s)

/-- A host that works on files as texts, and whose clock stands still. -/
def host (environment : List (String × String)) : Host (StateM Shelf) where
  kindOf path := fun s => (s.kind path, s)
  read path := fun s => ((s.text? path).getD "", s)
  makeWay path := changed (·.makeWay path)
  write path text := changed (·.write path text)
  now := pure 0.0
  environment := environment

end Shelf

end Leftover
