/-
# JSON values

Documents as they are read and written. Whole numbers and measured numbers are kept apart, and an object
keeps its fields in the order in which they were first given.

* `Json` : the values
* `Json.field?` : a field of an object
* `Json.putField` : the fields of an object with one set
* `Json.parts?` : what a value is made up of
-/
import Leftover.Text

namespace Leftover

/-- A JSON value. -/
inductive Json : Type where
  | null
  | flag (value : Bool)
  | whole (value : Int)
  | measure (value : Float)
  | text (value : Text)
  | list (items : List Json)
  | record (fields : List (Text × Json))
  deriving Inhabited

namespace Json

/-! ## Fields -/

/-- The value of a field in a list of fields. -/
def lookup? (key : Text) (fields : List (Text × Json)) : Option Json :=
  (fields.find? (·.1 = key)).map (·.2)

/-- A field of an object; other values have none. -/
def field? (key : Text) : Json → Option Json
  | record fields => lookup? key fields
  | _ => none

/-- Fields with one set: in its old place when the name occurs, at the end when not. -/
def putField (key : Text) (value : Json) : List (Text × Json) → List (Text × Json)
  | [] => [(key, value)]
  | f :: rest => if f.1 = key then (key, value) :: rest else f :: putField key value rest

/-- Fields in the order in which their names first occur, each with the value given last. -/
def collectFields (fields : List (Text × Json)) : List (Text × Json) :=
  fields.foldl (fun done f => putField f.1 f.2 done) []

/-! ## Parts -/

/-- What a value is made up of: the items of a list, the code points of a text or the names of fields. A single value
has no parts. -/
def parts? : Json → Option (List Json)
  | list items => some items
  | text t => some (t.points.map fun p => text ⟨[p]⟩)
  | record fields => some (fields.map fun f => text f.1)
  | _ => none

/-! ## Building values -/

/-- A value that may be absent. -/
def ofOption {β : Type} (encode : β → Json) : Option β → Json
  | none => null
  | some b => encode b

/-- A list of values. -/
def ofList {β : Type} (encode : β → Json) (items : List β) : Json := list (items.map encode)

/-- A list of texts. -/
def texts (items : List Text) : Json := ofList text items

end Json

end Leftover
