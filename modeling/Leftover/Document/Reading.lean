/-
# Reading a document

A reading of a document gives a value, or all issues that it has, or stops at a fault. Readings of the
fields of an object are combined so that the issues of all fields are collected, in the order of the fields.

* `Reading` : the outcome, with `map` and `both` to combine outcomes
* `Fields.required`, `Fields.withDefault` : readings of one field
* `readText`, `readWhole`, `readMeasure`, `readFlag`, `readName` : single values
* `readList`, `readSet`, `readDictionary` : many values
-/
import Leftover.Fault
import Leftover.Json.Value
import Leftover.Document.NumberText
import Leftover.Double
import Leftover.Plan.Solution

namespace Leftover

/-! ## Outcomes -/

/-- What became of reading a document. -/
inductive Reading (β : Type) : Type where
  | value (b : β)
  | issues (list : List Issue)
  | stopped (fault : Fault)

namespace Reading

variable {β γ : Type}

/-- The outcome with its value changed. -/
def map (f : β → γ) : Reading β → Reading γ
  | value b => value (f b)
  | issues list => issues list
  | stopped fault => stopped fault

/-- A function and its argument, both read; the issues of both are kept, and a fault of the first one
stops everything. -/
def both : Reading (β → γ) → Reading β → Reading γ
  | stopped fault, _ => stopped fault
  | value _, stopped fault => stopped fault
  | issues _, stopped fault => stopped fault
  | value f, value b => value (f b)
  | value _, issues list => issues list
  | issues list, value _ => issues list
  | issues list, issues more => issues (list ++ more)

/-- The outcome checked further, when it is a value. -/
def andThen (r : Reading β) (f : β → Reading γ) : Reading γ :=
  match r with
  | value b => f b
  | issues list => issues list
  | stopped fault => stopped fault

/-- The outcome seen from one level further out. -/
def below (step : Text) : Reading β → Reading β
  | issues list => issues (list.map (Issue.below step))
  | r => r

/-- One issue at the place itself. -/
def complain (c : Complaint) : Reading β := issues [⟨[], c⟩]

/-- The value, or the fault that stands for the outcome. -/
def toExcept : Reading β → Except Fault β
  | value b => .ok b
  | issues list => .error (.invalid list)
  | stopped fault => .error fault

instance : Functor Reading := ⟨map, fun b => map fun _ => b⟩
instance : Pure Reading := ⟨value⟩
instance : Seq Reading := ⟨fun f b => both f (b ())⟩

end Reading

open Reading

/-! ## Fields of an object -/

/-- The fields of an object. -/
abbrev Fields := List (Text × Json)

namespace Fields

variable {β : Type}

/-- A field that must be there. -/
def required (fields : Fields) (name : String) (read : Json → Reading β) : Reading β :=
  match Json.lookup? name fields with
  | some v => (read v).below name
  | none => issues [⟨[name], .fieldRequired⟩]

/-- A field that has a value without being there. -/
def withDefault (fields : Fields) (name : String) (fallback : β) (read : Json → Reading β) : Reading β :=
  match Json.lookup? name fields with
  | some v => (read v).below name
  | none => value fallback

end Fields

/-- An object, or a complaint. -/
def readFields {β : Type} (complaint : Complaint) (read : Fields → Reading β) : Json → Reading β
  | .record fields => read fields
  | _ => complain complaint

/-! ## Single values -/

/-- A value that may be null. -/
def readOptional {β : Type} (read : Json → Reading β) : Json → Reading (Option β)
  | .null => value none
  | v => (read v).map some

/-- The outcome of reading a text or a number. -/
def ofComplaint {β : Type} : Except Complaint β → Reading β
  | .ok b => value b
  | .error c => complain c

/-- A text. -/
def readText : Json → Reading Text
  | .text t => value t
  | _ => complain .wantsText

/-- The string of a text that has one. -/
def readString (t : Text) : Reading String :=
  match t.toString? with
  | some s => value s
  | none => complain .notUnicode

/-- The whole number lies strictly within 63 bits on either side of zero. -/
def isWithinWord (n : Int) : Bool := n.natAbs < twoTo 63

/-- A whole number: as such, as a flag, as a number without a fraction and within 63 bits, or as a text. -/
def readWhole : Json → Reading Int
  | .whole n => value n
  | .flag b => value (if b then 1 else 0)
  | .measure x =>
    match Dyadic.ofFloat? x with
    | none => complain .wantsFinite
    | some d =>
      match d.toInt? with
      | some n => if isWithinWord n then value n else complain .wholeTooLarge
      | none => complain .wholeFractional
  | .text t => ofComplaint (wholeOfText t)
  | _ => complain .wantsWhole

/-- A measured number: any number within range, a flag, or a text that reads as a number. -/
def readMeasure : Json → Reading Float
  | .measure x => value x
  | .whole n =>
    let x := Float.ofInt n
    if x.isFinite then value x else complain .wantsMeasure
  | .flag b => value (if b then 1.0 else 0.0)
  | .text t => ofComplaint (measureOfText t)
  | _ => complain .wantsMeasure

/-- The words for yes and no. -/
def flagOfWord? (word : String) : Option Bool :=
  let word := word.toLower
  if ["1", "t", "y", "yes", "on", "true"].contains word then some true
  else if ["0", "f", "n", "no", "off", "false"].contains word then some false
  else none

/-- The flag that a whole number stands for. -/
def flagOfWhole (n : Int) : Reading Bool :=
  if n = 0 then value false else if n = 1 then value true else complain .flagUnreadable

/-- A flag: as such, as zero or one, or as a word for yes or no. -/
def readFlag : Json → Reading Bool
  | .flag b => value b
  | .whole n => if isWithinWord n || n = -(twoTo 63 : Int) then flagOfWhole n else complain .wantsFlag
  | .measure x =>
    match (Dyadic.ofFloat? x).bind Dyadic.toInt? with
    | some n => if isWithinWord n then flagOfWhole n else complain .wantsFlag
    | none => complain .wantsFlag
  | .text t =>
    (readString t).andThen fun word =>
      match flagOfWord? word with
      | some b => value b
      | none => complain .flagUnreadable
  | _ => complain .wantsFlag

/-- One of a family of named values. -/
def readName {β : Type} (family : List β) (name : β → String) : Json → Reading β
  | .text t =>
    (readString t).andThen fun s =>
      match family.find? (fun b => name b = s) with
      | some b => value b
      | none => complain (.notOneOf (family.map name))
  | _ => complain (.notOneOf (family.map name))

/-! ## Bounds -/

/-- A whole number that is not negative. -/
def readNat (v : Json) : Reading Nat :=
  (readWhole v).andThen fun n => if 0 ≤ n then value n.toNat else complain (.tooSmall 0)

/-- A measured number that is not negative. -/
def readNonNegative (v : Json) : Reading Float :=
  (readMeasure v).andThen fun x => if 0.0 ≤ x then value x else complain (.tooSmall 0)

/-- A measured number that is positive. -/
def readPositive (v : Json) : Reading Float :=
  (readMeasure v).andThen fun x => if 0.0 < x then value x else complain (.notAbove 0)

/-! ## Many values -/

/-- Values read one after the other, the issues of each below its number. -/
def readItems {β : Type} (read : Json → Reading β) : Nat → List Json → Reading (List β)
  | _, [] => value []
  | k, v :: rest => both (((read v).below (toString k : String)).map List.cons) (readItems read (k + 1) rest)

/-- A list of values. -/
def readList {β : Type} (read : Json → Reading β) : Json → Reading (List β)
  | .list items => readItems read 0 items
  | _ => complain .wantsList

/-- A set of names. -/
def readSet : Json → Reading (List Text)
  | .list items => (readItems readText 0 items).map nameSet
  | _ => complain .wantsSet

/-- A pair of values given as a list of two. -/
def readPair {β : Type} (read : Json → Reading β) : Json → Reading (β × β)
  | .list items =>
    match items with
    | [] => issues [⟨["0"], .fieldRequired⟩, ⟨["1"], .fieldRequired⟩]
    | [a] => both (((read a).below "0").map fun _ b => b) (issues [⟨["1"], .fieldRequired⟩])
    | [a, b] => both (((read a).below "0").map Prod.mk) ((read b).below "1")
    | _ => complain (.tooLong 2 items.length)
  | _ => complain .wantsPair

/-- The values of an object's fields, the issues of each below its name. -/
def readEntries {β : Type} (read : Json → Reading β) : Fields → Reading (List (Text × β))
  | [] => value []
  | (key, v) :: rest =>
    both (((read v).below key).map fun b => List.cons (key, b)) (readEntries read rest)

/-- Values by name. -/
def readDictionary {β : Type} (read : Json → Reading β) : Json → Reading (List (Text × β)) :=
  readFields .wantsDictionary (readEntries read)

end Leftover
