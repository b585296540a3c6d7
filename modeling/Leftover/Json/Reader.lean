/-
# Reading JSON

A text is read as one value with white space around it. Besides the numbers of the standard the words
`NaN`, `Infinity` and `-Infinity` are read, and half of a surrogate pair may stand on its own. Reading goes by
fuel that the length of the text always covers.

* `Json.readValue` : the value at the head of a text, and the rest
* `Json.read` : the value of a whole text, or what is wrong with it
-/
import Leftover.Json.Value
import Leftover.Decimal.Numeral

namespace Leftover
namespace Json

/-! ## Pieces -/

/-- White space between the pieces of a document. -/
def isSpace (c : Char) : Bool := c = ' ' || c = '\t' || c = '\n' || c = '\r'

/-- The text after its leading white space. -/
def skipSpace (input : List Char) : List Char := input.dropWhile isSpace

/-- The rest of a text that begins with a word. -/
def afterWord? : List Char → List Char → Option (List Char)
  | [], input => some input
  | w :: word, c :: input => if w = c then afterWord? word input else none
  | _ :: _, [] => none

/-- The value of a hexadecimal digit. -/
def hexValue? (c : Char) : Option Nat :=
  if '0' ≤ c ∧ c ≤ '9' then some (c.toNat - '0'.toNat)
  else if 'a' ≤ c ∧ c ≤ 'f' then some (c.toNat - 'a'.toNat + 10)
  else if 'A' ≤ c ∧ c ≤ 'F' then some (c.toNat - 'A'.toNat + 10)
  else none

/-- The sixteen-bit unit of four hexadecimal digits. -/
def unit? (a b c d : Char) : Option Nat :=
  match hexValue? a, hexValue? b, hexValue? c, hexValue? d with
  | some a, some b, some c, some d => some (4096 * a + 256 * b + 16 * c + d)
  | _, _, _, _ => none

/-- The character of an escape that has one letter. -/
def shortEscape? (c : Char) : Option Char :=
  if c = '"' ∨ c = '\\' ∨ c = '/' then some c
  else if c = 'n' then some '\n'
  else if c = 't' then some '\t'
  else if c = 'r' then some '\r'
  else if c = 'b' then some '\x08'
  else if c = 'f' then some '\x0c'
  else none

/-- The code units of a quoted text up to its closing quote, and the rest after it. A control character
must be escaped. -/
def readQuoted : List Char → Option (List CodePoint × List Char)
  | [] => none
  | '"' :: rest => some ([], rest)
  | '\\' :: 'u' :: a :: b :: c :: d :: rest =>
    match unit? a b c d, readQuoted rest with
    | some n, some (units, rest) => some (.ofNat n :: units, rest)
    | _, _ => none
  | '\\' :: e :: rest =>
    match shortEscape? e, readQuoted rest with
    | some c, some (units, rest) => some (.ofChar c :: units, rest)
    | _, _ => none
  | c :: rest =>
    if c.toNat < 32 ∨ c = '\\' then none
    else (readQuoted rest).map fun (units, rest) => (.ofChar c :: units, rest)

/-- Code units as code points, the two halves of a pair as one. -/
def joinUnits : List CodePoint → List CodePoint
  | high :: low :: rest =>
    if high.isHigh && low.isLow then .ofPair high low :: joinUnits rest
    else high :: joinUnits (low :: rest)
  | units => units

/-- A text after its opening quote. -/
def readText (input : List Char) : Option (Text × List Char) :=
  (readQuoted input).map fun (units, rest) => (⟨joinUnits units⟩, rest)

/-- A number of the standard: no plus sign, no leading zero, digits on both sides of a point. -/
def isStandard (n : Numeral) : Bool :=
  n.sign ≠ some '+' && !n.whole.isEmpty && (n.whole.length = 1 || n.whole.head? ≠ some '0')
    && n.fraction.all (fun f => !f.isEmpty)

/-- The most digits of a whole number. -/
def longestWhole : Nat := 4300

/-- The number at the head of a text, and the rest. -/
def readNumber (input : List Char) : Option (Json × List Char) :=
  let (n, rest) := Numeral.scan input
  if !isStandard n then none
  else if !n.isWhole then some (measure n.decimal.toFloat, rest)
  else if longestWhole < n.whole.length then none
  else some (whole n.toInt, rest)

/-- A word that stands for a value, and the rest. -/
def readWord (input : List Char) : Option (Json × List Char) :=
  let words : List (String × Json) :=
    [("null", null), ("true", flag true), ("false", flag false), ("NaN", measure (0.0 / 0.0)),
     ("Infinity", measure (1.0 / 0.0)), ("-Infinity", measure (-1.0 / 0.0))]
  words.findSome? fun (word, v) => (afterWord? word.toList input).map fun rest => (v, rest)

/-! ## Values -/

/-- Why a text is not read. -/
inductive Flaw : Type where
  /-- It is not one JSON value. -/
  | malformed
  /-- Its lists and objects are nested too deep. -/
  | tooDeep
  deriving DecidableEq

/-- What is read, or a text that is malformed. -/
def orMalformed {β : Type} : Option β → Except Flaw β
  | some b => .ok b
  | none => .error .malformed

mutual

/-- The value at the head of a text, and the rest. Lists and objects may be nested `room` levels deep. -/
def readValue (fuel room : Nat) (input : List Char) : Except Flaw (Json × List Char) :=
  match fuel with
  | 0 => .error .malformed
  | fuel + 1 =>
    match skipSpace input with
    | '"' :: rest => orMalformed ((readText rest).map fun (s, rest) => (Json.text s, rest))
    | '[' :: rest =>
      match room, skipSpace rest with
      | 0, _ => .error .tooDeep
      | _ + 1, ']' :: rest => .ok (list [], rest)
      | room + 1, _ => (readItems fuel room rest).map fun (items, rest) => (list items, rest)
    | '\x7b' :: rest =>
      match room, skipSpace rest with
      | 0, _ => .error .tooDeep
      | _ + 1, '\x7d' :: rest => .ok (record [], rest)
      | room + 1, _ =>
        (readFields fuel room rest).map fun (fields, rest) => (record (collectFields fields), rest)
    | input => orMalformed ((readWord input).or (readNumber input))

/-- One value or more up to the closing bracket, and the rest after it. -/
def readItems (fuel room : Nat) (input : List Char) : Except Flaw (List Json × List Char) :=
  match fuel with
  | 0 => .error .malformed
  | fuel + 1 =>
    match readValue fuel room input with
    | .error flaw => .error flaw
    | .ok (v, rest) =>
      match skipSpace rest with
      | ',' :: rest => (readItems fuel room rest).map fun (items, rest) => (v :: items, rest)
      | ']' :: rest => .ok ([v], rest)
      | _ => .error .malformed

/-- One field or more up to the closing bracket, and the rest after it. -/
def readFields (fuel room : Nat) (input : List Char) : Except Flaw (List (Text × Json) × List Char) :=
  match fuel with
  | 0 => .error .malformed
  | fuel + 1 =>
    match skipSpace input with
    | '"' :: rest =>
      match readText rest with
      | none => .error .malformed
      | some (key, rest) =>
        match skipSpace rest with
        | ':' :: rest =>
          match readValue fuel room rest with
          | .error flaw => .error flaw
          | .ok (v, rest) =>
            match skipSpace rest with
            | ',' :: rest => (readFields fuel room rest).map fun (fields, rest) => ((key, v) :: fields, rest)
            | '\x7d' :: rest => .ok ([(key, v)], rest)
            | _ => .error .malformed
        | _ => .error .malformed
    | _ => .error .malformed

end

/-- The most levels to which lists and objects may be nested. -/
def deepest : Nat := 983

/-- The value of a whole text. -/
def read (source : String) : Except Flaw Json :=
  let input := source.toList
  match readValue (2 * input.length + 2) deepest input with
  | .error flaw => .error flaw
  | .ok (v, rest) => if (skipSpace rest).isEmpty then .ok v else .error .malformed

/-- The value of a whole text, none when it is not read. -/
def read? (source : String) : Option Json := (read source).toOption

end Json
end Leftover
