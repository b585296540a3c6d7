/-
# Writing JSON

The text of a value, in ASCII only: on one line, or with each item on a line of its own, indented by a
number of blanks per level.

* `Json.escape` : a code point inside a quoted text
* `Json.print` : the text of a value
-/
import Leftover.Json.Value
import Leftover.Decimal.Shortest

namespace Leftover
namespace Json

/-! ## Quoted texts -/

/-- A hexadecimal digit. -/
def hexDigit (n : Nat) : Char := Nat.digitChar (n % 16)

/-- A sixteen-bit unit as an escape. -/
def escapeUnit (n : Nat) : List Char :=
  ['\\', 'u', hexDigit (n / 4096), hexDigit (n / 256), hexDigit (n / 16), hexDigit n]

/-- A code point inside a quoted text. Beyond ASCII it is written as one or two sixteen-bit units. -/
def escape (p : CodePoint) : List Char :=
  let n := p.val
  if n = '"'.toNat then ['\\', '"']
  else if n = '\\'.toNat then ['\\', '\\']
  else if n = '\n'.toNat then ['\\', 'n']
  else if n = '\r'.toNat then ['\\', 'r']
  else if n = '\t'.toNat then ['\\', 't']
  else if n = 8 then ['\\', 'b']
  else if n = 12 then ['\\', 'f']
  else if 32 ≤ n ∧ n < 127 then [Char.ofNat n]
  else if n < 0x10000 then escapeUnit n
  else
    let pair := n - 0x10000
    escapeUnit (0xd800 + pair / 0x400) ++ escapeUnit (0xdc00 + pair % 0x400)

/-- A text in quotes. -/
def quote (t : Text) : List Char := '"' :: t.points.flatMap escape ++ ['"']

/-! ## Layout -/

/-- A measured number: its shortest decimal, or the name of a special value. -/
def measureText (x : Float) : List Char :=
  if x.isFinite then (shortestText x).toList
  else if x.isNaN then "NaN".toList
  else if x < 0 then "-Infinity".toList
  else "Infinity".toList

/-- A line break and the blanks of a nesting level; nothing when everything is on one line. -/
def newline (indent : Option Nat) (level : Nat) : List Char :=
  match indent with
  | none => []
  | some n => '\n' :: List.replicate (n * level) ' '

/-- What stands between two items. -/
def separator (indent : Option Nat) (level : Nat) : List Char :=
  match indent with
  | none => [',', ' ']
  | some _ => ',' :: newline indent level

/-- The written items of a list or object, in their brackets. -/
def bracket (indent : Option Nat) (level : Nat) (opening closing : Char) : List (List Char) → List Char
  | [] => [opening, closing]
  | item :: items =>
    opening :: newline indent (level + 1) ++ item
      ++ items.flatMap (fun i => separator indent (level + 1) ++ i)
      ++ newline indent level ++ [closing]

mutual

/-- The characters of a value at a nesting level. -/
def write (indent : Option Nat) (level : Nat) : Json → List Char
  | null => ['n', 'u', 'l', 'l']
  | flag true => ['t', 'r', 'u', 'e']
  | flag false => ['f', 'a', 'l', 's', 'e']
  | whole n => (toString n).toList
  | measure x => measureText x
  | text s => quote s
  | list items => bracket indent level '[' ']' (writeItems indent (level + 1) items)
  | record fields => bracket indent level '\x7b' '\x7d' (writeFields indent (level + 1) fields)

/-- The characters of each value of a list. -/
def writeItems (indent : Option Nat) (level : Nat) : List Json → List (List Char)
  | [] => []
  | v :: rest => write indent level v :: writeItems indent level rest

/-- The characters of each field of an object. -/
def writeFields (indent : Option Nat) (level : Nat) : List (Text × Json) → List (List Char)
  | [] => []
  | (key, v) :: rest => (quote key ++ [':', ' '] ++ write indent level v) :: writeFields indent level rest

end

/-- The text of a value: on one line without an indentation, else one item a line, a negative indentation
counting as zero. -/
def print (indent : Option Int) (v : Json) : String :=
  String.ofList (write (indent.map Int.toNat) 0 v)

end Json
end Leftover
