/-
# Numbers as they are typed

A number in a word of a command line or in a figure for a message. The digits of every script count, blanks
around the number do not, and an underscore may stand between two digits.

* `typedWhole` : a whole number, or why there is none
* `typedMeasure?` : a double
-/
import Leftover.Decimal.Numeral
import Leftover.Text.Blank
import Leftover.Text.Digit

namespace Leftover

/-- The most digits that a whole number may be typed with. -/
def mostDigits : Nat := 4300

/-- The character that a code point counts as in a number. -/
def typedChar (p : CodePoint) : Char :=
  if p.val < 128 then Char.ofNat p.val
  else if isBlank p then ' '
  else match digitValue? p with
    | some n => Nat.digitChar n
    | none => '?'

/-- The characters of a typed number, without blanks around them. -/
def typedChars (t : Text) : List Char := (t.trim isBlank).points.map typedChar

/-- Why a text is no whole number. -/
inductive TypingFault : Type where
  /-- It is something else. -/
  | unreadable
  /-- It has too many digits. -/
  | tooLong (digits : Nat)
  deriving DecidableEq

/-- A whole number: an optional sign and digits. Too many digits are told before anything that follows them. -/
def typedWhole (t : Text) : Except TypingFault Int :=
  let (sign, rest) := Numeral.scanSign (typedChars t)
  let (digits, rest) := rest.span fun c => c.isDigit || c = '_'
  let count := (withoutUnderscores digits).length
  if count = 0 || !wellDivided Char.isDigit false digits then .error .unreadable
  else if mostDigits < count then .error (.tooLong count)
  else if rest.isEmpty then .ok (Numeral.toInt ⟨sign, withoutUnderscores digits, none, none⟩)
  else .error .unreadable

/-- A double: a numeral or a word for a special value. -/
def typedMeasure? (t : Text) : Option Float :=
  let chars := typedChars t
  if wellDivided Char.isDigit false chars then readDouble? (withoutUnderscores chars) else none

end Leftover
