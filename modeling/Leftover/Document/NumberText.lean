/-
# Numbers written as texts in a document

Where a document wants a number it may give a text. Whole numbers are written more freely than measured ones:
with zeros in front, and with nothing but zeros after a point.

* `wholeOfText` : a whole number, or the complaint
* `measureOfText` : a double, or the complaint
-/
import Leftover.Decimal.Numeral
import Leftover.Issue
import Leftover.Text.Blank

namespace Leftover

/-! ## Whole numbers -/

/-- The most digits that a whole number has. -/
def longestWhole : Nat := 4300

/-- A minus sign at the head of a text, and the rest. -/
def takeMinus : List Char → Bool × List Char
  | '-' :: rest => (true, rest)
  | text => (false, text)

/-- The whole number of a minus sign, perhaps, and digits, of which the first is a zero only on its own. -/
def plainWhole (text : List Char) : Except Complaint Int :=
  let (negative, rest) := takeMinus text
  let (digits, rest) := rest.span Char.isDigit
  if digits.isEmpty || (digits.head? = some '0' && 1 < digits.length) then .error .wholeUnreadable
  else if longestWhole < digits.length then .error .wholeTooLarge
  else if !rest.isEmpty then .error .wholeUnreadable
  else
    let size : Int := (Decimal.ofDigits digits : Nat)
    .ok (if negative then -size else size)

/-- Zeros in front of a whole number, and underscores among them, are dropped up to the first other digit or a
minus sign. One stays in front of a point or if nothing else is left. -/
def dropZerosFrom? (before : Char) : List Char → Option (List Char)
  | [] => some [before]
  | c :: rest =>
    if c = '0' || c = '_' then dropZerosFrom? c rest
    else if c = '.' then some (before :: c :: rest)
    else if c.isDigit || c = '-' then some (c :: rest)
    else none

/-- A text without the zeros in front of its first digit other than zero, if it begins with a digit. -/
def dropLeadingZeros? : List Char → Option (List Char)
  | [] => none
  | c :: rest => if c = '0' then dropZerosFrom? c rest else if c.isDigit then some (c :: rest) else none

/-- Zeros after a point are dropped, and the point with them, if nothing else stands there. -/
def dropZerosAfterPoint (text : List Char) : List Char :=
  match text.span (· ≠ '.') with
  | (whole, _ :: zero :: zeros) => if (zero :: zeros).all (· = '0') then whole else text
  | _ => text

/-- Underscores are dropped if each has its place; a text with a misplaced one stays as it is. -/
def dropUnderscores (text : List Char) : List Char :=
  if wellDivided (· ≠ '_') false text then withoutUnderscores text else text

/-- The plain text of a whole number that is written freely: with a plus sign, zeros in front, underscores
between digits and zeros after a point. -/
def plainText? (text : List Char) : Option (List Char) :=
  let tidied (rest : List Char) : Option (List Char) :=
    (dropLeadingZeros? rest).map fun digits => dropUnderscores (dropZerosAfterPoint digits)
  match text with
  | '+' :: rest => tidied rest
  | '-' :: rest => (tidied rest).map ('-' :: ·)
  | rest => tidied rest

/-- A whole number written as a text: plainly, or else freely and with blanks around it. -/
def wholeOfText (t : Text) : Except Complaint Int :=
  match t.toChars?, (t.trim isBlank).toChars? with
  | some text, some trimmed =>
    match plainWhole text with
    | .ok n => .ok n
    | .error .wholeTooLarge => .error .wholeTooLarge
    | .error _ => ((plainText? trimmed).bind fun text => (plainWhole text).toOption).elim
        (.error .wholeUnreadable) .ok
  | _, _ => .error .notUnicode

/-! ## Measured numbers -/

/-- A double written as a text: with blanks around it, or with underscores, but not with both. -/
def measureOfText (t : Text) : Except Complaint Float :=
  match t.toChars?, (t.trim isBlank).toChars? with
  | some text, some trimmed =>
    match readDouble? trimmed with
    | some x => .ok x
    | none =>
      match if wellDivided (· ≠ '_') false text then readDouble? (withoutUnderscores text) else none with
      | some x => .ok x
      | none => .error .measureUnreadable
  | _, _ => .error .notUnicode

end Leftover
