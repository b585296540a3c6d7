/-
# Quoted texts in messages

Ids and clock texts appear in messages in quotes, with everything that has no visible form escaped. Single
quotes are used unless the text holds one and no double quote.

* `quoted` : a text in quotes
* `Text.escaped` : a text without quotes, as far as there are characters for it
* `quotedList` : a list of them in brackets
-/
import Leftover.Text
import Leftover.Text.Printable

namespace Leftover

/-- A number in hexadecimal, filled up with zeros to a width. -/
def hexText (width n : Nat) : List Char :=
  let digits := Nat.toDigits 16 n
  List.replicate (width - digits.length) '0' ++ digits

/-- The escape for a code point: its number in two, four or eight digits. -/
def escapeCode (n : Nat) : List Char :=
  if n ≤ 0xff then '\\' :: 'x' :: hexText 2 n
  else if n ≤ 0xffff then '\\' :: 'u' :: hexText 4 n
  else '\\' :: 'U' :: hexText 8 n

/-- A code point inside a text quoted with `quote`. -/
def quotedPoint (quote : Char) (p : CodePoint) : List Char :=
  match p.toChar? with
  | none => escapeCode p.val
  | some c =>
    if c = quote ∨ c = '\\' then ['\\', c]
    else if c = '\t' then ['\\', 't']
    else if c = '\n' then ['\\', 'n']
    else if c = '\r' then ['\\', 'r']
    else if isVisible p.val then [c]
    else escapeCode p.val

/-- A text in quotes. -/
def quoted (t : Text) : String :=
  let holds (c : Char) : Bool := t.points.contains (.ofChar c)
  let quote := if holds '\'' && !holds '"' then '"' else '\''
  String.ofList (quote :: t.points.flatMap (quotedPoint quote) ++ [quote])

/-- A text as a string of characters, with an escape for each half of a pair. -/
def Text.escaped (t : Text) : String :=
  String.ofList (t.points.flatMap fun p => match p.toChar? with
    | some c => [c]
    | none => escapeCode p.val)

/-- Items in brackets, separated by commas. -/
def bracketed (items : List String) : String := "[" ++ ", ".intercalate items ++ "]"

/-- Texts in quotes, in brackets. -/
def quotedList (items : List Text) : String := bracketed (items.map quoted)

end Leftover
