/-
# Reading numerals

The parts of a numeral at the head of a text, and the numbers they stand for. What a numeral may look like
differs between documents and settings, so the parts are read here and judged elsewhere.

* `Numeral.scan` : the parts and the rest of the text
* `Numeral.decimal` : the decimal number
* `readDouble?` : the double of a text that is one numeral
* `wellDivided` : underscores stand only where they divide something
-/
import Leftover.Decimal.Digits

namespace Leftover

/-! ## Parts -/

/-- The parts of a numeral: sign, digits before the point, digits after it, and a power of ten. -/
structure Numeral where
  sign : Option Char
  whole : List Char
  fraction : Option (List Char)
  power : Option Int

namespace Numeral

/-- A sign at the head of a text, and the rest. -/
def scanSign : List Char → Option Char × List Char
  | c :: rest => if c = '-' ∨ c = '+' then (some c, rest) else (none, c :: rest)
  | [] => (none, [])

/-- A power of ten at the head of a text, and the rest; an `e` without digits is not one. -/
def scanPower (text : List Char) : Option Int × List Char :=
  match text with
  | e :: rest =>
    if e = 'e' ∨ e = 'E' then
      let (sign, rest) := scanSign rest
      let (digits, rest) := rest.span Char.isDigit
      if digits.isEmpty then (none, text)
      else
        let size : Int := (Decimal.ofDigits digits : Nat)
        (some (if sign = some '-' then -size else size), rest)
    else (none, text)
  | [] => (none, [])

/-- The parts of a numeral at the head of a text, and the rest. -/
def scan (text : List Char) : Numeral × List Char :=
  let (sign, text) := scanSign text
  let (whole, text) := text.span Char.isDigit
  let (fraction, text) := match text with
    | '.' :: rest =>
      let (digits, rest) := rest.span Char.isDigit
      (some digits, rest)
    | _ => (none, text)
  let (power, text) := scanPower text
  (⟨sign, whole, fraction, power⟩, text)

/-- The numeral has no point and no power of ten. -/
def isWhole (n : Numeral) : Bool := n.fraction.isNone && n.power.isNone

/-- The numeral has a digit. -/
def hasDigit (n : Numeral) : Bool := !n.whole.isEmpty || !(n.fraction.getD []).isEmpty

/-- The whole number of the digits before the point. -/
def toInt (n : Numeral) : Int :=
  let size : Int := (Decimal.ofDigits n.whole : Nat)
  if n.sign = some '-' then -size else size

/-- The decimal number of all parts. -/
def decimal (n : Numeral) : Decimal :=
  let fraction := n.fraction.getD []
  ⟨n.sign = some '-', Decimal.ofDigits (n.whole ++ fraction), n.power.getD 0 - fraction.length⟩

end Numeral

/-! ## Doubles -/

/-- The double of an unsigned word for a special value. -/
def specialWord? (word : List Char) : Option Float :=
  let word := word.map Char.toLower
  if word = "inf".toList ∨ word = "infinity".toList then some (1.0 / 0.0)
  else if word = "nan".toList then some (0.0 / 0.0)
  else none

/-- The double of a text that is a numeral or a word for a special value, and nothing else. -/
def readDouble? (text : List Char) : Option Float :=
  let (numeral, rest) := Numeral.scan text
  if rest.isEmpty && numeral.hasDigit then some numeral.decimal.toFloat
  else
    let (sign, word) := Numeral.scanSign text
    (specialWord? word).map fun x => if sign = some '-' then -x else x

/-! ## Underscores -/

/-- A text without its underscores. -/
def withoutUnderscores (text : List Char) : List Char := text.filter (· ≠ '_')

/-- Every underscore stands between two characters of a kind; `before` tells whether one stands in front. -/
def wellDivided (isPart : Char → Bool) : Bool → List Char → Bool
  | _, [] => true
  | before, '_' :: rest => before && rest.head?.any isPart && wellDivided isPart false rest
  | _, c :: rest => wellDivided isPart (isPart c) rest

end Leftover
