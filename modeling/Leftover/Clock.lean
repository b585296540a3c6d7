/-
# Clock times

Times are minutes from the planning origin. A document may give them as numbers or as clock texts such as
`08:30`; a message shows them as clock texts again, beyond a day if need be.

* `Clock.minutesOfText` : the minutes of a clock text
* `Clock.minutes` : the minutes of a value in a document
* `Clock.text`, `Clock.textOf` : the clock text of so many minutes
-/
import Leftover.Fault
import Leftover.Json.Value
import Leftover.Decimal.Digits
import Leftover.Decimal.Rounded
import Leftover.Text.Blank

namespace Leftover
namespace Clock

/-! ## Reading a clock text

A clock text has hours, or hours and minutes, or hours, minutes and seconds, in two digits each, with a
colon between all of them or none; after the last of them a fraction may follow, and after that an offset,
which does not count. -/

/-- The character that stands after the end of a text. -/
def nul : Char := '\x00'

/-- Two digits at the head of a text, and the rest. -/
def twoDigits? : List Char → Option (Nat × List Char)
  | a :: b :: rest =>
    if a.isDigit ∧ b.isDigit then some (Decimal.ofDigits [a, b], rest) else none
  | _ => none

/-- The numbers of a stretch of text, the millionths of a fraction after them, and whether it ends where the
whole text does. -/
structure Stretch where
  numbers : List Nat
  millionths : Nat
  complete : Bool

/-- A fraction: six digits or as many as there are, then any further digits, which do not count. -/
def fraction? (stretch : List Char) (next : Char) : Option Stretch :=
  let counted := stretch.take 6
  if counted.all Char.isDigit then
    some ⟨[], Decimal.ofDigits counted * tenTo (6 - counted.length),
      ((stretch.drop counted.length).dropWhile Char.isDigit).headD next = nul⟩
  else none

/-- A stretch of text with a number in front. -/
def Stretch.after (n : Nat) (s : Stretch) : Stretch := { s with numbers := n :: s.numbers }

/-- At most one character is left, and it is an ASCII one. -/
def isSpent : List Char → Bool
  | [] => true
  | [c] => c.toNat < 128
  | _ => false

/-- The numbers of a stretch that `next` follows, at most `room` more of them. `colons` says whether they
are divided by colons, once the first is read. -/
def numbers? (room : Nat) (colons : Option Bool) (stretch : List Char) (next : Char) : Option Stretch :=
  match room with
  | 0 => fraction? stretch next
  | room + 1 =>
    match twoDigits? stretch with
    | none => none
    | some (n, rest) =>
      let mark := rest.headD next
      let colons := colons.getD (mark = ':')
      let more (rest : List Char) := (numbers? room (some colons) rest next).map (Stretch.after n)
      if isSpent rest then some ⟨[n], 0, mark = nul⟩
      else if colons ∧ mark = ':' then more (rest.drop 1)
      else if mark = '.' ∨ mark = ',' then (fraction? (rest.drop 1) next).map (Stretch.after n)
      else if colons then none
      else more rest

/-- The seconds of hours, minutes and seconds. -/
def seconds (numbers : List Nat) : Nat :=
  numbers.getD 0 0 * 3600 + numbers.getD 1 0 * 60 + numbers.getD 2 0

/-- The minutes since midnight of hours, minutes and seconds in their ranges. -/
def ofNumbers (numbers : List Nat) : Except ClockFault Nat :=
  if 23 < numbers.getD 0 0 then .error .hourRange
  else if 59 < numbers.getD 1 0 then .error .minuteRange
  else if 59 < numbers.getD 2 0 then .error .secondRange
  else .ok (numbers.getD 0 0 * 60 + numbers.getD 1 0)

/-- The mark begins an offset. -/
def isOffsetMark (c : Char) : Bool := c = '+' || c = '-' || c = 'Z'

/-- The offset is shorter than a day in either direction. -/
def checkOffset (mark : Char) (offset : Stretch) : Except ClockFault Unit :=
  let size := seconds offset.numbers * tenTo 6 + offset.millionths
  if size < 86400 * tenTo 6 then .ok ()
  else .error (.offsetRange (if mark = '-' then -(size : Int) else size))

/-- The minutes since midnight of the characters of a clock text, if they make up one. -/
def minutesOfChars? (chars : List Char) : Option (Except ClockFault Nat) :=
  let (front, back) := chars.span fun c => !isOffsetMark c
  match numbers? 3 none front (back.headD nul), back with
  | none, _ => none
  | some time, [] => if time.complete then some (ofNumbers time.numbers) else none
  | some time, 'Z' :: rest => if rest.headD nul = nul then some (ofNumbers time.numbers) else none
  | some time, mark :: rest =>
    match numbers? 3 none rest nul with
    | some offset =>
      if offset.complete then some (checkOffset mark offset *> ofNumbers time.numbers) else none
    | none => none

/-- The minutes since midnight of a clock text. -/
def minutesOfText (source : Text) : Except ClockFault Nat :=
  let found := source.toChars?.bind fun chars => match chars with
    | 'T' :: rest => minutesOfChars? rest
    | chars => minutesOfChars? chars
  found.getD (.error (.unreadable source))

/-! ## Minutes of a value -/

/-- The double of a whole number within the range of doubles. -/
def ofWhole (n : Int) : Except Fault Float :=
  let x := Float.ofInt n
  if x.isFinite then .ok x else .error .numberTooLarge

/-- The minutes of a value: a clock text, a number, or a flag counting as zero or one. -/
def minutes : Json → Except Fault Float
  | .text s => match minutesOfText (s.trim isBlankOrSeparator) with
    | .ok n => .ok (Float.ofInt n)
    | .error fault => .error (.clock fault)
  | .whole n => ofWhole n
  | .measure x => .ok x
  | .flag b => .ok (if b then 1.0 else 0.0)
  | _ => .error .wrongKind

/-! ## Writing a clock text -/

/-- A number in two digits or more. -/
def padded (n : Nat) : String := if n < 10 then "0" ++ toString n else toString n

/-- The clock text of so many minutes; it may go beyond a day and below zero. -/
def text (minutes : Int) : String :=
  let size := minutes.natAbs
  (if minutes < 0 then "-" else "") ++ padded (size / 60) ++ ":" ++ padded (size % 60)

/-- A dyadic number rounded to a whole one, a half to the even one. -/
def roundDyadic (d : Dyadic) : Int :=
  let size : Int := roundDiv d.numerator d.denominator
  if d.negative then -size else size

/-- The clock text of a value, rounded to whole minutes. -/
def textOf : Json → Except Fault String
  | .whole n => .ok (text n)
  | .flag b => .ok (text (if b then 1 else 0))
  | .measure x =>
    match Dyadic.ofFloat? x with
    | some d => .ok (text (roundDyadic d))
    | none => .error (if x.isNaN then .undefinedTime else .endlessTime)
  | _ => .error .wrongKind

end Clock
end Leftover
