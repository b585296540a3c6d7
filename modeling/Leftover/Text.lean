/-
# Texts

Ids, names and messages. A text is a list of code points, so that it holds whatever a document can hold: half
of a surrogate pair on its own too, for which there is no character.

* `Text.ofString` : the text of a string; a string stands for its text wherever one is wanted
* `Text.toString?` : the string of a text, if it has one
* `Text.trim` : a text without what stands around it
-/

namespace Leftover

/-- A code point, the halves of surrogate pairs among them. -/
abbrev CodePoint := Fin 0x110000

namespace CodePoint

/-- The code point of a character. -/
def ofChar (c : Char) : CodePoint :=
  ⟨c.toNat, by
    have h := c.valid
    simp only [UInt32.isValidChar, Nat.isValidChar] at h
    simp only [Char.toNat]
    omega⟩

/-- The code point with a number, which has to be in range. -/
def ofNat (n : Nat) : CodePoint := Fin.ofNat 0x110000 n

/-- The first half of a surrogate pair. -/
def isHigh (p : CodePoint) : Bool := 0xd800 ≤ p.val && p.val < 0xdc00

/-- The second half of a surrogate pair. -/
def isLow (p : CodePoint) : Bool := 0xdc00 ≤ p.val && p.val < 0xe000

/-- The code point that the two halves of a pair stand for. -/
def ofPair (high low : CodePoint) : CodePoint :=
  .ofNat (0x10000 + (high.val - 0xd800) * 0x400 + (low.val - 0xdc00))

/-- The character of a code point; half of a pair has none. -/
def toChar? (p : CodePoint) : Option Char :=
  if p.val.isValidChar then some (Char.ofNat p.val) else none

end CodePoint

/-- A text. -/
structure Text where
  points : List CodePoint
  deriving DecidableEq, Inhabited

namespace Text

/-! ## Texts and strings -/

/-- The text of a string. -/
def ofString (s : String) : Text := ⟨s.toList.map .ofChar⟩

instance : Coe String Text := ⟨ofString⟩

/-- The characters of a text, if it has one for each of its code points. -/
def toChars? (t : Text) : Option (List Char) := t.points.mapM CodePoint.toChar?

/-- The string of a text, if it has a character for each of its code points. -/
def toString? (t : Text) : Option String := t.toChars?.map String.ofList

@[simp] theorem toChar?_ofChar (c : Char) : (CodePoint.ofChar c).toChar? = some c := by
  have h : c.toNat.isValidChar := c.valid
  simp [CodePoint.toChar?, CodePoint.ofChar, h]

theorem mapM_toChar?_map_ofChar (chars : List Char) :
    (chars.map CodePoint.ofChar).mapM CodePoint.toChar? = some chars := by
  induction chars with
  | nil => rfl
  | cons c rest ih => simp [ih]

/-- A string is the string of its text. -/
theorem toString?_ofString (s : String) : (ofString s).toString? = some s := by
  rw [toString?, toChars?, ofString, mapM_toChar?_map_ofChar, Option.map_some, String.ofList_toList]

/-! ## Order -/

/-- Texts are ordered by their code points, the first difference deciding. -/
instance : LT Text := ⟨fun a b => a.points < b.points⟩

instance (a b : Text) : Decidable (a < b) := inferInstanceAs (Decidable (a.points < b.points))

/-! ## Putting together and taking apart -/

instance : Append Text := ⟨fun a b => ⟨a.points ++ b.points⟩⟩

/-- The number of code points. -/
def length (t : Text) : Nat := t.points.length

/-- The text has no code points. -/
def isEmpty (t : Text) : Bool := t.points.isEmpty

/-- The text begins with another one. -/
def startsWith (t start : Text) : Bool := start.points.isPrefixOf t.points

/-- Texts one after the other. -/
def join (parts : List Text) : Text := ⟨parts.flatMap points⟩

/-- Texts one after the other, with another one between any two. -/
def intercalate (between : Text) : List Text → Text
  | [] => ⟨[]⟩
  | t :: rest => t ++ join (rest.map fun u => between ++ u)

/-- A text without the code points of a kind at both of its ends. -/
def trim (isBlank : CodePoint → Bool) (t : Text) : Text :=
  ⟨((t.points.dropWhile isBlank).reverse.dropWhile isBlank).reverse⟩

end Text

end Leftover
