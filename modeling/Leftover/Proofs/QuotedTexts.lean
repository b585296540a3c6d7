/-
# Texts in quotes

A text is written in quotes with ASCII characters only, a code point beyond them as one or two sixteen-bit units in
hexadecimal digits. Reading takes the units one by one and joins the halves of pairs. What comes back is the text,
unless two code points of it were the halves of a pair before they were written: they come back as the one that they
stand for.

* `Text.IsWhole` : the texts without such halves
* `escape_ascii` : the characters of a quoted text
* `readText_escaped` : a quoted text is read back
-/
import Leftover.Json.Printer
import Leftover.Json.Reader
import Mathlib.Data.List.Chain

namespace Leftover

/-! ## Whole texts -/

/-- No first half of a surrogate pair stands right before a second half. -/
def Text.IsWhole (t : Text) : Prop := t.points.IsChain fun p q => ¬(p.isHigh = true ∧ q.isLow = true)

instance (t : Text) : Decidable t.IsWhole := inferInstanceAs (Decidable (t.points.IsChain _))

/-- The code point of a character is no half of a pair. -/
theorem isHigh_ofChar (c : Char) : (CodePoint.ofChar c).isHigh = false := by
  have valid : c.toNat.isValidChar := c.valid
  rw [CodePoint.isHigh, CodePoint.ofChar, Bool.and_eq_false_iff]
  simp only [decide_eq_false_iff_not]
  rw [Nat.isValidChar] at valid
  omega

/-- The text of a string is whole. -/
theorem Text.isWhole_ofString (s : String) : (Text.ofString s).IsWhole := by
  rw [Text.IsWhole, Text.ofString, List.isChain_map]
  apply List.Pairwise.isChain
  apply List.pairwise_of_forall
  intro c d pair
  rw [isHigh_ofChar] at pair
  cases pair.1

namespace Json

/-! ## Sixteen-bit units -/

@[simp] theorem hexValue?_hexDigit (n : Nat) : hexValue? (hexDigit n) = some (n % 16) := by
  have all : ∀ m < 16, hexValue? (Nat.digitChar m) = some m := by decide
  exact all _ (Nat.mod_lt n (by decide))

theorem unit?_hexDigits {n : Nat} (h : n < 0x10000) :
    unit? (hexDigit (n / 4096)) (hexDigit (n / 256)) (hexDigit (n / 16)) (hexDigit n) = some n := by
  simp only [unit?, hexValue?_hexDigit, Option.some.injEq]
  omega

theorem readQuoted_escapeUnit {n : Nat} (h : n < 0x10000) (rest : List Char) :
    readQuoted (escapeUnit n ++ rest) = (readQuoted rest).map fun found => (.ofNat n :: found.1, found.2) := by
  simp only [escapeUnit, List.cons_append, List.nil_append, readQuoted, unit?_hexDigits h]
  cases readQuoted rest <;> rfl

/-- The first half of the pair that stands for a code point beyond sixteen bits. -/
def highHalf (p : CodePoint) : CodePoint := .ofNat (0xd800 + (p.val - 0x10000) / 0x400)

/-- The second half. -/
def lowHalf (p : CodePoint) : CodePoint := .ofNat (0xdc00 + (p.val - 0x10000) % 0x400)

theorem val_highHalf (p : CodePoint) : (highHalf p).val = 0xd800 + (p.val - 0x10000) / 0x400 := by
  have bound := p.isLt
  exact Nat.mod_eq_of_lt (by omega)

theorem val_lowHalf (p : CodePoint) : (lowHalf p).val = 0xdc00 + (p.val - 0x10000) % 0x400 :=
  Nat.mod_eq_of_lt (by omega)

/-- The units as which a code point is written. -/
def units (p : CodePoint) : List CodePoint := if p.val < 0x10000 then [p] else [highHalf p, lowHalf p]

theorem units_ofChar {p : CodePoint} {c : Char} (same : p.val = c.toNat) (small : c.toNat < 0x10000) :
    units p = [.ofChar c] := by
  have point : p = .ofChar c := Fin.ext same
  rw [units, if_pos (by omega), point]

/-! ## Reading one code point -/

/-- A character that needs no escape stands for itself. -/
theorem readQuoted_plain {c : Char} (printable : 32 ≤ c.toNat) (notQuote : c ≠ '"') (notSlash : c ≠ '\\')
    (rest : List Char) :
    readQuoted (c :: rest) = (readQuoted rest).map fun found => (.ofChar c :: found.1, found.2) := by
  rw [readQuoted]
  · have kept : ¬(c.toNat < 32 ∨ c = '\\') := by
      rintro (small | slash)
      · omega
      · exact notSlash slash
    rw [if_neg kept]
  · exact notQuote
  · intro _ _ _ _ _ slash
    exact absurd slash notSlash
  · intro _ _ slash
    exact absurd slash notSlash

theorem readQuoted_shortEscape {e c : Char} (notUnit : e ≠ 'u') (known : shortEscape? e = some c)
    (rest : List Char) :
    readQuoted ('\\' :: e :: rest) = (readQuoted rest).map fun found => (.ofChar c :: found.1, found.2) := by
  rw [readQuoted]
  · rw [known]
    cases readQuoted rest <;> rfl
  · intro _ _ _ _ _ unit
    exact absurd unit notUnit

theorem toNat_ofNat_of_isValidChar {n : Nat} (valid : n.isValidChar) : (Char.ofNat n).toNat = n := by
  rw [Char.ofNat, dif_pos valid]
  rfl

/-- What is read at the head of a written code point: its units. -/
theorem readQuoted_escape (p : CodePoint) (rest : List Char) :
    readQuoted (escape p ++ rest) = (readQuoted rest).map fun found => (units p ++ found.1, found.2) := by
  have short : ∀ (e c : Char), e ≠ 'u' → shortEscape? e = some c → c.toNat < 0x10000 → p.val = c.toNat →
      readQuoted (['\\', e] ++ rest) = (readQuoted rest).map fun found => (units p ++ found.1, found.2) := by
    intro e c notUnit known small same
    rw [units_ofChar same small]
    exact readQuoted_shortEscape notUnit known rest
  unfold escape
  dsimp only
  split
  · next h => exact short '"' '"' (by decide) rfl (by decide) h
  split
  · next h => exact short '\\' '\\' (by decide) rfl (by decide) h
  split
  · next h => exact short 'n' '\n' (by decide) rfl (by decide) h
  split
  · next h => exact short 'r' '\r' (by decide) rfl (by decide) h
  split
  · next h => exact short 't' '\t' (by decide) rfl (by decide) h
  split
  · next h => exact short 'b' '\x08' (by decide) rfl (by decide) h
  split
  · next h => exact short 'f' '\x0c' (by decide) rfl (by decide) h
  split
  · next notQuote notSlash _ _ _ _ _ printable =>
    have valid : p.val.isValidChar := Or.inl (by omega)
    have same : (Char.ofNat p.val).toNat = p.val := toNat_ofNat_of_isValidChar valid
    rw [units_ofChar same.symm (by omega)]
    apply readQuoted_plain
    · omega
    · rintro quote
      rw [quote] at same
      exact notQuote same.symm
    · intro slash
      rw [slash] at same
      exact notSlash same.symm
  split
  · next small =>
    rw [readQuoted_escapeUnit small, units, if_pos small]
    have point : CodePoint.ofNat p.val = p := Fin.ext (Nat.mod_eq_of_lt p.isLt)
    rw [point]
    rfl
  · next large =>
    have bound := p.isLt
    rw [List.append_assoc, readQuoted_escapeUnit (by omega), readQuoted_escapeUnit (by omega), units, if_neg large,
      Option.map_map]
    rfl

/-! ## Joining the halves of pairs -/

theorem joinUnits_cons {p : CodePoint} {us : List CodePoint}
    (apart : ∀ u ∈ us.head?, ¬(p.isHigh = true ∧ u.isLow = true)) : joinUnits (p :: us) = p :: joinUnits us := by
  cases us with
  | nil => rfl
  | cons u us =>
    have alone : ¬((p.isHigh && u.isLow) = true) := by
      rw [Bool.and_eq_true]
      exact apart u rfl
    rw [joinUnits, if_neg alone]

/-- The units of a code point beyond sixteen bits are the halves of its pair. -/
theorem joinUnits_pair {p : CodePoint} (large : ¬p.val < 0x10000) (us : List CodePoint) :
    joinUnits (units p ++ us) = p :: joinUnits us := by
  have bound := p.isLt
  have pair : (highHalf p).isHigh && (lowHalf p).isLow := by
    simp only [CodePoint.isHigh, CodePoint.isLow, val_highHalf, val_lowHalf, Bool.and_eq_true, decide_eq_true_eq]
    omega
  have joined : CodePoint.ofPair (highHalf p) (lowHalf p) = p := by
    rw [CodePoint.ofPair, val_highHalf, val_lowHalf]
    apply Fin.ext
    rw [CodePoint.ofNat, Fin.val_ofNat]
    omega
  rw [units, if_neg large, List.cons_append, List.cons_append, List.nil_append, joinUnits, if_pos pair, joined]

/-- A code point whose first unit is a second half is one itself. -/
theorem isLow_of_head?_units {p u : CodePoint} (first : u ∈ (units p).head?) (low : u.isLow = true) :
    p.isLow = true := by
  rw [units] at first
  split at first
  · cases first
    exact low
  · cases first
    have bound := p.isLt
    simp only [CodePoint.isLow, val_highHalf, Bool.and_eq_true, decide_eq_true_eq] at low
    omega

theorem isSome_head?_units (p : CodePoint) : (units p).head?.isSome = true := by
  rw [units]
  split <;> rfl

/-- Joining the units of whole text gives its code points. -/
theorem joinUnits_units {points : List CodePoint}
    (whole : points.IsChain fun p q => ¬(p.isHigh = true ∧ q.isLow = true)) :
    joinUnits (points.flatMap units) = points := by
  induction points with
  | nil => rfl
  | cons p points ih =>
    rw [List.flatMap_cons]
    by_cases small : p.val < 0x10000
    · rw [units, if_pos small, List.singleton_append, joinUnits_cons, ih whole.tail]
      rintro u first ⟨high, low⟩
      cases points with
      | nil => cases first
      | cons q points =>
        have own : u ∈ (units q).head? := by
          rwa [List.flatMap_cons, List.head?_append, Option.or_of_isSome (isSome_head?_units q)] at first
        have apart := (List.isChain_cons_cons.1 whole).1
        exact apart ⟨high, isLow_of_head?_units own low⟩
    · rw [joinUnits_pair small, ih whole.tail]

/-! ## Texts -/

theorem readQuoted_flatMap_escape (points : List CodePoint) (rest : List Char) :
    readQuoted (points.flatMap escape ++ '"' :: rest) = some (points.flatMap units, rest) := by
  induction points with
  | nil => rfl
  | cons p points ih =>
    rw [List.flatMap_cons, List.append_assoc, readQuoted_escape, ih]
    rfl

/-- A quoted text is read back. -/
theorem readText_escaped {t : Text} (whole : t.IsWhole) (rest : List Char) :
    readText (t.points.flatMap escape ++ '"' :: rest) = some (t, rest) := by
  rw [readText, readQuoted_flatMap_escape, Option.map_some]
  dsimp only
  rw [joinUnits_units whole]

/-- Two halves of a pair, written one after the other, come back as one code point. -/
example : (readText (quote ⟨[0xd83d, 0xde00]⟩).tail).map (·.1) = some ⟨[0x1f600]⟩ := by decide

/-! ## The characters of a quoted text -/

theorem hexDigit_ascii (n : Nat) : (hexDigit n).toNat < 128 := by
  have all : ∀ m < 16, (Nat.digitChar m).toNat < 128 := by decide
  exact all _ (Nat.mod_lt n (by decide))

theorem escapeUnit_ascii (n : Nat) : ∀ c ∈ escapeUnit n, c.toNat < 128 := by
  simp [escapeUnit, hexDigit_ascii]

theorem escape_ascii (p : CodePoint) : ∀ c ∈ escape p, c.toNat < 128 := by
  have short : ∀ e : Char, e.toNat < 128 → ∀ c ∈ ['\\', e], c.toNat < 128 := by
    intro e small
    rw [List.forall_mem_cons, List.forall_mem_singleton]
    exact ⟨by decide, small⟩
  unfold escape
  dsimp only
  split
  · exact short '"' (by decide)
  split
  · exact short '\\' (by decide)
  split
  · exact short 'n' (by decide)
  split
  · exact short 'r' (by decide)
  split
  · exact short 't' (by decide)
  split
  · exact short 'b' (by decide)
  split
  · exact short 'f' (by decide)
  split
  · next printable =>
    have valid : p.val.isValidChar := Or.inl (by omega)
    rw [List.forall_mem_singleton, toNat_ofNat_of_isValidChar valid]
    omega
  split
  · exact escapeUnit_ascii p.val
  · exact List.forall_mem_append.2 ⟨escapeUnit_ascii _, escapeUnit_ascii _⟩

theorem quote_ascii (t : Text) : ∀ c ∈ quote t, c.toNat < 128 := by
  intro c found
  simp only [quote, List.cons_append, List.mem_cons, List.mem_append, List.mem_flatMap, List.not_mem_nil,
    or_false] at found
  rcases found with rfl | ⟨p, _, inside⟩ | rfl
  · decide
  · exact escape_ascii p c inside
  · decide

end Json
end Leftover
