/-
# Documents that are read back

A value made up of texts, lists and objects is written in ASCII, whatever the layout, and what is written is read as
the value again. The induction is on the value: reading takes the characters of a value off the front of what
follows, with fuel for twice as many characters as there are.

* `Json.Textual` : the values made up of texts
* `readValue_write` : a written value is read off the front of a text
* `read_print` : a written document is read back
* `Report.read_text` : reports are read back
-/
import Leftover.Proofs.QuotedTexts
import Leftover.Report.Entries

namespace Leftover
namespace Json

/-! ## Values made up of texts -/

/-- Texts of a kind, lists and objects of them, nested at most so many levels deep. No two fields of an object have
one name. -/
inductive Textual (kind : Text → Prop) : Nat → Json → Prop where
  | text {room : Nat} {t : Text} (isKind : kind t) : Textual kind room (text t)
  | list {room : Nat} {items : List Json} (each : ∀ v ∈ items, Textual kind room v) :
    Textual kind (room + 1) (list items)
  | record {room : Nat} {fields : List (Text × Json)} (distinct : (fields.map (·.1)).Nodup)
    (names : ∀ f ∈ fields, kind f.1) (each : ∀ f ∈ fields, Textual kind room f.2) :
    Textual kind (room + 1) (record fields)

/-- An object with two fields. -/
theorem Textual.pair {kind : Text → Prop} {room : Nat} {key key' : Text} {v v' : Json} (apart : key ≠ key')
    (name : kind key) (name' : kind key') (value : Textual kind room v) (value' : Textual kind room v') :
    Textual kind (room + 1) (Json.record [(key, v), (key', v')]) := by
  apply Textual.record
  · exact List.nodup_cons.2 ⟨by simpa using apart, List.pairwise_singleton _ key'⟩
  · rintro f (_ | ⟨_, _ | ⟨_, ⟨⟩⟩⟩)
    · exact name
    · exact name'
  · rintro f (_ | ⟨_, _ | ⟨_, ⟨⟩⟩⟩)
    · exact value
    · exact value'

/-! ## Layout -/

theorem writeItems_eq (indent : Option Nat) (level : Nat) (items : List Json) :
    writeItems indent level items = items.map (write indent level) := by
  induction items with
  | nil => rfl
  | cons v items ih => rw [writeItems, ih, List.map_cons]

/-- A field as it is written. -/
def writeField (indent : Option Nat) (level : Nat) (f : Text × Json) : List Char :=
  quote f.1 ++ [':', ' '] ++ write indent level f.2

theorem writeFields_eq (indent : Option Nat) (level : Nat) (fields : List (Text × Json)) :
    writeFields indent level fields = fields.map (writeField indent level) := by
  induction fields with
  | nil => rfl
  | cons f fields ih =>
    rw [writeFields, ih, List.map_cons]
    rfl

/-- Every character is white space. -/
def IsBlank (chars : List Char) : Prop := ∀ c ∈ chars, isSpace c = true

theorem isBlank_newline (indent : Option Nat) (level : Nat) : IsBlank (newline indent level) := by
  cases indent with
  | none => exact List.forall_mem_nil _
  | some n =>
    intro c found
    rcases List.mem_cons.1 found with rfl | blank
    · rfl
    · rw [List.eq_of_mem_replicate blank]
      rfl

theorem isBlank_single : IsBlank [' '] := by simp [IsBlank, isSpace]

/-- Between two items there is a comma and white space. -/
theorem separator_eq (indent : Option Nat) (level : Nat) :
    ∃ blank, IsBlank blank ∧ separator indent level = ',' :: blank := by
  cases indent with
  | none => exact ⟨[' '], isBlank_single, rfl⟩
  | some n => exact ⟨newline (some n) level, isBlank_newline _ _, rfl⟩

/-- What stands behind an item: the items after it, and what comes after the last one. -/
def behind (indent : Option Nat) (level : Nat) (items : List (List Char)) (rest : List Char) : List Char :=
  items.flatMap (fun item => separator indent level ++ item) ++ rest

theorem behind_cons (indent : Option Nat) (level : Nat) (item : List Char) (items : List (List Char))
    (rest : List Char) : ∃ blank, IsBlank blank ∧
      behind indent level (item :: items) rest = ',' :: (blank ++ (item ++ behind indent level items rest)) := by
  obtain ⟨blank, isBlank, comma⟩ := separator_eq indent level
  refine ⟨blank, isBlank, ?_⟩
  rw [behind, List.flatMap_cons, List.append_assoc, List.append_assoc, behind]
  nth_rewrite 1 [comma]
  rw [List.cons_append]

/-- The written items of a list or object, from the opening bracket on. -/
theorem bracket_append (indent : Option Nat) (level : Nat) (opening closing : Char) (item : List Char)
    (items : List (List Char)) (rest : List Char) :
    bracket indent level opening closing (item :: items) ++ rest =
      opening :: (newline indent (level + 1) ++ (item
        ++ behind indent (level + 1) items (newline indent level ++ closing :: rest))) := by
  simp only [bracket, behind, List.append_assoc, List.cons_append, List.nil_append]

theorem skipSpace_append {blank : List Char} (h : IsBlank blank) (input : List Char) :
    skipSpace (blank ++ input) = skipSpace input := List.dropWhile_append_of_pos h

theorem skipSpace_cons {c : Char} (h : isSpace c = false) (input : List Char) :
    skipSpace (c :: input) = c :: input := List.dropWhile_cons_of_neg (by rw [h]; decide)

/-- Reading a value passes over white space. -/
theorem readValue_append {blank : List Char} (h : IsBlank blank) (fuel room : Nat) (input : List Char) :
    readValue fuel room (blank ++ input) = readValue fuel room input := by
  cases fuel with
  | zero => rfl
  | succ fuel => rw [readValue, readValue, skipSpace_append h]

theorem readItems_append {blank : List Char} (h : IsBlank blank) (fuel room : Nat) (input : List Char) :
    readItems fuel room (blank ++ input) = readItems fuel room input := by
  cases fuel with
  | zero => rfl
  | succ fuel => rw [readItems, readItems, readValue_append h]

theorem readFields_append {blank : List Char} (h : IsBlank blank) (fuel room : Nat) (input : List Char) :
    readFields fuel room (blank ++ input) = readFields fuel room input := by
  cases fuel with
  | zero => rfl
  | succ fuel => rw [readFields, readFields, skipSpace_append h]

/-! ## Fields with names of their own -/

theorem putField_of_notMem {key : Text} {value : Json} {fields : List (Text × Json)}
    (h : key ∉ fields.map (·.1)) : putField key value fields = fields ++ [(key, value)] := by
  induction fields with
  | nil => rfl
  | cons f fields ih =>
    rw [List.map_cons, List.mem_cons, not_or] at h
    rw [putField, if_neg (Ne.symm h.1), ih h.2, List.cons_append]

/-- Fields with names of their own are kept as they are. -/
theorem collectFields_of_nodup {fields : List (Text × Json)} (distinct : (fields.map (·.1)).Nodup) :
    collectFields fields = fields := by
  have collected : ∀ done : List (Text × Json), ((done ++ fields).map (·.1)).Nodup →
      fields.foldl (fun done f => putField f.1 f.2 done) done = done ++ fields := by
    induction fields with
    | nil =>
      intro done _
      rw [List.foldl_nil, List.append_nil]
    | cons f fields ih =>
      intro done apart
      have fresh : f.1 ∉ done.map (·.1) := by
        rw [List.map_append, List.nodup_append] at apart
        intro found
        exact apart.2.2 f.1 found f.1 (List.mem_cons_self ..) rfl
      rw [List.foldl_cons, putField_of_notMem fresh, ih (List.nodup_cons.1 distinct).2]
      · rw [List.append_assoc, List.singleton_append]
      · rwa [List.append_assoc, List.singleton_append]
  exact collected [] distinct

/-! ## One step of reading -/

theorem readValue_quote (fuel room : Nat) (input : List Char) :
    readValue (fuel + 1) room ('"' :: input) =
      orMalformed ((readText input).map fun found => (text found.1, found.2)) := by
  rw [readValue, skipSpace_cons rfl]
  rfl

theorem readValue_list {input : List Char} (more : ∀ rest, skipSpace input ≠ ']' :: rest) (fuel room : Nat) :
    readValue (fuel + 1) (room + 1) ('[' :: input) =
      (readItems fuel room input).map fun found => (list found.1, found.2) := by
  rw [readValue, skipSpace_cons rfl]
  split
  · next h => cases h
  · next h =>
    cases h
    split
    · next h => cases h
    · next closed => exact absurd closed (more _)
    · next h _ =>
      cases h
      rfl
  · next h => cases h
  · next other _ => exact absurd rfl (other input)

theorem readValue_record {input : List Char} (more : ∀ rest, skipSpace input ≠ '\x7d' :: rest) (fuel room : Nat) :
    readValue (fuel + 1) (room + 1) ('\x7b' :: input) =
      (readFields fuel room input).map fun found => (record (collectFields found.1), found.2) := by
  rw [readValue, skipSpace_cons rfl]
  split
  · next h => cases h
  · next h => cases h
  · next h =>
    cases h
    split
    · next h => cases h
    · next closed => exact absurd closed (more _)
    · next h _ =>
      cases h
      rfl
  · next other => exact absurd rfl (other input)

/-- The last item of a list. -/
theorem readItems_last {fuel room : Nat} {v : Json} {input rest rest' : List Char}
    (item : readValue fuel room input = .ok (v, rest)) (closed : skipSpace rest = ']' :: rest') :
    readItems (fuel + 1) room input = .ok ([v], rest') := by
  rw [readItems, item]
  dsimp only
  rw [closed]
  rfl

/-- An item of a list with more of them behind it. -/
theorem readItems_more {fuel room : Nat} {v : Json} {input rest rest' : List Char}
    (item : readValue fuel room input = .ok (v, rest)) (comma : skipSpace rest = ',' :: rest') :
    readItems (fuel + 1) room input = (readItems fuel room rest').map fun found => (v :: found.1, found.2) := by
  rw [readItems, item]
  dsimp only
  rw [comma]
  rfl

/-- The last field of an object. -/
theorem readFields_last {fuel room : Nat} {key : Text} {v : Json} {input rest value rest' closed : List Char}
    (name : readText input = some (key, rest)) (colon : skipSpace rest = ':' :: value)
    (item : readValue fuel room value = .ok (v, rest')) (isClosed : skipSpace rest' = '\x7d' :: closed) :
    readFields (fuel + 1) room ('"' :: input) = .ok ([(key, v)], closed) := by
  rw [readFields, skipSpace_cons rfl]
  simp only [name, colon, item, isClosed]

/-- A field of an object with more of them behind it. -/
theorem readFields_more {fuel room : Nat} {key : Text} {v : Json} {input rest value rest' others : List Char}
    (name : readText input = some (key, rest)) (colon : skipSpace rest = ':' :: value)
    (item : readValue fuel room value = .ok (v, rest')) (comma : skipSpace rest' = ',' :: others) :
    readFields (fuel + 1) room ('"' :: input) =
      (readFields fuel room others).map fun found => ((key, v) :: found.1, found.2) := by
  rw [readFields, skipSpace_cons rfl]
  simp only [name, colon, item, comma]

/-! ## Values that are read back -/

/-- Reading takes the characters of a value off the front of what follows. -/
def IsReadBack (indent : Option Nat) (room : Nat) (v : Json) : Prop :=
  ∀ (fuel level : Nat) (rest : List Char), 2 * (write indent level v ++ rest).length ≤ fuel →
    readValue fuel room (write indent level v ++ rest) = .ok (v, rest)

variable {indent : Option Nat} {room : Nat}

theorem isReadBack_text {t : Text} (whole : t.IsWhole) : IsReadBack indent room (text t) := by
  intro fuel level rest enough
  cases fuel with
  | zero =>
    simp only [write, quote, List.length_append, List.length_cons] at enough
    omega
  | succ fuel =>
    have read : write indent level (text t) ++ rest = '"' :: (t.points.flatMap escape ++ '"' :: rest) := by
      rw [write, quote, List.append_assoc, List.cons_append, List.singleton_append]
    rw [read, readValue_quote, readText_escaped whole]
    rfl

/-- The items of a list, up to its end. -/
theorem readItems_write {v : Json} {items : List Json} {closing : List Char} (head : IsReadBack indent room v)
    (each : ∀ w ∈ items, IsReadBack indent room w) (blank : IsBlank closing) (fuel level : Nat) (rest : List Char)
    (enough : 2 * (write indent level v
      ++ behind indent level (items.map (write indent level)) (closing ++ ']' :: rest)).length < fuel) :
    readItems fuel room (write indent level v
      ++ behind indent level (items.map (write indent level)) (closing ++ ']' :: rest)) = .ok (v :: items, rest) := by
  induction items generalizing v fuel with
  | nil =>
    cases fuel with
    | zero => omega
    | succ fuel =>
      apply readItems_last (head _ _ _ (by omega))
      rw [List.map_nil, behind, List.flatMap_nil, List.nil_append, skipSpace_append blank, skipSpace_cons rfl]
  | cons w items ih =>
    cases fuel with
    | zero => omega
    | succ fuel =>
      obtain ⟨gap, isGap, more⟩ := behind_cons indent level (write indent level w) (items.map (write indent level))
        (closing ++ ']' :: rest)
      rw [List.map_cons, more] at enough ⊢
      rw [readItems_more (head _ _ _ (by omega)) (skipSpace_cons rfl _), readItems_append isGap, ih]
      · rfl
      · exact each w (List.mem_cons_self ..)
      · intro w' found
        exact each w' (List.mem_cons_of_mem _ found)
      · simp only [List.length_append, List.length_cons] at enough ⊢
        omega

/-- A written field begins with its name in quotes. -/
theorem writeField_append (indent : Option Nat) (level : Nat) (f : Text × Json) (rest : List Char) :
    writeField indent level f ++ rest =
      '"' :: (f.1.points.flatMap escape ++ '"' :: ':' :: ([' '] ++ (write indent level f.2 ++ rest))) := by
  simp only [writeField, quote, List.append_assoc, List.cons_append, List.nil_append]

/-- The fields of an object, up to its end. -/
theorem readFields_write {f : Text × Json} {fields : List (Text × Json)} {closing : List Char}
    (named : f.1.IsWhole) (names : ∀ g ∈ fields, g.1.IsWhole) (head : IsReadBack indent room f.2)
    (each : ∀ g ∈ fields, IsReadBack indent room g.2) (blank : IsBlank closing) (fuel level : Nat) (rest : List Char)
    (enough : 2 * (writeField indent level f
      ++ behind indent level (fields.map (writeField indent level)) (closing ++ '\x7d' :: rest)).length < fuel) :
    readFields fuel room (writeField indent level f
      ++ behind indent level (fields.map (writeField indent level)) (closing ++ '\x7d' :: rest)) =
        .ok (f :: fields, rest) := by
  induction fields generalizing f fuel with
  | nil =>
    cases fuel with
    | zero => omega
    | succ fuel =>
      rw [writeField_append] at enough ⊢
      simp only [List.length_append, List.length_cons] at enough
      apply readFields_last (readText_escaped named _) (skipSpace_cons rfl _)
      · rw [readValue_append isBlank_single, head]
        simp only [List.length_append]
        omega
      · rw [List.map_nil, behind, List.flatMap_nil, List.nil_append, skipSpace_append blank, skipSpace_cons rfl]
  | cons g fields ih =>
    cases fuel with
    | zero => omega
    | succ fuel =>
      obtain ⟨gap, isGap, more⟩ := behind_cons indent level (writeField indent level g)
        (fields.map (writeField indent level)) (closing ++ '\x7d' :: rest)
      rw [List.map_cons, more, writeField_append] at enough ⊢
      simp only [List.length_append, List.length_cons] at enough
      have value := head fuel level (',' :: (gap ++ (writeField indent level g
        ++ behind indent level (fields.map (writeField indent level)) (closing ++ '\x7d' :: rest))))
      rw [← readValue_append isBlank_single] at value
      rw [readFields_more (readText_escaped named _) (skipSpace_cons rfl _) (value ?_) (skipSpace_cons rfl _),
        readFields_append isGap, ih]
      · rfl
      · exact names g (List.mem_cons_self ..)
      · intro g' found
        exact names g' (List.mem_cons_of_mem _ found)
      · exact each g (List.mem_cons_self ..)
      · intro g' found
        exact each g' (List.mem_cons_of_mem _ found)
      · rw [List.length_append]
        omega
      · simp only [List.length_append, List.length_cons]
        omega

/-- No value begins with the end of a list. -/
theorem readValue_closing {input rest : List Char} (h : skipSpace input = ']' :: rest) (fuel room : Nat) :
    readValue fuel room input = .error .malformed := by
  cases fuel with
  | zero => rfl
  | succ fuel =>
    rw [readValue, h]
    rfl

/-- A list of values that are read back. -/
theorem isReadBack_list {items : List Json} (each : ∀ v ∈ items, IsReadBack indent room v) :
    IsReadBack indent (room + 1) (list items) := by
  intro fuel level rest enough
  rw [write, writeItems_eq] at enough ⊢
  cases items with
  | nil =>
    rw [List.map_nil, bracket, List.cons_append, List.singleton_append] at enough ⊢
    cases fuel with
    | zero => simp at enough
    | succ fuel => rfl
  | cons v items =>
    rw [List.map_cons, bracket_append] at enough ⊢
    simp only [List.length_append, List.length_cons] at enough
    cases fuel with
    | zero => omega
    | succ fuel =>
      have head := each v (List.mem_cons_self ..)
      rw [readValue_list, readItems_append (isBlank_newline _ _), readItems_write head]
      · rfl
      · intro w found
        exact each w (List.mem_cons_of_mem _ found)
      · exact isBlank_newline _ _
      · rw [List.length_append]
        omega
      · intro rest' closed
        have stuck := readValue_closing closed (fuel + 1) room
        rw [readValue_append (isBlank_newline _ _), head] at stuck
        · cases stuck
        · rw [List.length_append]
          omega

/-- An object with names of its own for values that are read back. -/
theorem isReadBack_record {fields : List (Text × Json)} (distinct : (fields.map (·.1)).Nodup)
    (names : ∀ f ∈ fields, f.1.IsWhole) (each : ∀ f ∈ fields, IsReadBack indent room f.2) :
    IsReadBack indent (room + 1) (record fields) := by
  intro fuel level rest enough
  rw [write, writeFields_eq] at enough ⊢
  cases fields with
  | nil =>
    rw [List.map_nil, bracket, List.cons_append, List.singleton_append] at enough ⊢
    cases fuel with
    | zero => simp at enough
    | succ fuel => rfl
  | cons f fields =>
    rw [List.map_cons, bracket_append] at enough ⊢
    simp only [List.length_append, List.length_cons] at enough
    cases fuel with
    | zero => omega
    | succ fuel =>
      rw [readValue_record, readFields_append (isBlank_newline _ _), readFields_write]
      · rw [Except.map, collectFields_of_nodup distinct]
      · exact names f (List.mem_cons_self ..)
      · intro g found
        exact names g (List.mem_cons_of_mem _ found)
      · exact each f (List.mem_cons_self ..)
      · intro g found
        exact each g (List.mem_cons_of_mem _ found)
      · exact isBlank_newline _ _
      · rw [List.length_append]
        omega
      · intro rest' closed
        rw [skipSpace_append (isBlank_newline _ _), writeField_append, skipSpace_cons rfl] at closed
        cases closed

/-- A written value made up of whole texts is read off the front of a text. -/
theorem readValue_write {v : Json} (h : Textual Text.IsWhole room v) : IsReadBack indent room v := by
  induction h with
  | text whole => exact isReadBack_text whole
  | list _ ih => exact isReadBack_list ih
  | record distinct names _ ih => exact isReadBack_record distinct names ih

/-- A document made up of whole texts is read back, whatever its layout. -/
theorem read_print {v : Json} (h : Textual Text.IsWhole deepest v) (indent : Option Int) :
    read (print indent v) = .ok v := by
  rw [read, print, String.toList_ofList]
  have found := @readValue_write (indent.map Int.toNat) _ v h (2 * (write (indent.map Int.toNat) 0 v).length + 2) 0 []
  rw [List.append_nil] at found
  rw [found (by omega)]
  rfl

/-! ## The characters of a document -/

theorem newline_ascii (indent : Option Nat) (level : Nat) : ∀ c ∈ newline indent level, c.toNat < 128 := by
  cases indent with
  | none => exact List.forall_mem_nil _
  | some n =>
    intro c found
    rcases List.mem_cons.1 found with rfl | blank
    · decide
    · rw [List.eq_of_mem_replicate blank]
      decide

theorem separator_ascii (indent : Option Nat) (level : Nat) : ∀ c ∈ separator indent level, c.toNat < 128 := by
  cases indent with
  | none =>
    rw [separator, List.forall_mem_cons, List.forall_mem_singleton]
    decide
  | some n => exact List.forall_mem_cons.2 ⟨by decide, newline_ascii _ _⟩

theorem bracket_ascii {opening closing : Char} {items : List (List Char)} (isOpening : opening.toNat < 128)
    (isClosing : closing.toNat < 128) (each : ∀ item ∈ items, ∀ c ∈ item, c.toNat < 128) (indent : Option Nat)
    (level : Nat) : ∀ c ∈ bracket indent level opening closing items, c.toNat < 128 := by
  cases items with
  | nil =>
    rw [bracket, List.forall_mem_cons, List.forall_mem_singleton]
    exact ⟨isOpening, isClosing⟩
  | cons item items =>
    obtain ⟨first, others⟩ := List.forall_mem_cons.1 each
    simp only [bracket, List.cons_append, List.forall_mem_cons, List.forall_mem_append]
    refine ⟨isOpening, ⟨⟨⟨newline_ascii _ _, first⟩, ?_⟩, newline_ascii _ _⟩, isClosing, List.forall_mem_nil _⟩
    intro c found
    obtain ⟨i, among, inside⟩ := List.mem_flatMap.1 found
    rcases List.mem_append.1 inside with gap | own
    · exact separator_ascii _ _ c gap
    · exact others i among c own

/-- A value made up of texts is written in ASCII. -/
theorem write_ascii {kind : Text → Prop} {v : Json} (h : Textual kind room v) (level : Nat) :
    ∀ c ∈ write indent level v, c.toNat < 128 := by
  induction h generalizing level with
  | text => exact quote_ascii _
  | list _ ih =>
    rw [write, writeItems_eq]
    apply bracket_ascii (by decide) (by decide)
    rw [List.forall_mem_map]
    intro v found
    exact ih v found (level + 1)
  | record _ _ _ ih =>
    rw [write, writeFields_eq]
    apply bracket_ascii (by decide) (by decide)
    rw [List.forall_mem_map]
    intro f found
    rw [writeField, List.forall_mem_append, List.forall_mem_append, List.forall_mem_cons, List.forall_mem_singleton]
    exact ⟨⟨quote_ascii f.1, by decide⟩, ih f found (level + 1)⟩

end Json

/-! ## Reports -/

namespace Report

variable {α : Type}

/-- A report is made up of texts: the names of its fields, the codes, and the ids and descriptions of its entries. -/
theorem textual_fragment {kind : Text → Prop} (r : Report α) (constants : ∀ s : String, kind s)
    (given : ∀ e ∈ r.entries, kind e.jobId ∧ kind e.description) (room : Nat) :
    Json.Textual kind (room + 4) r.fragment := by
  apply Json.Textual.list
  rw [List.forall_mem_map]
  intro e found
  obtain ⟨jobId, description⟩ := given e found
  apply Json.Textual.pair (by decide) (constants _) (constants _) (.text jobId)
  apply Json.Textual.list
  rw [List.forall_mem_singleton]
  exact Json.Textual.pair (by decide) (constants _) (constants _) (.text (constants _)) (.text description)

/-- The text of a report is ASCII, and a reader gets the fragment back from it: an object for each entry, with the
id of the job and a list of one reason. -/
theorem read_text (r : Report α) (indent : Option Int) :
    (∀ c ∈ (r.text indent).toList, c.toNat < 128) ∧
    ((∀ e ∈ r.entries, e.jobId.IsWhole ∧ e.description.IsWhole) → Json.read (r.text indent) = .ok r.fragment) ∧
    r.fragment = .list (r.entries.map fun e => .record
      [("jobId", .text e.jobId),
       ("reasons", .list [.record [("code", .text e.code.name), ("description", .text e.description)]])]) := by
  refine ⟨?_, ?_, rfl⟩
  · have textual := @textual_fragment α (fun _ => True) r (fun _ => trivial) (fun _ _ => ⟨trivial, trivial⟩) 0
    rw [text, Json.print, String.toList_ofList]
    exact Json.write_ascii textual 0
  · intro whole
    exact Json.read_print (r.textual_fragment Text.isWhole_ofString whole 979) indent

/-- A report whose ids and descriptions hold a quote, a backslash, a line break, a control character, a letter with an
accent, a code point beyond sixteen bits and half of a surrogate pair. -/
def strange : Report Float :=
  ⟨[⟨⟨[0x22, 0x5c, 0x0a, 0x07, 0xe9, 0x1f600].map .ofNat⟩, .capacity, ⟨[0xde00, 0xd83d, 0x7f].map .ofNat⟩, none, none⟩,
    ⟨⟨[]⟩, .unexplained, Reason.unexplained.description, some "V", some 0.5⟩]⟩

theorem read_text_strange :
    (∀ e ∈ strange.entries, e.jobId.IsWhole ∧ e.description.IsWhole) ∧
    Json.read (strange.text none) = .ok strange.fragment ∧
    Json.read (strange.text (some (-1))) = .ok strange.fragment ∧
    Json.read (strange.text (some 3)) = .ok strange.fragment := by
  have whole : ∀ e ∈ strange.entries, e.jobId.IsWhole ∧ e.description.IsWhole := by
    simp only [strange, List.forall_mem_cons]
    refine ⟨⟨by decide, by decide⟩, ⟨by decide, Text.isWhole_ofString _⟩, List.forall_mem_nil _⟩
  exact ⟨whole, (read_text strange none).2.1 whole, (read_text strange (some (-1))).2.1 whole,
    (read_text strange (some 3)).2.1 whole⟩

end Report
end Leftover
