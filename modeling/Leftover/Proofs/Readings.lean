/-
# What is read stays as it is

A value that was read from a document can be written as a document of its own and read once more. What the first
reading may have to interpret (clock texts, numbers in texts, pairs, names in any order) is written plainly, and the
second reading takes it as it stands. This is shown for single values, and for every way to build a reading from
readings of parts.

* `Yields` : what is read has a property
* `IsNormalForm` : what is read is read again from its own document
* `Reading.map_eq_value`, `Reading.seq_eq_value` : when a combined reading gives a value
* `yields_list`, `yields_optional`, ... : properties of many values
* `isNormalForm_list`, `isNormalForm_set`, ... : readings of many values
* `Fields.required_again`, `Fields.withDefault_again` : readings of the fields of an object
-/
import Leftover.Document.PlanReader
import Leftover.Document.SettingsReader
import Leftover.Document.Writer

namespace Leftover

/-- Whatever is read has a property. -/
def Yields {β : Type} (read : Json → Reading β) (P : β → Prop) : Prop := ∀ v b, read v = .value b → P b

/-- Whatever is read is read again, as the same value, from the document that is written for it. -/
def IsNormalForm {β : Type} (read : Json → Reading β) (write : β → Json) : Prop :=
  Yields read fun b => read (write b) = .value b

/-! ## When a reading gives a value -/

namespace Reading

variable {β γ : Type}

theorem map_eq_value {f : β → γ} {r : Reading β} {c : γ} : r.map f = value c ↔ ∃ b, r = value b ∧ f b = c := by
  cases r <;> simp [map]

theorem both_eq_value {f : Reading (β → γ)} {r : Reading β} {c : γ} :
    both f r = value c ↔ ∃ g, f = value g ∧ ∃ b, r = value b ∧ g b = c := by
  cases f <;> cases r <;> simp [both]

theorem functor_eq_value {f : β → γ} {r : Reading β} {c : γ} : f <$> r = value c ↔ ∃ b, r = value b ∧ f b = c :=
  map_eq_value

theorem seq_eq_value {f : Reading (β → γ)} {r : Reading β} {c : γ} :
    f <*> r = value c ↔ ∃ g, f = value g ∧ ∃ b, r = value b ∧ g b = c :=
  both_eq_value

theorem andThen_eq_value {r : Reading β} {f : β → Reading γ} {c : γ} :
    r.andThen f = value c ↔ ∃ b, r = value b ∧ f b = value c := by
  cases r <;> simp [andThen]

theorem below_eq_value {step : Text} {r : Reading β} {b : β} : r.below step = value b ↔ r = value b := by
  cases r <;> simp [below]

end Reading

open Reading

/-! ## Fields of an object -/

theorem readFields_eq_value {β : Type} {complaint : Complaint} {read : Fields → Reading β} {v : Json} {b : β} :
    readFields complaint read v = .value b ↔ ∃ fields, v = .record fields ∧ read fields = .value b := by
  cases v <;> simp [readFields, complain]

namespace Fields

variable {β : Type} {fields again : Fields} {name : String} {read : Json → Reading β} {write : β → Json}

theorem required_eq_value {b : β} :
    fields.required name read = .value b ↔ ∃ v, Json.lookup? name fields = some v ∧ read v = .value b := by
  rw [required]
  split
  · next v found => simp [found, below_eq_value]
  · next missing => simp [missing]

theorem withDefault_eq_value {fallback b : β} :
    fields.withDefault name fallback read = .value b ↔
      (∃ v, Json.lookup? name fields = some v ∧ read v = .value b) ∨
      (Json.lookup? name fields = none ∧ fallback = b) := by
  rw [withDefault]
  split
  · next v found => simp [found, below_eq_value]
  · next missing => simp [missing]

theorem of_required {P : β → Prop} {b : β} (yields : Yields read P) (accepted : fields.required name read = .value b) :
    P b := by
  obtain ⟨v, -, given⟩ := required_eq_value.1 accepted
  exact yields v b given

/-- A default has to have the property on its own. -/
theorem of_withDefault {P : β → Prop} {fallback b : β} (yields : Yields read P) (settled : P fallback)
    (accepted : fields.withDefault name fallback read = .value b) : P b := by
  rcases withDefault_eq_value.1 accepted with ⟨v, -, given⟩ | ⟨-, rfl⟩
  · exact yields v b given
  · exact settled

/-- A field that was read is read again where its document stands. -/
theorem required_again {b : β} (normal : IsNormalForm read write) (accepted : fields.required name read = .value b)
    (found : Json.lookup? name again = some (write b)) : again.required name read = .value b := by
  have settled := of_required (P := fun c => read (write c) = .value c) normal accepted
  exact required_eq_value.2 ⟨write b, found, settled⟩

/-- So is a field that may be missing, if its default is read from its own document. -/
theorem withDefault_again {fallback b : β} (normal : IsNormalForm read write)
    (settled : read (write fallback) = .value fallback) (accepted : fields.withDefault name fallback read = .value b)
    (found : Json.lookup? name again = some (write b)) : again.withDefault name fallback read = .value b := by
  have settled := of_withDefault (P := fun c => read (write c) = .value c) normal settled accepted
  exact withDefault_eq_value.2 (Or.inl ⟨write b, found, settled⟩)

end Fields

/-! ## Readings of parts -/

section
variable {β : Type} {read : Json → Reading β} {write : β → Json} {P : β → Prop}

/-- A value that is checked before it is kept. -/
theorem isNormalForm_andThen {check : β → Reading β} (normal : IsNormalForm read write)
    (keeps : ∀ b c, check b = .value c → b = c) : IsNormalForm (fun v => (read v).andThen check) write := by
  intro v c accepted
  obtain ⟨b, given, checked⟩ := andThen_eq_value.1 accepted
  obtain rfl := keeps b c checked
  exact andThen_eq_value.2 ⟨b, normal v b given, checked⟩

theorem yields_optional (yields : Yields read P) : Yields (readOptional read) fun o => ∀ b ∈ o, P b := by
  rintro v o accepted b ⟨⟩
  have given : read v = .value b := by
    cases v with
    | null => cases accepted
    | _ =>
      obtain ⟨c, given, same⟩ := map_eq_value.1 accepted
      cases same
      exact given
  exact yields v b given

theorem readOptional_of_ne_null {v : Json} (h : v ≠ .null) : readOptional read v = (read v).map some := by
  cases v with
  | null => exact absurd rfl h
  | _ => rfl

/-- A value that may be null, if it is never written as null. -/
theorem isNormalForm_optional (normal : IsNormalForm read write) (told : ∀ b, write b ≠ .null) :
    IsNormalForm (readOptional read) (Json.ofOption write) := by
  intro v b accepted
  cases b with
  | none => rfl
  | some b =>
    have given : v ≠ .null := by
      rintro rfl
      cases accepted
    rw [readOptional_of_ne_null given, map_eq_value] at accepted
    obtain ⟨c, found, same⟩ := accepted
    cases same
    rw [Json.ofOption, readOptional_of_ne_null (told b), normal v b found, map]

theorem readItems_map {bs : List β} (each : ∀ b ∈ bs, read (write b) = .value b) (k : Nat) :
    readItems read k (bs.map write) = .value bs := by
  induction bs generalizing k with
  | nil => rfl
  | cons b bs ih =>
    have first := each b (List.mem_cons_self ..)
    have others := ih (fun c found => each c (List.mem_cons_of_mem _ found)) (k + 1)
    rw [List.map_cons, readItems, others, first]
    rfl

theorem of_readItems (yields : Yields read P) {k : Nat} {items : List Json} {bs : List β}
    (accepted : readItems read k items = .value bs) : ∀ b ∈ bs, P b := by
  induction items generalizing k bs with
  | nil =>
    cases accepted
    exact List.forall_mem_nil P
  | cons v items ih =>
    rw [readItems, both_eq_value] at accepted
    obtain ⟨g, first, cs, others, rfl⟩ := accepted
    obtain ⟨c, given, rfl⟩ := map_eq_value.1 first
    exact List.forall_mem_cons.2 ⟨yields v c (below_eq_value.1 given), ih others⟩

theorem readList_eq_value {v : Json} {bs : List β} :
    readList read v = .value bs ↔ ∃ items, v = .list items ∧ readItems read 0 items = .value bs := by
  cases v <;> simp [readList, complain]

theorem yields_list (yields : Yields read P) : Yields (readList read) fun bs => ∀ b ∈ bs, P b := by
  intro v bs accepted
  obtain ⟨items, rfl, given⟩ := readList_eq_value.1 accepted
  exact of_readItems yields given

theorem isNormalForm_list (normal : IsNormalForm read write) : IsNormalForm (readList read) (Json.ofList write) := by
  intro v bs accepted
  apply readList_eq_value.2
  exact ⟨bs.map write, rfl, readItems_map (yields_list normal v bs accepted) 0⟩

theorem isNormalForm_pair (normal : IsNormalForm read write) :
    IsNormalForm (readPair read) (fun p => .list [write p.1, write p.2]) := by
  rintro v ⟨first, second⟩ accepted
  rw [readPair.eq_def] at accepted
  split at accepted
  · split at accepted
    · cases accepted
    · rw [both_eq_value] at accepted
      obtain ⟨_, _, _, ⟨⟩, _⟩ := accepted
    · rw [both_eq_value] at accepted
      obtain ⟨_, given, _, right, same⟩ := accepted
      obtain ⟨_, left, rfl⟩ := map_eq_value.1 given
      cases same
      rw [readPair, normal _ _ (below_eq_value.1 left), normal _ _ (below_eq_value.1 right)]
      rfl
    · cases accepted
  · cases accepted

theorem readEntries_map {entries : List (Text × β)} (each : ∀ e ∈ entries, read (write e.2) = .value e.2) :
    readEntries read (entries.map fun e => (e.1, write e.2)) = .value entries := by
  induction entries with
  | nil => rfl
  | cons e entries ih =>
    have first := each e (List.mem_cons_self ..)
    have others := ih fun e' found => each e' (List.mem_cons_of_mem _ found)
    rw [List.map_cons, readEntries, others, first]
    rfl

theorem of_readEntries (yields : Yields read P) {fields : Fields} {entries : List (Text × β)}
    (accepted : readEntries read fields = .value entries) : ∀ e ∈ entries, P e.2 := by
  induction fields generalizing entries with
  | nil =>
    cases accepted
    exact List.forall_mem_nil _
  | cons f fields ih =>
    rw [readEntries, both_eq_value] at accepted
    obtain ⟨g, first, others, later, rfl⟩ := accepted
    obtain ⟨c, given, rfl⟩ := map_eq_value.1 first
    exact List.forall_mem_cons.2 ⟨yields f.2 c (below_eq_value.1 given), ih later⟩

theorem yields_dictionary (yields : Yields read P) :
    Yields (readDictionary read) fun entries => ∀ e ∈ entries, P e.2 := by
  intro v entries accepted
  obtain ⟨fields, rfl, given⟩ := readFields_eq_value.1 accepted
  exact of_readEntries yields given

theorem isNormalForm_dictionary (normal : IsNormalForm read write) :
    IsNormalForm (readDictionary read) (fun entries => .record (entries.map fun e => (e.1, write e.2))) := by
  intro v entries accepted
  apply readFields_eq_value.2
  exact ⟨_, rfl, readEntries_map (yields_dictionary normal v entries accepted)⟩

end

/-! ## Sets of names -/

theorem Text.lt_irrefl (a : Text) : ¬a < a := List.lt_irrefl a.points

theorem Text.lt_trans {a b c : Text} (h : a < b) (h' : b < c) : a < c := List.lt_trans h h'

/-- Of two texts one comes first. -/
theorem Text.lt_of_not_lt {a b : Text} (h : ¬a < b) (other : a ≠ b) : b < a := by
  have apart : b.points ≠ a.points := fun same => other (congrArg Text.mk same.symm)
  exact (List.le_iff_lt_or_eq.1 (List.not_lt.1 h)).resolve_right apart

/-- The names are in ascending order. -/
def IsAscending (names : List Text) : Prop := names.Pairwise (· < ·)

theorem isAscending_insertName {name : Text} {names : List Text} (ascending : IsAscending names) :
    IsAscending (insertName name names) := by
  induction names with
  | nil => exact List.pairwise_singleton _ name
  | cons n names ih =>
    obtain ⟨first, others⟩ := List.pairwise_cons.1 ascending
    rw [insertName]
    split
    · next before =>
      apply List.pairwise_cons.2
      refine ⟨?_, ascending⟩
      intro m found
      rcases List.mem_cons.1 found with rfl | later
      · exact before
      · exact Text.lt_trans before (first m later)
    split
    · exact ascending
    · next notBefore other =>
      apply List.pairwise_cons.2
      refine ⟨?_, ih others⟩
      intro m found
      rcases mem_insertName.1 found with rfl | later
      · exact Text.lt_of_not_lt notBefore other
      · exact first m later

theorem isAscending_nameSet (names : List Text) : IsAscending (nameSet names) := by
  have kept : ∀ done, IsAscending done → IsAscending (names.foldl (fun done name => insertName name done) done) := by
    induction names with
    | nil => exact fun _ ascending => ascending
    | cons name names ih => exact fun done ascending => ih _ (isAscending_insertName ascending)
  exact kept [] List.Pairwise.nil

/-- A name after all others is put at the end. -/
theorem insertName_of_forall_lt {name : Text} {names : List Text} (last : ∀ n ∈ names, n < name) :
    insertName name names = names ++ [name] := by
  induction names with
  | nil => rfl
  | cons n names ih =>
    obtain ⟨first, others⟩ := List.forall_mem_cons.1 last
    have notBefore : ¬name < n := fun before => Text.lt_irrefl n (Text.lt_trans first before)
    have other : name ≠ n := by
      rintro rfl
      exact Text.lt_irrefl name first
    rw [insertName, if_neg notBefore, if_neg other, ih others, List.cons_append]

/-- Names in ascending order are a set of names as they are. -/
theorem nameSet_of_isAscending {names : List Text} (ascending : IsAscending names) : nameSet names = names := by
  have kept : ∀ done, IsAscending (done ++ names) →
      names.foldl (fun done name => insertName name done) done = done ++ names := by
    induction names with
    | nil =>
      intro done _
      rw [List.foldl_nil, List.append_nil]
    | cons name names ih =>
      intro done together
      have last : ∀ n ∈ done, n < name := fun n found =>
        (List.pairwise_append.1 together).2.2 n found name (List.mem_cons_self ..)
      rw [List.foldl_cons, insertName_of_forall_lt last, ih (List.pairwise_cons.1 ascending).2]
      · rw [List.append_assoc, List.singleton_append]
      · rwa [List.append_assoc, List.singleton_append]
  exact kept [] ascending

theorem isNormalForm_set : IsNormalForm readSet document := by
  intro v names accepted
  cases v with
  | list items =>
    obtain ⟨listed, _, rfl⟩ := map_eq_value.1 accepted
    have again : readItems readText 0 ((nameSet listed).map .text) = .value (nameSet listed) :=
      readItems_map (fun t _ => (rfl : readText (.text t) = .value t)) 0
    apply map_eq_value.2
    exact ⟨nameSet listed, again, nameSet_of_isAscending (isAscending_nameSet listed)⟩
  | _ => cases accepted

/-! ## Single values -/

theorem isNormalForm_text : IsNormalForm readText document := fun _ _ _ => rfl

theorem isNormalForm_whole : IsNormalForm readWhole document := fun _ _ _ => rfl

theorem isNormalForm_measure : IsNormalForm readMeasure document := fun _ _ _ => rfl

theorem isNormalForm_flag : IsNormalForm readFlag document := fun _ _ _ => rfl

theorem isNormalForm_clock : IsNormalForm readClock document := fun _ _ _ => rfl

theorem isNormalForm_nat : IsNormalForm readNat document := by
  intro v n _
  have kept : (0 : Int) ≤ n := Int.natCast_nonneg n
  apply andThen_eq_value.2
  refine ⟨n, rfl, ?_⟩
  rw [if_pos kept, Int.toNat_natCast]

theorem isNormalForm_nonNegative : IsNormalForm readNonNegative document := by
  apply isNormalForm_andThen isNormalForm_measure
  intro x y checked
  split at checked
  · cases checked
    rfl
  · cases checked

theorem isNormalForm_positive : IsNormalForm readPositive document := by
  apply isNormalForm_andThen isNormalForm_measure
  intro x y checked
  split at checked
  · cases checked
    rfl
  · cases checked

theorem readString_ofString (s : String) : readString s = .value s := by
  rw [readString, Text.toString?_ofString]

/-- One of a family of named values is written as its name. -/
theorem isNormalForm_name {β : Type} (family : List β) (name : β → String) :
    IsNormalForm (readName family name) (fun b => .text (name b)) := by
  intro v b accepted
  cases v with
  | text t =>
    obtain ⟨s, _, given⟩ := andThen_eq_value.1 accepted
    split at given
    · next found =>
      cases given
      have named := List.find?_some found
      rw [decide_eq_true_eq] at named
      rw [readName, readString_ofString, andThen, named]
      rw [found]
    · cases given
  | _ => cases accepted

end Leftover
