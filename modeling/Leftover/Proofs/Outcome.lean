/-
# Results that can fail

How the result of a step that is made of others depends on theirs, with and without warnings.

* `except_bind_eq_ok`, `except_bind_eq_error` : when two steps in a row succeed, and when they fail
* `Parallel` : two results side by side, the same fault or related values
* `Observed.outcome_bind` : warnings do not change results
* `Observed.warnings_bind` : the warnings of two steps in a row
* `Observed.WarnsOnly` : all warnings of a result are of some kind
-/
import Leftover.Diagnosis.Warning
import Mathlib.Data.List.Forall2

namespace Leftover

section

variable {ε β γ : Type}

@[simp] theorem except_pure (b : β) : (pure b : Except ε β) = .ok b := rfl

@[simp] theorem except_ok_bind (b : β) (f : β → Except ε γ) : (Except.ok b >>= f) = f b := rfl

@[simp] theorem except_error_bind (e : ε) (f : β → Except ε γ) : (Except.error e >>= f) = .error e := rfl

@[simp] theorem except_map_ok (f : β → γ) (b : β) : Except.map f (.ok b : Except ε β) = .ok (f b) := rfl

@[simp] theorem except_map_error (f : β → γ) (e : ε) : Except.map f (.error e : Except ε β) = .error e := rfl

/-- Two steps in a row succeed if both do. -/
theorem except_bind_eq_ok {x : Except ε β} {f : β → Except ε γ} {c : γ} :
    x >>= f = .ok c ↔ ∃ b, x = .ok b ∧ f b = .ok c := by
  cases x with
  | error e => simp
  | ok b => simp

/-- Two steps in a row fail if the first does, or the second after the first. -/
theorem except_bind_eq_error {x : Except ε β} {f : β → Except ε γ} {e : ε} :
    x >>= f = .error e ↔ x = .error e ∨ ∃ b, x = .ok b ∧ f b = .error e := by
  cases x with
  | error e' => simp
  | ok b => simp

/-- A step for each item of a list succeeds if all of them do. -/
theorem except_forM_eq_ok {xs : List β} {f : β → Except ε Unit} : xs.forM f = .ok () ↔ ∀ x ∈ xs, f x = .ok () := by
  induction xs with
  | nil => simp
  | cons x rest ih =>
    rw [List.forM_eq_forM] at ih ⊢
    rw [List.forM_cons, except_bind_eq_ok, List.forall_mem_cons]
    constructor
    · rintro ⟨_, done, more⟩
      exact ⟨done, ih.mp more⟩
    · rintro ⟨done, more⟩
      exact ⟨(), done, ih.mpr more⟩

/-- A step for each item of a list fails with the fault of one of them. -/
theorem mem_of_forM_eq_error {xs : List β} {f : β → Except ε Unit} {e : ε} (h : xs.forM f = .error e) :
    ∃ x ∈ xs, f x = .error e := by
  induction xs with
  | nil => exact absurd h (by simp)
  | cons x rest ih =>
    rw [List.forM_eq_forM, List.forM_cons, except_bind_eq_error] at h
    rcases h with first | ⟨_, -, later⟩
    · exact ⟨x, by simp, first⟩
    · obtain ⟨x', listed, failed⟩ := ih later
      exact ⟨x', List.mem_cons_of_mem _ listed, failed⟩

/-- A step for each item of a list succeeds with the result of each. -/
theorem except_mapM_eq_ok {xs : List β} {f : β → Except ε γ} {ys : List γ} :
    xs.mapM f = .ok ys ↔ List.Forall₂ (fun x y => f x = .ok y) xs ys := by
  induction xs generalizing ys with
  | nil => simp [eq_comm]
  | cons x rest ih =>
    simp only [List.mapM_cons, except_bind_eq_ok, except_pure, Except.ok.injEq, List.forall₂_cons_left_iff, ih]
    constructor
    · rintro ⟨y, first, others, more, rfl⟩
      exact ⟨y, others, first, more, rfl⟩
    · rintro ⟨y, others, first, more, rfl⟩
      exact ⟨y, first, others, more, rfl⟩

/-- What comes out of a step for each item of a list comes out of one of them. -/
theorem mem_of_mapM_eq_ok {xs : List β} {f : β → Except ε γ} {ys : List γ} (h : xs.mapM f = .ok ys) {y : γ}
    (member : y ∈ ys) : ∃ x ∈ xs, f x = .ok y := by
  rw [except_mapM_eq_ok] at h
  induction h with
  | nil => cases member
  | @cons x _ _ _ first _ ih =>
    rcases List.mem_cons.mp member with rfl | member
    · exact ⟨x, List.mem_cons_self .., first⟩
    · obtain ⟨x', listed, found⟩ := ih member
      exact ⟨x', List.mem_cons_of_mem _ listed, found⟩

/-- A step for each item of a list succeeds with results if all of them do. -/
theorem exists_mapM_iff {xs : List β} {f : β → Except ε γ} :
    (∃ ys, xs.mapM f = .ok ys) ↔ ∀ x ∈ xs, ∃ y, f x = .ok y := by
  induction xs with
  | nil => exact iff_of_true ⟨[], rfl⟩ (by simp)
  | cons x rest ih =>
    rw [List.forall_mem_cons, ← ih]
    simp only [List.mapM_cons, except_bind_eq_ok, except_pure, Except.ok.injEq]
    constructor
    · rintro ⟨_, y, first, ys, others, -⟩
      exact ⟨⟨y, first⟩, ys, others⟩
    · rintro ⟨⟨y, first⟩, ys, others⟩
      exact ⟨_, y, first, ys, others, rfl⟩

/-- A step for each item of a list fails as it does for the first item for which it fails. -/
theorem except_mapM_eq_error {xs : List β} {f : β → Except ε γ} {e : ε} :
    xs.mapM f = .error e ↔ ∃ before x after, xs = before ++ x :: after ∧ (∀ y ∈ before, ∃ c, f y = .ok c) ∧ f x = .error e := by
  induction xs with
  | nil => exact iff_of_false (by simp) (by simp)
  | cons x rest ih =>
    simp only [List.mapM_cons, except_bind_eq_error, ih]
    constructor
    · rintro (failed | ⟨c, first, ⟨before, x', after, rfl, fine, failed⟩ | ⟨_, -, none⟩⟩)
      · exact ⟨[], x, rest, rfl, by simp, failed⟩
      · exact ⟨x :: before, x', after, rfl, List.forall_mem_cons.mpr ⟨⟨c, first⟩, fine⟩, failed⟩
      · exact absurd none (by simp)
    · rintro ⟨before, x', after, split, fine, failed⟩
      cases before with
      | nil =>
        obtain ⟨rfl, rfl⟩ := List.cons.inj split
        exact Or.inl failed
      | cons y before =>
        obtain ⟨rfl, rfl⟩ := List.cons.inj split
        rw [List.forall_mem_cons] at fine
        obtain ⟨⟨c, first⟩, fine⟩ := fine
        exact Or.inr ⟨c, first, Or.inl ⟨before, x', after, rfl, fine, failed⟩⟩

theorem except_map_eq_ok {x : Except ε β} {f : β → γ} {c : γ} :
    x.map f = .ok c ↔ ∃ b, x = .ok b ∧ f b = c := by
  cases x with
  | error e => simp
  | ok b => simp

theorem except_map_eq_error {x : Except ε β} {f : β → γ} {e : ε} : x.map f = .error e ↔ x = .error e := by
  cases x with
  | error e' => simp
  | ok b => simp

end

/-! ## Results side by side -/

/-- Of two results both are the same fault, or both are values, which are related. -/
inductive Parallel {ε β γ : Type} (R : β → γ → Prop) : Except ε β → Except ε γ → Prop
  | error (e : ε) : Parallel R (.error e) (.error e)
  | ok {b : β} {c : γ} (related : R b c) : Parallel R (.ok b) (.ok c)

namespace Parallel

variable {ε β β' γ γ' : Type} {R : β → γ → Prop} {S : β' → γ' → Prop}

/-- Steps that are taken side by side stay so. -/
theorem bind {x : Except ε β} {y : Except ε γ} {f : β → Except ε β'} {g : γ → Except ε γ'} (first : Parallel R x y)
    (second : ∀ b c, R b c → Parallel S (f b) (g c)) : Parallel S (x >>= f) (y >>= g) := by
  cases first with
  | error e => exact .error e
  | ok related => exact second _ _ related

theorem map {x : Except ε β} {y : Except ε γ} {f : β → β'} {g : γ → γ'} (first : Parallel R x y)
    (second : ∀ b c, R b c → S (f b) (g c)) : Parallel S (x.map f) (y.map g) := by
  cases first with
  | error e => exact .error e
  | ok related => exact .ok (second _ _ related)

/-- Results side by side with the same one for each pair of related values are the same. -/
theorem bind_eq {x : Except ε β} {y : Except ε γ} {f : β → Except ε β'} {g : γ → Except ε β'} (first : Parallel R x y)
    (second : ∀ b c, R b c → f b = g c) : x >>= f = y >>= g := by
  cases first with
  | error e => rfl
  | ok related => exact second _ _ related

/-- Results side by side are the same if related values are. -/
theorem eq {R : β → β → Prop} {x y : Except ε β} (both : Parallel R x y) (same : ∀ b c, R b c → b = c) : x = y := by
  cases both with
  | error e => rfl
  | ok related => rw [same _ _ related]

/-- A value stands beside a value. -/
theorem exists_ok {x : Except ε β} {y : Except ε γ} (both : Parallel R x y) {c : γ} (found : y = .ok c) :
    ∃ b, x = .ok b ∧ R b c := by
  subst found
  cases both with
  | ok related => exact ⟨_, rfl, related⟩

/-- The same fault stands beside a fault. -/
theorem eq_error {e : ε} {x : Except ε β} (both : Parallel R x (.error e : Except ε γ)) : x = .error e := by
  cases both
  rfl

end Parallel

/-! ## Warnings -/

namespace Observed

variable {α β γ : Type}

@[simp] theorem outcome_pure (b : β) : (pure b : Observed α β).outcome = .ok b := rfl

@[simp] theorem outcome_ofExcept (x : Except Fault β) : (ofExcept x : Observed α β).outcome = x := rfl

@[simp] theorem outcome_warn (warnings : List (Warning α)) : (warn warnings).outcome = .ok () := rfl

/-- Warnings do not change results. -/
@[simp] theorem outcome_bind (x : Observed α β) (f : β → Observed α γ) :
    (x >>= f).outcome = x.outcome >>= fun b => (f b).outcome := by
  show (andThen x f).outcome = _
  unfold andThen
  cases x.outcome with
  | error e => rfl
  | ok b => rfl

@[simp] theorem warnings_pure (b : β) : (pure b : Observed α β).warnings = [] := rfl

@[simp] theorem warnings_ofExcept (x : Except Fault β) : (ofExcept x : Observed α β).warnings = [] := rfl

@[simp] theorem warnings_warn (warnings : List (Warning α)) : (warn warnings).warnings = warnings := rfl

/-- The warnings of a step that succeeds come before those of the next one. -/
theorem warnings_bind {x : Observed α β} {b : β} (found : x.outcome = .ok b) (f : β → Observed α γ) :
    (x >>= f).warnings = x.warnings ++ (f b).warnings := by
  show (andThen x f).warnings = _
  rw [andThen, found]

/-- A step may be replaced by one that does the same with every result that it can be given. -/
theorem bind_congr {x : Observed α β} {f g : β → Observed α γ} (same : ∀ b, x.outcome = .ok b → f b = g b) :
    x >>= f = x >>= g := by
  show andThen x f = andThen x g
  unfold andThen
  cases found : x.outcome with
  | error e => rfl
  | ok b => simp only [same b found]

/-- All warnings of a result are of some kind. -/
def WarnsOnly (P : Warning α → Prop) (x : Observed α β) : Prop := ∀ w ∈ x.warnings, P w

variable {P : Warning α → Prop}

theorem warnsOnly_pure (b : β) : (pure b : Observed α β).WarnsOnly P := by
  intro w member
  exact absurd member (by simp)

theorem warnsOnly_ofExcept (x : Except Fault β) : (ofExcept x : Observed α β).WarnsOnly P := by
  intro w member
  exact absurd member (by simp)

/-- Two steps in a row warn as each of them does, the second one after a success of the first. -/
theorem WarnsOnly.bind {x : Observed α β} {f : β → Observed α γ} (first : x.WarnsOnly P)
    (second : ∀ b, x.outcome = .ok b → (f b).WarnsOnly P) : (x >>= f).WarnsOnly P := by
  show (andThen x f).WarnsOnly P
  unfold andThen
  cases done : x.outcome with
  | error fault => exact first
  | ok b =>
    intro w member
    rcases List.mem_append.mp member with member | member
    · exact first w member
    · exact second b done w member

end Observed

end Leftover
