/-
# Choosing the first least item

What is known of the item that is chosen from a list, without any law for the order: the choices that this library
makes compare numbers that need not be ordered.

* `firstLeast_of_exists` : a kind of items that comes before all others
* `firstLeast_le`, `firstLeast_key_le` : a relation that the order keeps to, and a number that it looks at first
* `firstLeast_map`, `firstLeast_congr` : the same choice among images, and by another order
* `exists_firstLeast_map` : the choice by an order without ties
-/
import Leftover.Diagnosis.Severity
import Mathlib.Data.List.Basic

namespace Leftover

variable {β γ : Type}

/-- If items of one kind come before all others, then the first least item is of that kind once there is one. -/
theorem firstLeast_of_exists {order : β → β → Ordering} {P : β → Prop}
    (gain : ∀ y best, P y → ¬P best → order y best = .lt) (keep : ∀ y best, ¬P y → P best → order y best ≠ .lt)
    {x : β} {xs : List β} (h : ∃ y ∈ x :: xs, P y) : P (firstLeast order x xs) := by
  induction xs generalizing x with
  | nil =>
    obtain ⟨y, member, hy⟩ := h
    rw [List.mem_singleton.mp member] at hy
    exact hy
  | cons z rest ih =>
    apply ih
    -- the better of the first two items is of the kind if one of them is
    by_cases hx : P x
    · by_cases hz : order z x = .lt
      · refine ⟨z, by simp [hz], ?_⟩
        by_contra hz'
        exact keep z x hz' hx hz
      · exact ⟨x, by simp [hz], hx⟩
    · obtain ⟨y, member, hy⟩ := h
      rcases List.mem_cons.mp member with rfl | member
      · exact absurd hy hx
      · rcases List.mem_cons.mp member with rfl | member
        · exact ⟨y, by simp [gain y x hy hx], hy⟩
        · exact ⟨y, List.mem_cons_of_mem _ member, hy⟩

/-- If what the order prefers is below what it leaves, by a relation that is transitive on the items of a list, then the
item chosen is below all of them. -/
theorem firstLeast_le {order : β → β → Ordering} {R : β → β → Prop} {x : β} {xs : List β}
    (of_lt : ∀ a ∈ x :: xs, ∀ b ∈ x :: xs, order a b = .lt → R a b)
    (of_not_lt : ∀ a ∈ x :: xs, ∀ b ∈ x :: xs, order a b ≠ .lt → R b a) (refl : ∀ a ∈ x :: xs, R a a)
    (trans : ∀ a ∈ x :: xs, ∀ b ∈ x :: xs, ∀ c ∈ x :: xs, R a b → R b c → R a c) {y : β} (member : y ∈ x :: xs) :
    R (firstLeast order x xs) y := by
  induction xs generalizing x y with
  | nil =>
    rw [List.mem_singleton.mp member]
    exact refl x List.mem_cons_self
  | cons z rest ih =>
    -- the better of the first two is one of the list, like all others
    obtain ⟨best, chosen, listed, below_x, below_z⟩ : ∃ best, (if order z x = .lt then z else x) = best ∧ best ∈ x :: z :: rest
        ∧ R best x ∧ R best z := by
      by_cases before : order z x = .lt
      · exact ⟨z, if_pos before, by simp, of_lt z (by simp) x (by simp) before, refl z (by simp)⟩
      · exact ⟨x, if_neg before, by simp, refl x (by simp), of_not_lt z (by simp) x (by simp) before⟩
    have all : ∀ a ∈ best :: rest, a ∈ x :: z :: rest :=
      List.forall_mem_cons.mpr ⟨listed, fun a later => List.mem_cons_of_mem _ (List.mem_cons_of_mem _ later)⟩
    have below_rest : ∀ {a}, a ∈ best :: rest → R (firstLeast order best rest) a :=
      ih (fun a ha b hb => of_lt a (all a ha) b (all b hb)) (fun a ha b hb => of_not_lt a (all a ha) b (all b hb))
        (fun a ha => refl a (all a ha)) fun a ha b hb c hc => trans a (all a ha) b (all b hb) c (all c hc)
    have found : firstLeast order best rest ∈ x :: z :: rest := all _ (firstLeast_mem order best rest)
    show R (firstLeast order (if order z x = .lt then z else x) rest) y
    rw [chosen]
    rcases List.mem_cons.mp member with rfl | member
    · exact trans _ found best listed y (by simp) (below_rest List.mem_cons_self) below_x
    · rcases List.mem_cons.mp member with rfl | member
      · exact trans _ found best listed y (by simp) (below_rest List.mem_cons_self) below_z
      · exact below_rest (List.mem_cons_of_mem _ member)

/-- If the order looks at a number of the items first, then no item has a smaller one than the item chosen. -/
theorem firstLeast_key_le {order : β → β → Ordering} (key : β → Nat)
    (le_of_lt : ∀ y best, order y best = .lt → key y ≤ key best)
    (lt_of_key : ∀ y best, key y < key best → order y best = .lt) {x : β} {xs : List β} {y : β}
    (member : y ∈ x :: xs) : key (firstLeast order x xs) ≤ key y := by
  refine firstLeast_le (fun a _ b _ => le_of_lt a b) ?_ ?_ ?_ member
  · exact fun a _ b _ after => Nat.le_of_not_lt fun smaller => after (lt_of_key a b smaller)
  · exact fun a _ => Nat.le_refl _
  · exact fun a _ b _ c _ => Nat.le_trans

/-- The first least of some images is the image of the item that is least by its image. -/
theorem firstLeast_map (order : γ → γ → Ordering) (f : β → γ) (x : β) (xs : List β) :
    firstLeast order (f x) (xs.map f) = f (firstLeast (fun a b => order (f a) (f b)) x xs) := by
  induction xs generalizing x with
  | nil => rfl
  | cons y rest ih =>
    show firstLeast order (if order (f y) (f x) = .lt then f y else f x) (rest.map f)
      = f (firstLeast _ (if order (f y) (f x) = .lt then y else x) rest)
    rw [← ih]
    congr 1
    split
    · rfl
    · rfl

/-- The first least of some images is the image of one of the items. -/
theorem firstLeast_map_mem (order : γ → γ → Ordering) (f : β → γ) (x : β) (xs : List β) :
    ∃ y ∈ x :: xs, firstLeast order (f x) (xs.map f) = f y :=
  ⟨_, firstLeast_mem _ x xs, firstLeast_map order f x xs⟩

/-- If the order of images puts the items of a list one after the other, then what is chosen is the image of the item
that comes before all others. -/
theorem exists_firstLeast_map (order : γ → γ → Ordering) (f : β → γ) {Before : β → β → Prop} {x : β} {xs : List β}
    (lt_iff : ∀ a ∈ x :: xs, ∀ b ∈ x :: xs, order (f a) (f b) = .lt ↔ Before a b)
    (trans : ∀ a ∈ x :: xs, ∀ b ∈ x :: xs, ∀ c ∈ x :: xs, Before a b → Before b c → Before a c)
    (total : ∀ a ∈ x :: xs, ∀ b ∈ x :: xs, a ≠ b → Before a b ∨ Before b a) :
    ∃ a ∈ x :: xs, firstLeast order (f x) (xs.map f) = f a ∧ ∀ b ∈ x :: xs, b ≠ a → Before a b := by
  refine ⟨_, firstLeast_mem _ x xs, firstLeast_map order f x xs, fun b listed other => ?_⟩
  generalize chosen : firstLeast (fun a b => order (f a) (f b)) x xs = best at other ⊢
  have below : best = b ∨ Before best b := by
    rw [← chosen]
    refine firstLeast_le (R := fun a b => a = b ∨ Before a b) ?_ ?_ (fun a _ => Or.inl rfl) ?_ listed
    · exact fun a ha b hb before => Or.inr ((lt_iff a ha b hb).mp before)
    · intro a ha b hb not_before
      by_cases same : b = a
      · exact Or.inl same
      · exact Or.inr ((total b hb a ha same).resolve_right fun before => not_before ((lt_iff a ha b hb).mpr before))
    · rintro a ha b hb c hc (rfl | ab) (rfl | bc)
      · exact Or.inl rfl
      · exact Or.inr bc
      · exact Or.inr ab
      · exact Or.inr (trans a ha b hb c hc ab bc)
  exact below.resolve_left (Ne.symm other)

/-- Two orders that agree on the items of a list choose the same one. -/
theorem firstLeast_congr {order order' : β → β → Ordering} {x : β} {xs : List β}
    (same : ∀ a ∈ x :: xs, ∀ b ∈ x :: xs, order a b = order' a b) :
    firstLeast order x xs = firstLeast order' x xs := by
  induction xs generalizing x with
  | nil => rfl
  | cons y rest ih =>
    show firstLeast order (if order y x = .lt then y else x) rest
      = firstLeast order' (if order' y x = .lt then y else x) rest
    rw [same y (by simp) x (by simp)]
    apply ih
    -- the better of the first two is one of the list, like all others
    have listed : ∀ a ∈ (if order' y x = .lt then y else x) :: rest, a ∈ x :: y :: rest := by
      intro a member
      rcases List.mem_cons.mp member with rfl | member
      · split
        · simp
        · simp
      · exact List.mem_cons_of_mem _ (List.mem_cons_of_mem _ member)
    exact fun a ha b hb => same a (listed a ha) b (listed b hb)

end Leftover
