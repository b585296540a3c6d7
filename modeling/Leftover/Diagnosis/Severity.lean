/-
# Comparing severities

A violation that can be measured is nearer to being kept than one that cannot, and a smaller severity is
nearer than a larger one.

* `compareSeverity` : the order of severities
* `firstLeast` : the first item of a list that no later item comes before
-/
import Leftover.Quantity

namespace Leftover

variable {α : Type} [Quantity α]

/-- The order of two quantities. An undefined one does not come before any other. -/
def compareQuantity (a b : α) : Ordering :=
  if Quantity.same a b then .eq else if a < b then .lt else .gt

/-- The order of two severities: the measured ones by size, those without a measure after them. -/
def compareSeverity : Option α → Option α → Ordering
  | none, none => .eq
  | none, some _ => .gt
  | some _, none => .lt
  | some a, some b => compareQuantity a b

/-- The order of two lists of severities: that of the first two that differ. -/
def compareSeverities : List (Option α) → List (Option α) → Ordering
  | a :: as, b :: bs => (compareSeverity a b).then (compareSeverities as bs)
  | [], [] => .eq
  | [], _ :: _ => .lt
  | _ :: _, [] => .gt

/-- The first item that no later one comes before. -/
def firstLeast {β : Type} (order : β → β → Ordering) (x : β) (xs : List β) : β :=
  xs.foldl (fun best y => if order y best = .lt then y else best) x

/-- The first least item is one of the list. -/
theorem firstLeast_mem {β : Type} (order : β → β → Ordering) (x : β) (xs : List β) :
    firstLeast order x xs ∈ x :: xs := by
  induction xs generalizing x with
  | nil => exact List.mem_singleton.2 rfl
  | cons y rest ih =>
    have h := ih (if order y x = .lt then y else x)
    rw [firstLeast, List.foldl_cons, ← firstLeast]
    rcases List.mem_cons.1 h with h | h
    · rw [h]
      split <;> simp
    · exact List.mem_cons_of_mem _ (List.mem_cons_of_mem _ h)

end Leftover
