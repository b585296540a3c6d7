/-
# Time windows

A time window in minutes from the planning origin, both ends included.

* `Window.contains` : a time lies in the window
* `Window.byStart` : windows in the order in which they open
-/
import Leftover.Order.Sorted
import Leftover.Quantity

namespace Leftover

/-- The times from `opens` to `closes`. -/
structure Window (α : Type) where
  opens : α
  closes : α
  deriving DecidableEq

/-- The window with its times changed. -/
def Window.map {α β : Type} (f : α → β) (w : Window α) : Window β := ⟨f w.opens, f w.closes⟩

namespace Window

variable {α : Type} [Quantity α]

/-- The time lies in the window. -/
def contains (w : Window α) (t : α) : Bool := decide (w.opens ≤ t) && decide (t ≤ w.closes)

/-- The window opens before another one. -/
def opensBefore (w v : Window α) : Bool := decide (w.opens < v.opens)

/-- Windows in the order in which they open; those that open at the same time keep their order. An undefined opening
time has no place in it, and with one among them the runs of the list decide. -/
def byStart (windows : List (Window α)) : List (Window α) :=
  if windows.any fun w => Quantity.isUndefined w.opens then sortedBy opensBefore windows
  else windows.mergeSort fun w v => !opensBefore v w

/-- Putting windows in order neither adds one nor drops one. -/
theorem byStart_perm (windows : List (Window α)) : (byStart windows).Perm windows := by
  rw [byStart]
  split
  · exact sortedBy_perm _ _
  · exact List.mergeSort_perm _ _

theorem mem_byStart {w : Window α} {windows : List (Window α)} : w ∈ byStart windows ↔ w ∈ windows :=
  (byStart_perm windows).mem_iff

theorem isEmpty_byStart {windows : List (Window α)} : (byStart windows).isEmpty = true ↔ windows = [] := by
  rw [List.isEmpty_iff_length_eq_zero, (byStart_perm windows).length_eq, List.length_eq_zero_iff]

end Window

end Leftover
