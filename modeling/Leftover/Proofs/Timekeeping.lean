/-
# Time goes on

A vehicle that sets out at a finite time is at every later stop at a finite time, or never gets there in finite time.
In no case its time is undefined: legs and services take no negative time, and waiting only adds to it. This holds of
exact numbers, and of doubles as well, whose sums are rounded.

* `Timekeeping` : what times have to be like
* `serve_isAhead`, `drive_isAhead` : the times of a drive
* `walk_isAhead` : the end of a route
-/
import Leftover.Proofs.Doubles
import Leftover.Proofs.Drive
import Leftover.Proofs.ExactOrder

namespace Leftover

/-! ## Times -/

/-- The time is finite, or later than zero. -/
def IsAhead {α : Type} [Quantity α] (x : α) : Prop := Quantity.isFinite x = true ∨ 0 < x

/-- A type of numbers that times can be kept in: those that are not undefined are ordered one after the other, and going
on from a time that is finite or later never leads to one that is neither. -/
class Timekeeping (α : Type) [Quantity α] : Prop where
  isFinite_infinity : Quantity.isFinite (Quantity.infinity : α) = false
  isUndefined_zero : Quantity.isUndefined (0 : α) = false
  isUndefined_of_pos (x : α) : 0 < x → Quantity.isUndefined x = false
  le_of_not_lt (x y : α) : Quantity.isUndefined x = false → Quantity.isUndefined y = false → ¬y < x → x ≤ y
  isAhead_of_lt (x y : α) : IsAhead x → x < y → IsAhead y
  isAhead_add (x y : α) : IsAhead x → 0 ≤ y → IsAhead (x + y)

/-! ### Exact times -/

theorem Exact.isAhead_iff {x : Exact} : IsAhead x ↔ x ≠ .undefined ∧ x ≠ .minusInfinity := by
  cases x with
  | undefined => exact iff_of_false (by unfold IsAhead; decide) (by simp)
  | minusInfinity => exact iff_of_false (by unfold IsAhead; decide) (by simp)
  | finite a => exact iff_of_true (Or.inl rfl) (by simp)
  | plusInfinity => exact iff_of_true (Or.inr (by decide)) (by simp)

theorem Exact.isAhead_of_nonneg {x : Exact} (h : 0 ≤ x) : IsAhead x := by
  rw [Exact.isAhead_iff]
  rw [Exact.le_def] at h
  cases x <;> simp_all [Exact.le, Exact.lt]

instance : Timekeeping Exact where
  isFinite_infinity := rfl
  isUndefined_zero := rfl
  isUndefined_of_pos x h := by
    cases x with
    | undefined => exact absurd h (by decide)
    | minusInfinity | finite a | plusInfinity => rfl
  le_of_not_lt x y hx hy h := by
    refine (Exact.not_lt ?_ ?_).mp h
    · rintro rfl
      exact absurd hy (by decide)
    · rintro rfl
      exact absurd hx (by decide)
  isAhead_of_lt x y hx h := by
    rw [Exact.isAhead_iff] at hx ⊢
    rw [Exact.lt_def] at h
    cases x <;> cases y <;> simp_all [Exact.lt]
  isAhead_add x y hx hy := by
    rw [Exact.isAhead_iff] at hx ⊢
    rw [Exact.le_def] at hy
    show Exact.add x y ≠ _ ∧ Exact.add x y ≠ _
    cases x <;> cases y <;> simp_all [Exact.add, Exact.le, Exact.lt]

/-! ### Times as doubles -/

theorem isAhead_float_iff {x : Float} : IsAhead x ↔ Ahead x.toModel.unpack := ahead_iff.symm

instance : Timekeeping Float where
  isFinite_infinity := by decide
  isUndefined_zero := by decide
  isUndefined_of_pos x positive := isNaN_of_ahead (ahead_of_lt ahead_zero positive)
  le_of_not_lt x y hx hy h := float_le_of_not_lt hx hy h
  isAhead_of_lt x y hx later := by
    rw [isAhead_float_iff] at hx ⊢
    exact ahead_of_lt hx later
  isAhead_add x y hx hy := by
    rw [isAhead_float_iff] at hx ⊢
    exact ahead_add hx (nonnegative_of_le hy)

/-! ## Times along a route -/

section

variable {α : Type} [Quantity α] [Timekeeping α]

/-- A finite figure of a matrix is not negative. -/
theorem figure_nonneg_of_isFinite {entry : Option α} (finite : Quantity.isFinite (Matrix.figure entry) = true) :
    0 ≤ Matrix.figure entry := by
  have endless : ¬Quantity.isFinite (Quantity.infinity : α) = true := by
    rw [Timekeeping.isFinite_infinity]
    exact Bool.false_ne_true
  cases entry with
  | none => exact absurd finite endless
  | some x =>
    rw [Matrix.figure] at finite ⊢
    split at finite
    · exact absurd finite endless
    · rename_i valid
      rw [not_or, Bool.not_eq_true] at valid
      rw [if_neg (by rw [not_or, Bool.not_eq_true]; exact valid)]
      exact Timekeeping.le_of_not_lt 0 x Timekeeping.isUndefined_zero valid.2 valid.1

/-- A leg takes no negative time. -/
theorem minutes_nonneg {m : Matrix α} {i j : Nat} {minutes meters : α}
    (leg : leg? m i j = .ok (some (minutes, meters))) : 0 ≤ minutes := by
  obtain ⟨minutes', timed, leg⟩ := except_bind_eq_ok.mp leg
  obtain ⟨entry, -, rfl⟩ := except_map_eq_ok.mp timed
  split at leg
  · rename_i finite
    obtain ⟨meters', -, leg⟩ := except_bind_eq_ok.mp leg
    simp only [except_pure, Except.ok.injEq, Option.some.injEq, Prod.mk.injEq] at leg
    rw [← leg.1]
    exact figure_nonneg_of_isFinite finite
  · exact absurd leg (by simp)

/-- Waiting for a window only adds to the time. -/
theorem serviceStart_isAhead (job : Job α) {arrival : α} (arrives : IsAhead arrival) :
    IsAhead (serviceStart job arrival).1 := by
  rw [serviceStart]
  split
  · exact arrives
  · split
    · rename_i w _
      show IsAhead (Quantity.larger arrival w.opens)
      rw [Quantity.larger]
      split
      · rename_i waits
        exact Timekeeping.isAhead_of_lt _ _ arrives waits
      · exact arrives
    · exact arrives

theorem serve_isAhead {here : Place α} {job : Job α} {minutes meters : α} (sets_out : IsAhead here.time)
    (minutes_nonneg : 0 ≤ minutes) (duration_nonneg : 0 ≤ job.duration) :
    IsAhead (serve here job minutes meters).place.time := by
  have arrives : IsAhead (here.time + minutes) := Timekeeping.isAhead_add _ _ sets_out minutes_nonneg
  have starts := serviceStart_isAhead job arrives
  exact Timekeeping.isAhead_add _ _ starts duration_nonneg

theorem drive_isAhead {m : Matrix α} {here last : Place α} {jobs : List (Job α)} {stops : List (ScheduledStop α)}
    (driven : drive m here jobs = .ok (stops, some last)) (sets_out : IsAhead here.time)
    (durations : ∀ job ∈ jobs, 0 ≤ job.duration) : IsAhead last.time := by
  induction jobs generalizing here stops with
  | nil =>
    simp only [drive_nil, Except.ok.injEq, Prod.mk.injEq, Option.some.injEq] at driven
    obtain ⟨-, rfl⟩ := driven
    exact sets_out
  | cons job rest ih =>
    obtain ⟨minutes, meters, later, leg, driven_on, rfl⟩ := drive_cons_eq_some driven
    rw [List.forall_mem_cons] at durations
    exact ih driven_on (serve_isAhead sets_out (minutes_nonneg leg) durations.1) durations.2

/-- A walk that gets through ends at a finite time, or later. -/
theorem walk_isAhead {v : Vehicle α} {m : Matrix α} {jobs : List (Job α)} {here : Place α} {startTime : α}
    {s : Schedule α} (walked : walk v m jobs here startTime = .ok s) (reachable : s.reachable = true)
    (durations : ∀ job ∈ jobs, 0 ≤ job.duration) : IsAhead s.endTime := by
  obtain ⟨sets_out, home, driven, arrived, same⟩ := walk_eq_reachable walked reachable
  have last : IsAhead (placeAfter here s.stops).time := drive_isAhead driven (Or.inl sets_out) durations
  rw [same]
  rcases arrive?_eq_some arrived with ⟨-, rfl⟩ | ⟨goal, minutes, meters, -, leg, rfl⟩
  · exact last
  · exact Timekeeping.isAhead_add _ _ last (minutes_nonneg leg)

end

end Leftover
