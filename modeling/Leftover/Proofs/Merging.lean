/-
# Merged runs are in order

Merging keeps two runs in order. The items that go next are found by strides and halving, which tell the same as going
through them one by one, because in an ordered run those that pass stand first.

* `IsOrder`, `Ordered` : orders, and lists in order
* `gallop_take`, `gallop_drop` : what a gallop finds
* `Merge.IsMerging` : what holds of a merge under way, kept by each of its steps
* `Merge.run_isOver` : a merge comes to an end
* `mergeRuns_ordered` : two runs as one
-/
import Leftover.Order.Merge
import Mathlib.Data.List.Chain

namespace Leftover

variable {β : Type}

/-! ## Orders -/

/-- Of two items at most one goes before the other, and what does not go before an item does not go before any that
this one does not go before. -/
structure IsOrder (before : β → β → Bool) : Prop where
  asymm : ∀ a b, before a b = true → before b a = false
  trans : ∀ a b c, before b a = false → before c b = false → before c a = false

/-- No item goes before an earlier one. -/
def Ordered (before : β → β → Bool) (xs : List β) : Prop := xs.Pairwise fun a b => before b a = false

namespace IsOrder

variable {before : β → β → Bool} (order : IsOrder before)

include order

/-- The order the other way round. -/
theorem swap : IsOrder fun a b => before b a where
  asymm := fun a b => order.asymm b a
  trans := fun a b c ba cb => order.trans c b a cb ba

/-- An item that goes before another goes before all that the other one does. -/
theorem not_before_of_before {a b c : β} (ab : before a b = true) (cb : before c b = false) : before c a = false :=
  order.trans a b c (order.asymm a b ab) cb

end IsOrder

variable {before : β → β → Bool}

theorem ordered_reverse {xs : List β} : Ordered (fun a b => before b a) xs.reverse ↔ Ordered before xs := by
  rw [Ordered, List.pairwise_reverse]
  rfl

/-! ## Gallops -/

section

variable {passes : β → Bool} {run : List β}

/-- The items that pass stand before those that do not. -/
def Falls (passes : β → Bool) (run : List β) : Prop := run.Pairwise fun a b => passes b = true → passes a = true

theorem passesAt_beyond {k : Nat} (beyond : run.length ≤ k) : passesAt passes run k = false := by
  rw [passesAt, List.getElem?_eq_none beyond]
  rfl

/-- Before a place that passes all places do. -/
theorem Falls.passesAt (falls : Falls passes run) {i j : Nat} (le : i ≤ j) (h : passesAt passes run j = true) :
    Leftover.passesAt passes run i = true := by
  rcases Nat.eq_or_lt_of_le le with rfl | lt
  · exact h
  · obtain ⟨y, found, passed⟩ := (Option.any_eq_true _ _).mp h
    obtain ⟨inside, rfl⟩ := List.getElem?_eq_some_iff.mp found
    have inside' : i < run.length := Nat.lt_trans lt inside
    have earlier : passes run[i] = true := List.pairwise_iff_getElem.mp falls i j inside' inside lt passed
    rw [Leftover.passesAt, List.getElem?_eq_getElem inside']
    exact earlier

/-- Strides end with a place that passes and a later one that does not. -/
theorem stride_spec {fuel near far : Nat} (passed : passesAt passes run near = true) (lt : near < far)
    (enough : run.length ≤ far + fuel) :
    passesAt passes run (stride passes run fuel near far).1 = true
      ∧ (stride passes run fuel near far).1 < (stride passes run fuel near far).2
      ∧ passesAt passes run (stride passes run fuel near far).2 = false := by
  induction fuel generalizing near far with
  | zero => exact ⟨passed, lt, passesAt_beyond enough⟩
  | succ fuel ih =>
    rw [stride]
    split
    · rename_i further
      apply ih further
      · omega
      · omega
    · rename_i stopped
      exact ⟨passed, lt, Bool.not_eq_true _ ▸ stopped⟩

/-- Halving ends at the first place that does not pass. -/
theorem narrow_spec (falls : Falls passes run) (d : Direction) {fuel start width : Nat} (enough : width ≤ fuel)
    (lower : ∀ i < start, passesAt passes run i = true) (upper : passesAt passes run (start + width) = false) :
    (∀ i < narrow d passes run fuel start width, passesAt passes run i = true)
      ∧ passesAt passes run (narrow d passes run fuel start width) = false := by
  induction fuel generalizing start width with
  | zero =>
    obtain rfl : width = 0 := Nat.le_zero.mp enough
    exact ⟨lower, upper⟩
  | succ fuel ih =>
    cases width with
    | zero => exact ⟨lower, upper⟩
    | succ width =>
      have middle_le : d.middle (width + 1) ≤ width := by
        cases d with
        | forward =>
          show (width + 1) / 2 ≤ width
          omega
        | backward =>
          show (width + 1 - 1) / 2 ≤ width
          omega
      simp only [narrow]
      split
      · rename_i passed
        apply ih
        · omega
        · intro i lt
          exact falls.passesAt (Nat.le_of_lt_succ lt) passed
        · rw [show start + d.middle (width + 1) + 1 + (width - d.middle (width + 1)) = start + (width + 1) by omega]
          exact upper
      · rename_i stopped
        apply ih
        · omega
        · exact lower
        · exact Bool.not_eq_true _ ▸ stopped

/-- A gallop ends at the first place that does not pass. -/
theorem gallop_spec (falls : Falls passes run) (d : Direction) :
    (∀ i < gallop d passes run, passesAt passes run i = true) ∧ passesAt passes run (gallop d passes run) = false := by
  unfold gallop
  split
  · rename_i first
    have strided : passesAt passes run (stride passes run run.length 0 1).1 = true
        ∧ (stride passes run run.length 0 1).1 < (stride passes run run.length 0 1).2
        ∧ passesAt passes run (stride passes run run.length 0 1).2 = false :=
      stride_spec first Nat.zero_lt_one (by omega)
    obtain ⟨near_passes, lt, far_stops⟩ := strided
    have inside : (stride passes run run.length 0 1).1 < run.length := by
      by_contra beyond
      rw [passesAt_beyond (Nat.le_of_not_lt beyond)] at near_passes
      exact absurd near_passes (by simp)
    apply narrow_spec falls d
    · omega
    · intro i lt_near
      exact falls.passesAt (Nat.le_of_lt_succ lt_near) near_passes
    · -- the last place looked at is the one where the strides ended, or lies beyond the run
      rw [show (stride passes run run.length 0 1).1 + 1
        + (min (stride passes run run.length 0 1).2 run.length - (stride passes run run.length 0 1).1 - 1)
        = min (stride passes run run.length 0 1).2 run.length by omega]
      rcases Nat.le_total (stride passes run run.length 0 1).2 run.length with le | le
      · rw [Nat.min_eq_left le]
        exact far_stops
      · rw [Nat.min_eq_right le]
        exact passesAt_beyond (Nat.le_refl _)
  · rename_i stopped
    exact ⟨fun i lt => absurd lt (Nat.not_lt_zero i), Bool.not_eq_true _ ▸ stopped⟩

/-- All items that a gallop goes over pass. -/
theorem gallop_take (falls : Falls passes run) (d : Direction) :
    ∀ x ∈ run.take (gallop d passes run), passes x = true := by
  intro x member
  obtain ⟨i, inside, rfl⟩ := List.mem_take_iff_getElem.mp member
  have passed := (gallop_spec falls d).1 i (Nat.lt_of_lt_of_le inside (Nat.min_le_left _ _))
  rw [passesAt, List.getElem?_eq_getElem (Nat.lt_of_lt_of_le inside (Nat.min_le_right _ _))] at passed
  exact passed

/-- No item behind a gallop passes. -/
theorem gallop_drop (falls : Falls passes run) (d : Direction) :
    ∀ x ∈ run.drop (gallop d passes run), passes x = false := by
  intro x member
  obtain ⟨i, stands⟩ := List.mem_iff_getElem?.mp member
  rw [List.getElem?_drop] at stands
  by_contra passed
  rw [Bool.not_eq_false] at passed
  have here : passesAt passes run (gallop d passes run + i) = true := by
    rw [passesAt, stands]
    exact passed
  have first := falls.passesAt (Nat.le_add_right _ i) here
  rw [(gallop_spec falls d).2] at first
  exact absurd first (by simp)

end

/-! ## Merges under way -/

namespace Merge

/-- What is put out stands in order with what is left of each run, and the last item of `held` goes last of all. -/
structure IsMerging (before : β → β → Bool) (m : Merge β) : Prop where
  moving : Ordered before (m.out.reverse ++ m.moving)
  held : Ordered before (m.out.reverse ++ m.held)
  last : ∃ z, m.held.getLast? = some z ∧ ∀ x ∈ m.moving, before x z = true

namespace IsMerging

variable {m : Merge β} (merging : m.IsMerging before)

include merging

/-- Items of `moving` that no item of `held` goes before are put out. -/
theorem takeMoving {k : Nat} (next : ∀ x ∈ m.moving.take k, ∀ y ∈ m.held, before y x = false) :
    (m.takeMoving k).IsMerging before where
  moving := by
    have same : (m.takeMoving k).out.reverse ++ (m.takeMoving k).moving = m.out.reverse ++ m.moving := by
      simp [Merge.takeMoving]
    rw [same]
    exact merging.moving
  held := by
    obtain ⟨out, left, across⟩ := List.pairwise_append.mp merging.moving
    obtain ⟨-, held, across'⟩ := List.pairwise_append.mp merging.held
    simp only [Merge.takeMoving, List.reverse_append, List.reverse_reverse, Ordered, List.pairwise_append]
    refine ⟨⟨out, left.sublist (List.take_sublist _ _), fun a ha b hb => across a ha b (List.mem_of_mem_take hb)⟩,
      held, fun a ha b hb => ?_⟩
    rcases List.mem_append.mp ha with ha | ha
    · exact across' a ha b hb
    · exact next a ha b hb
  last := by
    obtain ⟨z, last, goes_last⟩ := merging.last
    exact ⟨z, last, fun x member => goes_last x (List.mem_of_mem_drop member)⟩

/-- Items of `held` but the last that no item of `moving` goes before are put out. -/
theorem takeHeld {k : Nat} (next : ∀ y ∈ m.held.take k, ∀ x ∈ m.moving, before x y = false)
    (stays : k < m.held.length) : (m.takeHeld k).IsMerging before where
  moving := by
    obtain ⟨-, moving, across⟩ := List.pairwise_append.mp merging.moving
    obtain ⟨out, left, across'⟩ := List.pairwise_append.mp merging.held
    simp only [Merge.takeHeld, List.reverse_append, List.reverse_reverse, Ordered, List.pairwise_append]
    refine ⟨⟨out, left.sublist (List.take_sublist _ _), fun a ha b hb => across' a ha b (List.mem_of_mem_take hb)⟩,
      moving, fun a ha b hb => ?_⟩
    rcases List.mem_append.mp ha with ha | ha
    · exact across a ha b hb
    · exact next a ha b hb
  held := by
    have same : (m.takeHeld k).out.reverse ++ (m.takeHeld k).held = m.out.reverse ++ m.held := by
      simp [Merge.takeHeld]
    rw [same]
    exact merging.held
  last := by
    obtain ⟨z, last, goes_last⟩ := merging.last
    refine ⟨z, ?_, goes_last⟩
    rw [Merge.takeHeld, List.getLast?_drop, if_neg (Nat.not_le.mpr stays)]
    exact last

variable (order : IsOrder before)

include order

/-- Items of `moving` that go before the first one of `held` are put out. -/
theorem takeMoving_of_first {k : Nat} {y : β} {ys : List β} (held : m.held = y :: ys)
    (wins : ∀ x ∈ m.moving.take k, before x y = true) : (m.takeMoving k).IsMerging before := by
  have ordered := (List.pairwise_append.mp merging.held).2.1
  rw [held, List.pairwise_cons] at ordered
  apply merging.takeMoving
  intro x hx y' hy'
  rcases List.mem_cons.mp (held ▸ hy') with rfl | later
  · exact order.asymm x y' (wins x hx)
  · exact order.not_before_of_before (wins x hx) (ordered.1 y' later)

/-- Items of `held` but the last that the first one of `moving` does not go before are put out. -/
theorem takeHeld_of_first {k : Nat} {x : β} {xs : List β} (moving : m.moving = x :: xs)
    (loses : ∀ y ∈ m.held.take k, before x y = false) (stays : k < m.held.length) :
    (m.takeHeld k).IsMerging before := by
  have ordered := (List.pairwise_append.mp merging.moving).2.1
  rw [moving, List.pairwise_cons] at ordered
  apply merging.takeHeld _ stays
  intro y hy x' hx'
  rcases List.mem_cons.mp (moving ▸ hx') with rfl | later
  · exact loses y hy
  · exact order.trans y x x' (loses y hy) (ordered.1 x' later)

end IsMerging

/-- A merge that is not over has items left to compare. -/
theorem exists_of_not_isOver {m : Merge β} (going : m.isOver = false) :
    ∃ x xs y y' ys, m.moving = x :: xs ∧ m.held = y :: y' :: ys := by
  rw [isOver, Bool.or_eq_false_iff, decide_eq_false_iff_not, List.isEmpty_eq_false_iff] at going
  obtain ⟨x, xs, moving⟩ := List.exists_cons_of_ne_nil going.1
  match held : m.held with
  | [] => exact absurd going.2 (by simp [held])
  | [y] => exact absurd going.2 (by simp [held])
  | y :: y' :: ys => exact ⟨x, xs, y, y', ys, moving, rfl⟩

section

variable (order : IsOrder before)

include order

theorem oneByOne_isMerging {m : Merge β} (merging : m.IsMerging before) (patience fuel : Nat) (last : Bool)
    (streak : Nat) : (m.oneByOne before patience fuel last streak).IsMerging before := by
  induction fuel generalizing last streak m with
  | zero => exact merging
  | succ fuel ih =>
    rw [oneByOne]
    split
    · rename_i x xs y y' ys moving held
      have next : (m.takeOne (before x y)).IsMerging before := by
        cases wins : before x y with
        | true =>
          apply merging.takeMoving_of_first order held
          simp [moving, wins]
        | false =>
          apply merging.takeHeld_of_first order moving
          · simp [held, wins]
          · simp [held]
      dsimp only
      generalize (if before x y = last then streak + 1 else 1) = won
      split
      · exact next
      · exact ih next _ _
    · exact merging

theorem stretchHeld_isMerging {m : Merge β} (merging : m.IsMerging before) (going : m.isOver = false) (d : Direction) :
    (m.stretchHeld d before).1.IsMerging before := by
  obtain ⟨x, xs, y, y', ys, moving, held⟩ := exists_of_not_isOver going
  have passes : (fun y => !m.moving.head?.any fun x => before x y) = fun y => !before x y := by
    funext y
    rw [moving]
    rfl
  have falls : Falls (fun y => !before x y) m.held := by
    refine (List.pairwise_append.mp merging.held).2.1.imp fun {a b} ba passed => ?_
    rw [Bool.not_eq_true'] at passed ⊢
    exact order.trans a b x ba passed
  have gone := gallop_take falls d
  have left := gallop_drop falls d
  simp only [stretchHeld, passes]
  generalize gallop d (fun y => !before x y) m.held = k at gone left
  -- the last item is not among those that go next
  have stays : k < m.held.length := by
    obtain ⟨z, last, goes_last⟩ := merging.last
    by_contra all
    rw [List.take_of_length_le (Nat.le_of_not_lt all)] at gone
    have passed := gone z (List.mem_of_getLast? last)
    rw [goes_last x (by simp [moving])] at passed
    exact absurd passed (by simp)
  have next : (m.takeHeld k).IsMerging before :=
    merging.takeHeld_of_first order moving (fun y hy => by simpa using gone y hy) stays
  split
  · exact next
  · obtain ⟨first, rest, rest_eq⟩ := List.exists_cons_of_ne_nil (List.drop_eq_nil_iff.not.mpr (Nat.not_le.mpr stays))
    apply next.takeMoving_of_first order rest_eq
    have wins := left first (by simp [rest_eq])
    simpa [takeHeld, moving] using wins

theorem stretchMoving_isMerging {m : Merge β} (merging : m.IsMerging before) (going : m.isOver = false)
    (d : Direction) : (m.stretchMoving d before).1.IsMerging before := by
  obtain ⟨x, xs, y, y', ys, moving, held⟩ := exists_of_not_isOver going
  have passes : (fun x => m.held.head?.any fun y => before x y) = fun x => before x y := by
    funext x
    rw [held]
    rfl
  have falls : Falls (fun x => before x y) m.moving := by
    refine (List.pairwise_append.mp merging.moving).2.1.imp fun {a b} ba passed => ?_
    by_contra stopped
    rw [Bool.not_eq_true] at stopped
    have stopped' : before b y = false := order.trans y a b stopped ba
    exact absurd (passed.symm.trans stopped') (by simp)
  have gone := gallop_take falls d
  have left := gallop_drop falls d
  simp only [stretchMoving, passes]
  generalize gallop d (fun x => before x y) m.moving = k at gone left
  have next : (m.takeMoving k).IsMerging before := merging.takeMoving_of_first order held gone
  split
  · exact next
  · rename_i going'
    obtain ⟨x', xs', y₀, y₁, ys', moving', held'⟩ := exists_of_not_isOver (Bool.not_eq_true _ ▸ going')
    apply next.takeHeld_of_first order moving'
    · intro y₂ first
      rw [show (m.takeMoving k).held = m.held from rfl, held] at first
      obtain rfl : y₂ = y := by simpa using first
      exact left x' (by rw [show m.moving.drop k = x' :: xs' from moving']; simp)
    · simp [held']

theorem bothStretches_isMerging {m : Merge β} (merging : m.IsMerging before) (going : m.isOver = false)
    (d : Direction) : (m.bothStretches d before).1.IsMerging before := by
  cases d with
  | forward =>
    have first := stretchHeld_isMerging order merging going .forward
    simp only [bothStretches]
    split
    · exact first
    · rename_i going'
      exact stretchMoving_isMerging order first (Bool.not_eq_true _ ▸ going') .forward
  | backward =>
    have first := stretchMoving_isMerging order merging going .backward
    simp only [bothStretches]
    split
    · exact first
    · rename_i going'
      exact stretchHeld_isMerging order first (Bool.not_eq_true _ ▸ going') .backward

theorem stretches_isMerging {m : Merge β} (merging : m.IsMerging before) (going : m.isOver = false) (d : Direction)
    (fuel patience : Nat) : (m.stretches d before fuel patience).1.IsMerging before := by
  induction fuel generalizing patience m with
  | zero => exact merging
  | succ fuel ih =>
    have next := bothStretches_isMerging order merging going d
    simp only [stretches]
    split
    · exact next
    · rename_i going'
      split
      · exact ih next (Bool.not_eq_true _ ▸ going') _
      · exact next

theorem run_isMerging {m : Merge β} (merging : m.IsMerging before) (d : Direction) (fuel patience : Nat) :
    (m.run d before fuel patience).1.IsMerging before := by
  induction fuel generalizing patience m with
  | zero => exact merging
  | succ fuel ih =>
    have first := oneByOne_isMerging order merging patience m.left false 0
    simp only [run]
    split
    · exact first
    · rename_i going
      have second := stretches_isMerging order first (Bool.not_eq_true _ ▸ going) d
      split
      · exact second _ _
      · exact ih (second _ _) _

end

/-! ### A merge comes to an end -/

theorem left_takeHeld_le (k : Nat) (m : Merge β) : (m.takeHeld k).left ≤ m.left := by
  simp only [left, takeHeld, List.length_drop]
  omega

theorem left_takeMoving_le (k : Nat) (m : Merge β) : (m.takeMoving k).left ≤ m.left := by
  simp only [left, takeMoving, List.length_drop]
  omega

theorem left_takeOne_lt {m : Merge β} (going : m.isOver = false) (movingWins : Bool) :
    (m.takeOne movingWins).left < m.left := by
  obtain ⟨x, xs, y, y', ys, moving, held⟩ := exists_of_not_isOver going
  cases movingWins with
  | true => simp [takeOne, takeMoving, left, moving, held]
  | false => simp [takeOne, takeHeld, left, moving, held]

theorem oneByOne_of_isOver (goesFirst : β → β → Bool) {m : Merge β} (ended : m.isOver = true)
    (patience fuel : Nat) (last : Bool) (streak : Nat) : m.oneByOne goesFirst patience fuel last streak = m := by
  cases fuel with
  | zero => rfl
  | succ fuel =>
    rw [oneByOne]
    split
    · rename_i moving held
      rw [isOver, moving, held] at ended
      exact absurd ended (by simp)
    · rfl

theorem left_oneByOne_le (goesFirst : β → β → Bool) (patience fuel : Nat) (last : Bool) (streak : Nat) (m : Merge β) :
    (m.oneByOne goesFirst patience fuel last streak).left ≤ m.left := by
  induction fuel generalizing last streak m with
  | zero => exact Nat.le_refl _
  | succ fuel ih =>
    rw [oneByOne]
    split
    · rename_i x xs y y' ys moving held
      have going : m.isOver = false := by simp [isOver, moving, held]
      have less := left_takeOne_lt going (goesFirst x y)
      dsimp only
      generalize (if goesFirst x y = last then streak + 1 else 1) = won
      split
      · exact Nat.le_of_lt less
      · exact Nat.le_trans (ih _ _ _) (Nat.le_of_lt less)
    · exact Nat.le_refl _

/-- One by one, an item at least is put out. -/
theorem left_oneByOne_lt (goesFirst : β → β → Bool) {m : Merge β} (going : m.isOver = false) (patience : Nat)
    {fuel : Nat} (some_fuel : 0 < fuel) (last : Bool) (streak : Nat) :
    (m.oneByOne goesFirst patience fuel last streak).left < m.left := by
  obtain ⟨fuel, rfl⟩ := Nat.exists_eq_succ_of_ne_zero (Nat.ne_of_gt some_fuel)
  rw [oneByOne]
  split
  · rename_i x xs y y' ys moving held
    have less := left_takeOne_lt going (goesFirst x y)
    dsimp only
    generalize (if goesFirst x y = last then streak + 1 else 1) = won
    split
    · exact less
    · exact Nat.lt_of_le_of_lt (left_oneByOne_le _ _ _ _ _ _) less
  · rename_i other
    obtain ⟨x, xs, y, y', ys, moving, held⟩ := exists_of_not_isOver going
    exact absurd held (other x xs y y' ys moving)

theorem left_stretchHeld_le (d : Direction) (goesFirst : β → β → Bool) (m : Merge β) :
    (m.stretchHeld d goesFirst).1.left ≤ m.left := by
  simp only [stretchHeld]
  split
  · exact left_takeHeld_le _ m
  · exact Nat.le_trans (left_takeMoving_le _ _) (left_takeHeld_le _ m)

theorem left_stretchMoving_le (d : Direction) (goesFirst : β → β → Bool) (m : Merge β) :
    (m.stretchMoving d goesFirst).1.left ≤ m.left := by
  simp only [stretchMoving]
  split
  · exact left_takeMoving_le _ m
  · exact Nat.le_trans (left_takeHeld_le _ _) (left_takeMoving_le _ m)

theorem left_bothStretches_le (d : Direction) (goesFirst : β → β → Bool) (m : Merge β) :
    (m.bothStretches d goesFirst).1.left ≤ m.left := by
  cases d with
  | forward =>
    simp only [bothStretches]
    split
    · exact left_stretchHeld_le _ _ m
    · exact Nat.le_trans (left_stretchMoving_le _ _ _) (left_stretchHeld_le _ _ m)
  | backward =>
    simp only [bothStretches]
    split
    · exact left_stretchMoving_le _ _ m
    · exact Nat.le_trans (left_stretchHeld_le _ _ _) (left_stretchMoving_le _ _ m)

theorem left_stretches_le (d : Direction) (goesFirst : β → β → Bool) (fuel patience : Nat) (m : Merge β) :
    (m.stretches d goesFirst fuel patience).1.left ≤ m.left := by
  induction fuel generalizing patience m with
  | zero => exact Nat.le_refl _
  | succ fuel ih =>
    have next := left_bothStretches_le d goesFirst m
    simp only [stretches]
    split
    · exact next
    · split
      · exact Nat.le_trans (ih _ _) next
      · exact next

/-- With fuel for all items that are left, a merge is over in the end. -/
theorem run_isOver (d : Direction) (goesFirst : β → β → Bool) {fuel : Nat} (patience : Nat) {m : Merge β}
    (enough : m.left ≤ fuel) : (m.run d goesFirst fuel patience).1.isOver = true := by
  induction fuel generalizing patience m with
  | zero =>
    have none : m.moving = [] := by
      rw [left] at enough
      exact List.eq_nil_of_length_eq_zero (by omega)
    simp [run, isOver, none]
  | succ fuel ih =>
    simp only [run]
    split
    · rename_i ended
      exact ended
    · rename_i going
      split
      · rename_i ended
        exact ended
      · -- the merge was not over before, so it has fewer items left now
        have going_before : m.isOver = false := by
          by_contra ended
          rw [Bool.not_eq_false] at ended
          exact going (by rw [oneByOne_of_isOver _ ended]; exact ended)
        have some_left : 0 < m.left := Nat.lt_of_le_of_lt (Nat.zero_le _) (left_takeOne_lt going_before true)
        have less : (m.oneByOne goesFirst patience m.left false 0).left < m.left :=
          left_oneByOne_lt goesFirst going_before patience some_left false 0
        have not_more := left_stretches_le d goesFirst (m.oneByOne goesFirst patience m.left false 0).left (patience + 1)
          (m.oneByOne goesFirst patience m.left false 0)
        apply ih
        omega

/-- When a merge is over, its items are in order. -/
theorem IsMerging.merged_ordered {m : Merge β} (merging : m.IsMerging before) (order : IsOrder before)
    (ended : m.isOver = true) : Ordered before m.merged := by
  rw [merged]
  rcases Bool.or_eq_true_iff.mp ended with none | one
  · rw [List.isEmpty_iff.mp none, List.append_nil]
    exact merging.held
  · obtain ⟨z, last, goes_last⟩ := merging.last
    have only : m.held = [z] := by
      rw [decide_eq_true_eq] at one
      have not_empty : m.held ≠ [] := by
        intro nothing
        rw [nothing] at last
        exact absurd last (by simp)
      obtain ⟨y, held⟩ := List.length_eq_one_iff.mp (Nat.le_antisymm one (List.length_pos_iff.mpr not_empty))
      rw [held] at last
      rw [held, ← Option.some.inj last]
      rfl
    have held := merging.held
    rw [only, Ordered, List.pairwise_append] at held
    rw [only, Ordered, List.pairwise_append]
    refine ⟨merging.moving, List.pairwise_singleton _ _, ?_⟩
    intro a ha b hb
    rcases List.mem_append.mp ha with ha | ha
    · exact held.2.2 a ha b hb
    · obtain rfl := List.mem_singleton.mp hb
      exact order.asymm a b (goes_last a ha)

/-- A merge that begins with an item of `moving` ends in order. -/
theorem run_ordered (order : IsOrder before) (d : Direction) (patience : Nat) {held moving : List β}
    (held_ordered : Ordered before held) (moving_ordered : Ordered before moving)
    (goes_last : ∃ z, held.getLast? = some z ∧ ∀ x ∈ moving, before x z = true)
    (goes_first : ∃ x, moving.head? = some x ∧ ∀ y ∈ held, before x y = true) :
    Ordered before (((Merge.mk [] held moving).takeMoving 1).run d before
      ((Merge.mk [] held moving).takeMoving 1).left patience).1.merged := by
  have start : (Merge.mk [] held moving).IsMerging before := ⟨moving_ordered, held_ordered, goes_last⟩
  have begun : ((Merge.mk [] held moving).takeMoving 1).IsMerging before := by
    obtain ⟨x, first, goes_first⟩ := goes_first
    obtain ⟨xs, moving_eq⟩ := List.head?_eq_some_iff.mp first
    apply start.takeMoving
    intro x' hx' y hy
    obtain rfl : x' = x := by simpa [moving_eq] using hx'
    exact order.asymm x' y (goes_first y hy)
  exact (run_isMerging order begun d _ _).merged_ordered order (run_isOver d before patience (Nat.le_refl _))

end Merge

/-! ## Two runs as one -/

section

variable (order : IsOrder before)

include order

/-- Two runs are merged in order, if the first item of the second goes before the whole first run, and the last item of
the first run behind the whole second. -/
theorem mergeOverlap_ordered (patience : Nat) {a b : List β} (first : Ordered before a) (second : Ordered before b)
    (goes_last : ∃ z, a.getLast? = some z ∧ ∀ y ∈ b, before y z = true)
    (goes_first : ∃ y, b.head? = some y ∧ ∀ x ∈ a, before y x = true) :
    Ordered before (mergeOverlap before patience a b).1 := by
  simp only [mergeOverlap]
  split
  · exact Merge.run_ordered order .forward patience first second goes_last goes_first
  · -- seen from the end it is the same merge by the opposite order
    rw [← ordered_reverse, List.reverse_reverse]
    apply Merge.run_ordered order.swap .backward patience (ordered_reverse.mpr second) (ordered_reverse.mpr first)
    · obtain ⟨y, head, before_all⟩ := goes_first
      exact ⟨y, by rw [List.getLast?_reverse, head], fun x hx => before_all x (List.mem_reverse.mp hx)⟩
    · obtain ⟨z, last, behind_all⟩ := goes_last
      exact ⟨z, by rw [List.head?_reverse, last], fun y hy => behind_all y (List.mem_reverse.mp hy)⟩

omit order in
/-- All items before a place in an ordered list and all behind it. -/
theorem Ordered.parts {xs : List β} (ordered : Ordered before xs) (k : Nat) :
    Ordered before (xs.take k) ∧ Ordered before (xs.drop k)
      ∧ ∀ x ∈ xs.take k, ∀ y ∈ xs.drop k, before y x = false := by
  rw [← List.take_append_drop k xs] at ordered
  exact List.pairwise_append.mp ordered

/-- A gallop over the first of two runs goes over the items that no item of the second goes before; the first item of
the second goes before the others. -/
theorem gallop_low {a b : List β} (first : Ordered before a) (second : Ordered before b) (d : Direction) :
    let k := gallop d (fun x => !b.head?.any fun y => before y x) a
    (∀ x ∈ a.take k, ∀ y ∈ b, before y x = false) ∧ ∀ x ∈ a.drop k, ∃ y, b.head? = some y ∧ before y x = true := by
  have falls : Falls (fun x => !b.head?.any fun y => before y x) a := by
    refine first.imp fun {x x'} ordered passed => ?_
    cases head : b.head? with
    | none => rfl
    | some y =>
      simp only [head, Option.any_some, Bool.not_eq_true'] at passed ⊢
      exact order.trans x x' y ordered passed
  refine ⟨?_, ?_⟩
  · intro x hx y hy
    have passed := gallop_take falls d x hx
    obtain ⟨y₀, ys, rfl⟩ := List.exists_cons_of_ne_nil (List.ne_nil_of_mem hy)
    simp only [List.head?_cons, Option.any_some, Bool.not_eq_true'] at passed
    rcases List.mem_cons.mp hy with rfl | later
    · exact passed
    · exact order.trans x y₀ y passed ((List.pairwise_cons.mp second).1 y later)
  · intro x hx
    have stopped := gallop_drop falls d x hx
    rw [Bool.not_eq_false', Option.any_eq_true] at stopped
    exact stopped

/-- A gallop backwards over the second of two runs goes over the items that do not go before any item of the first; the
others go before its last item. -/
theorem gallop_high {a b : List β} (first : Ordered before a) (second : Ordered before b) (d : Direction) :
    let l := b.length - gallop d (fun y => !a.getLast?.any fun x => before y x) b.reverse
    (∀ y ∈ b.drop l, ∀ x ∈ a, before y x = false) ∧ ∀ y ∈ b.take l, ∃ z, a.getLast? = some z ∧ before y z = true := by
  -- seen from the end it is the first of two runs by the opposite order
  have found := gallop_low order.swap (ordered_reverse.mpr second) (ordered_reverse.mpr first) d
  simp only [List.head?_reverse, List.take_reverse, List.drop_reverse, List.mem_reverse] at found
  exact found

/-- Two runs in order are one run in order when they are merged. -/
theorem mergeRuns_ordered (patience : Nat) {a b : List β} (first : Ordered before a) (second : Ordered before b) :
    Ordered before (mergeRuns before patience a b).1 := by
  obtain ⟨a_before, low_behind⟩ := gallop_low order first second .forward
  simp only [mergeRuns]
  generalize gallop .forward (fun x => !b.head?.any fun y => before y x) a = k at a_before low_behind
  obtain ⟨front, low, front_low⟩ := first.parts k
  obtain ⟨b_behind, high_before⟩ := gallop_high order low second .backward
  generalize b.length - gallop .backward (fun y => !(a.drop k).getLast?.any fun x => before y x) b.reverse = l
    at b_behind high_before
  obtain ⟨high, back, high_back⟩ := second.parts l
  split
  · rename_i none
    rw [Ordered, List.pairwise_append]
    refine ⟨first, second, fun x hx y hy => ?_⟩
    rw [← List.take_append_drop k a] at hx
    rcases List.mem_append.mp hx with hx | hx
    · exact a_before x hx y hy
    · -- some items of the first run are left, so none of the second goes before them
      rcases Bool.or_eq_true_iff.mp none with none | none
      · rw [List.isEmpty_iff.mp none] at hx
        exact absurd hx (by simp)
      · rw [← List.take_append_drop l b, List.isEmpty_iff.mp none, List.nil_append] at hy
        exact b_behind y hy x hx
  · rename_i some_left
    rw [Bool.or_eq_true_iff, not_or, List.isEmpty_iff, List.isEmpty_iff] at some_left
    have middle : Ordered before (mergeOverlap before patience (a.drop k) (b.take l)).1 := by
      apply mergeOverlap_ordered order patience low high
      · obtain ⟨y, ys, found⟩ := List.exists_cons_of_ne_nil some_left.2
        obtain ⟨z, last, -⟩ := high_before y (by simp [found])
        refine ⟨z, last, fun y' hy' => ?_⟩
        obtain ⟨z', last', wins⟩ := high_before y' hy'
        rw [Option.some.inj (last.symm.trans last')]
        exact wins
      · obtain ⟨y, ys, found⟩ := List.exists_cons_of_ne_nil some_left.2
        refine ⟨y, by simp [found], fun x hx => ?_⟩
        obtain ⟨y', head, wins⟩ := low_behind x hx
        rw [← List.take_append_drop l b, found, List.cons_append, List.head?_cons] at head
        rw [Option.some.inj head]
        exact wins
    have listed : ∀ w ∈ (mergeOverlap before patience (a.drop k) (b.take l)).1, w ∈ a.drop k ∨ w ∈ b.take l :=
      fun w hw => List.mem_append.mp ((mergeOverlap_perm before patience _ _).mem_iff.mp hw)
    rw [Ordered, List.pairwise_append, List.pairwise_append]
    refine ⟨⟨front, middle, fun x hx w hw => ?_⟩, back, fun x hx y hy => ?_⟩
    · rcases listed w hw with hw | hw
      · exact front_low x hx w hw
      · exact a_before x hx w (List.mem_of_mem_take hw)
    · rcases List.mem_append.mp hx with hx | hw
      · exact a_before x hx y (List.mem_of_mem_drop hy)
      · rcases listed x hw with hw | hw
        · exact b_behind y hy x hw
        · exact high_back x hw y hy

end

end Leftover
