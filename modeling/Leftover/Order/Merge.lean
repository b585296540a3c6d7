/-
# Merging two runs

Two runs that follow each other are merged item by item. When one of them has won a number of times in a row,
the stretch of items that go next is looked for in strides and by halving instead, and taken as a whole. The
order in which items are compared is fixed, so that the outcome is so too when some of them have no order.

* `gallop` : how many items at the head of a run go next
* `Merge` : a merge under way, with `Merge.run` until one of the runs is used up
* `mergeRuns` : two runs as one
* `mergeRuns_perm` : no item is lost
-/

namespace Leftover

variable {β : Type}

/-! ## Stretches of items -/

/-- The end of a list from which a run is gone through. -/
inductive Direction : Type where
  | forward
  | backward
  deriving DecidableEq

/-- The place of the middle item of so many; of two in the middle it is the one nearer to the end of the list. -/
def Direction.middle : Direction → Nat → Nat
  | forward, width => width / 2
  | backward, width => (width - 1) / 2

/-- The item at a place passes; where there is none, none passes. -/
def passesAt (passes : β → Bool) (run : List β) (k : Nat) : Bool := run[k]?.any passes

/-- Strides over a run, each about twice as long as all before it: the last place that passes, and the next one
tried. -/
def stride (passes : β → Bool) (run : List β) : Nat → Nat → Nat → Nat × Nat
  | 0, near, far => (near, far)
  | fuel + 1, near, far =>
    if passesAt passes run far then stride passes run fuel far (2 * far + 1) else (near, far)

/-- The first of so many places from `start` on that does not pass, found by halving. -/
def narrow (d : Direction) (passes : β → Bool) (run : List β) : Nat → Nat → Nat → Nat
  | 0, start, _ => start
  | _ + 1, start, 0 => start
  | fuel + 1, start, width + 1 =>
    let k := d.middle (width + 1)
    if passesAt passes run (start + k) then narrow d passes run fuel (start + k + 1) (width - k)
    else narrow d passes run fuel start k

/-- How many items at the head of a run pass. The length of the run is enough fuel for each part. -/
def gallop (d : Direction) (passes : β → Bool) (run : List β) : Nat :=
  if passesAt passes run 0 then
    let (near, far) := stride passes run run.length 0 1
    narrow d passes run run.length (near + 1) (min far run.length - near - 1)
  else 0

/-! ## A merge under way -/

/-- Two runs that are being merged: the items put out so far, the last one first, and what is left of each. The
last item of the run `held` is known to go last of all. -/
structure Merge (β : Type) where
  out : List β
  held : List β
  moving : List β

namespace Merge

/-- The merge with the first items of `held` put out. -/
def takeHeld (k : Nat) (m : Merge β) : Merge β :=
  { m with out := (m.held.take k).reverse ++ m.out, held := m.held.drop k }

/-- The merge with the first items of `moving` put out. -/
def takeMoving (k : Nat) (m : Merge β) : Merge β :=
  { m with out := (m.moving.take k).reverse ++ m.out, moving := m.moving.drop k }

/-- The merge with one more item put out, of the run that wins. -/
def takeOne (movingWins : Bool) (m : Merge β) : Merge β := if movingWins then m.takeMoving 1 else m.takeHeld 1

/-- No comparison is left to make. -/
def isOver (m : Merge β) : Bool := m.moving.isEmpty || m.held.length ≤ 1

/-- All items, those that are left put at the end. -/
def merged (m : Merge β) : List β := m.out.reverse ++ m.moving ++ m.held

/-- The number of items that are left. -/
def left (m : Merge β) : Nat := m.held.length + m.moving.length

/-- Items are put out one by one until the merge is over or one run has won `patience` times in a row. The run
`moving` wins when its first item goes before that of the other; `last` and `streak` tell which run has won last
and how often. -/
def oneByOne (goesFirst : β → β → Bool) (patience : Nat) : Nat → Bool → Nat → Merge β → Merge β
  | 0, _, _, m => m
  | fuel + 1, last, streak, m =>
    match m.moving, m.held with
    | x :: _, y :: _ :: _ =>
      let wins := goesFirst x y
      let streak := if wins = last then streak + 1 else 1
      if patience ≤ streak then m.takeOne wins
      else oneByOne goesFirst patience fuel wins streak (m.takeOne wins)
    | _, _ => m

/-- The items of `held` that go before the first one of `moving` are put out, and then that one; with them the
number of the former. -/
def stretchHeld (d : Direction) (goesFirst : β → β → Bool) (m : Merge β) : Merge β × Nat :=
  let k := gallop d (fun y => !m.moving.head?.any fun x => goesFirst x y) m.held
  let next := m.takeHeld k
  (if next.isOver then next else next.takeMoving 1, k)

/-- The items of `moving` that go before the first one of `held` are put out, and then that one; with them the
number of the former. -/
def stretchMoving (d : Direction) (goesFirst : β → β → Bool) (m : Merge β) : Merge β × Nat :=
  let k := gallop d (fun x => m.held.head?.any fun y => goesFirst x y) m.moving
  let next := m.takeMoving k
  (if next.isOver then next else next.takeHeld 1, k)

/-- A stretch of each run: of the one that comes first in the list, and of the other one unless the merge is over
before. With it the length of the longer stretch. -/
def bothStretches (d : Direction) (goesFirst : β → β → Bool) (m : Merge β) : Merge β × Nat :=
  let (first, second) := match d with
    | .forward => (stretchHeld d goesFirst, stretchMoving d goesFirst)
    | .backward => (stretchMoving d goesFirst, stretchHeld d goesFirst)
  let (m, k) := first m
  if m.isOver then (m, k)
  else
    let (m, l) := second m
    (m, max k l)

/-- How often a run has to win in a row at first, and how long a stretch has to be for another one to be looked
for. -/
def usualPatience : Nat := 7

/-- Stretches are put out as long as they are long. Each one that is looked for makes the merge less patient, and
a short one more patient. -/
def stretches (d : Direction) (goesFirst : β → β → Bool) : Nat → Nat → Merge β → Merge β × Nat
  | 0, patience, m => (m, patience)
  | fuel + 1, patience, m =>
    let patience := if 1 < patience then patience - 1 else patience
    let (m, k) := bothStretches d goesFirst m
    if m.isOver then (m, patience)
    else if usualPatience ≤ k then stretches d goesFirst fuel patience m
    else (m, patience + 1)

/-- Items are put out until the merge is over, one by one and in stretches by turns. Each turn puts out an item,
so the number of those left is enough fuel. -/
def run (d : Direction) (goesFirst : β → β → Bool) : Nat → Nat → Merge β → Merge β × Nat
  | 0, patience, m => (m, patience)
  | fuel + 1, patience, m =>
    let m := m.oneByOne goesFirst patience m.left false 0
    if m.isOver then (m, patience)
    else
      let (m, patience) := m.stretches d goesFirst m.left (patience + 1)
      if m.isOver then (m, patience) else m.run d goesFirst fuel patience

end Merge

/-! ## Two runs as one -/

/-- Two runs merged, and how patient the next merge is. The first item of the second run is known to go before
the last one of the first, which goes last; the shorter run is held. -/
def mergeOverlap (before : β → β → Bool) (patience : Nat) (a b : List β) : List β × Nat :=
  if a.length ≤ b.length then
    let m := (Merge.mk [] a b).takeMoving 1
    let (m, patience) := m.run .forward before m.left patience
    (m.merged, patience)
  else
    let m := (Merge.mk [] b.reverse a.reverse).takeMoving 1
    let (m, patience) := m.run .backward (fun x y => before y x) m.left patience
    (m.merged.reverse, patience)

/-- Two runs that follow each other as one, and how patient the next merge is. What goes before all of the second
run, or after all of the first one, stays where it is. -/
def mergeRuns (before : β → β → Bool) (patience : Nat) (a b : List β) : List β × Nat :=
  let k := gallop .forward (fun x => !b.head?.any fun y => before y x) a
  let low := a.drop k
  let l := b.length - gallop .backward (fun y => !low.getLast?.any fun x => before y x) b.reverse
  let high := b.take l
  if low.isEmpty || high.isEmpty then (a ++ b, patience)
  else
    let (middle, patience) := mergeOverlap before patience low high
    (a.take k ++ middle ++ b.drop l, patience)

/-! ## Nothing is lost -/

namespace Merge

theorem merged_takeMoving (k : Nat) (m : Merge β) : (m.takeMoving k).merged = m.merged := by
  simp only [merged, takeMoving, List.reverse_append, List.reverse_reverse, List.append_assoc]
  rw [← List.append_assoc (m.moving.take k), List.take_append_drop]

theorem merged_takeHeld_perm (k : Nat) (m : Merge β) : (m.takeHeld k).merged.Perm m.merged := by
  simp only [merged, takeHeld, List.reverse_append, List.reverse_reverse, List.append_assoc]
  refine List.Perm.append_left _ ?_
  refine (List.perm_append_comm_assoc _ _ _).trans ?_
  rw [List.take_append_drop]

theorem merged_takeOne_perm (movingWins : Bool) (m : Merge β) : (m.takeOne movingWins).merged.Perm m.merged := by
  cases movingWins
  · exact merged_takeHeld_perm 1 m
  · exact .of_eq (merged_takeMoving 1 m)

theorem oneByOne_perm (goesFirst : β → β → Bool) (patience fuel : Nat) (last : Bool) (streak : Nat)
    (m : Merge β) : (m.oneByOne goesFirst patience fuel last streak).merged.Perm m.merged := by
  induction fuel generalizing last streak m with
  | zero => exact .refl _
  | succ fuel ih =>
    rw [oneByOne]
    split
    · rename_i x _ y _ _ _ _
      dsimp only
      generalize (if goesFirst x y = last then streak + 1 else 1) = won
      split
      · exact merged_takeOne_perm _ m
      · exact (ih _ _ _).trans (merged_takeOne_perm _ m)
    · exact .refl _

theorem stretchHeld_perm (d : Direction) (goesFirst : β → β → Bool) (m : Merge β) :
    (m.stretchHeld d goesFirst).1.merged.Perm m.merged := by
  simp only [stretchHeld]
  split
  · exact merged_takeHeld_perm _ m
  · rw [merged_takeMoving]
    exact merged_takeHeld_perm _ m

theorem stretchMoving_perm (d : Direction) (goesFirst : β → β → Bool) (m : Merge β) :
    (m.stretchMoving d goesFirst).1.merged.Perm m.merged := by
  simp only [stretchMoving]
  split
  · exact .of_eq (merged_takeMoving _ m)
  · exact (merged_takeHeld_perm 1 _).trans (.of_eq (merged_takeMoving _ m))

theorem bothStretches_perm (d : Direction) (goesFirst : β → β → Bool) (m : Merge β) :
    (m.bothStretches d goesFirst).1.merged.Perm m.merged := by
  cases d <;> simp only [bothStretches] <;> split
  · exact stretchHeld_perm _ _ m
  · exact (stretchMoving_perm _ _ _).trans (stretchHeld_perm _ _ m)
  · exact stretchMoving_perm _ _ m
  · exact (stretchHeld_perm _ _ _).trans (stretchMoving_perm _ _ m)

theorem stretches_perm (d : Direction) (goesFirst : β → β → Bool) (fuel patience : Nat) (m : Merge β) :
    (m.stretches d goesFirst fuel patience).1.merged.Perm m.merged := by
  induction fuel generalizing patience m with
  | zero => exact .refl _
  | succ fuel ih =>
    simp only [stretches]
    split
    · exact bothStretches_perm d goesFirst m
    · split
      · exact (ih _ _).trans (bothStretches_perm d goesFirst m)
      · exact bothStretches_perm d goesFirst m

theorem run_perm (d : Direction) (goesFirst : β → β → Bool) (fuel patience : Nat) (m : Merge β) :
    (m.run d goesFirst fuel patience).1.merged.Perm m.merged := by
  induction fuel generalizing patience m with
  | zero => exact .refl _
  | succ fuel ih =>
    have first := oneByOne_perm goesFirst patience m.left false 0 m
    simp only [run]
    split
    · exact first
    · split
      · exact (stretches_perm _ _ _ _ _).trans first
      · exact ((ih _ _).trans (stretches_perm _ _ _ _ _)).trans first

end Merge

theorem mergeOverlap_perm (before : β → β → Bool) (patience : Nat) (a b : List β) :
    (mergeOverlap before patience a b).1.Perm (a ++ b) := by
  simp only [mergeOverlap]
  split
  · refine (Merge.run_perm _ _ _ _ _).trans ?_
    rw [Merge.merged_takeMoving]
    exact List.perm_append_comm
  · refine (List.reverse_perm _).trans ((Merge.run_perm _ _ _ _ _).trans ?_)
    rw [Merge.merged_takeMoving]
    exact (List.reverse_perm a).append (List.reverse_perm b)

/-- Merging two runs only changes the order of their items. -/
theorem mergeRuns_perm (before : β → β → Bool) (patience : Nat) (a b : List β) :
    (mergeRuns before patience a b).1.Perm (a ++ b) := by
  simp only [mergeRuns]
  split
  · exact .refl _
  · refine (((mergeOverlap_perm before patience _ _).append_left _).append_right _).trans ?_
    refine .of_eq ?_
    rw [← List.append_assoc, List.take_append_drop, List.append_assoc, List.take_append_drop]

end Leftover
