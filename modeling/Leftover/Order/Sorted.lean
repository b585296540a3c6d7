/-
# Sorting

Items sorted by an order of their own. The list is cut into runs, and neighbouring runs are merged, those whose
boundary lies deepest first when the list is halved again and again. Items of which none comes before the other
keep their order.

* `sortedBy` : a list in order
* `sortedBy_perm` : sorting only changes the order
-/
import Leftover.Order.Merge
import Leftover.Order.Run

namespace Leftover

variable {β : Type}

/-! ## Boundaries between runs -/

/-- The first binary place, counted from one, in which two parts of a whole differ. -/
def firstDifference (whole : Nat) : Nat → Nat → Nat → Nat
  | 0, _, _ => 0
  | fuel + 1, a, b =>
    if whole ≤ 2 * a then firstDifference whole fuel (2 * a - whole) (2 * b - whole) + 1
    else if whole ≤ 2 * b then 1
    else firstDifference whole fuel (2 * a) (2 * b) + 1

/-- How deep the boundary between two neighbouring runs lies in a list of so many items: the first place in which
the middles of both differ as parts of the list. Half items are counted, and no place is beyond their number. -/
def boundaryDepth (items start left right : Nat) : Nat :=
  firstDifference (2 * items) (2 * items) (2 * start + left) (2 * start + 2 * left + right)

/-! ## Waiting runs -/

/-- Runs that wait to be merged, the last one of the list first, each with the depth of the boundary to the run
after it. -/
abbrev WaitingRuns (β : Type) := List (List β × Nat)

/-- The number of items in some runs. -/
def itemCount (runs : WaitingRuns β) : Nat := runs.foldl (fun count run => count + run.1.length) 0

/-- A run merged with those before it whose boundaries lie deeper than a depth, and the runs before these. -/
def mergeDeeper (before : β → β → Bool) (depth : Nat) :
    Nat → List β → WaitingRuns β → (List β × WaitingRuns β) × Nat
  | patience, run, [] => ((run, []), patience)
  | patience, run, (previous, boundary) :: rest =>
    if depth < boundary then
      let (run, patience) := mergeRuns before patience previous run
      mergeDeeper before depth patience run rest
    else ((run, (previous, boundary) :: rest), patience)

/-- The waiting runs with one more, before which those with deeper boundaries are merged. -/
def addRun (before : β → β → Bool) (items patience : Nat) (next : List β) :
    WaitingRuns β → WaitingRuns β × Nat
  | [] => ([(next, 0)], patience)
  | (run, _) :: rest =>
    let depth := boundaryDepth items (itemCount rest) run.length next.length
    let ((run, rest), patience) := mergeDeeper before depth patience run rest
    ((next, 0) :: (run, depth) :: rest, patience)

/-- All runs merged, the last one of the list first. Two runs are merged at a time, the last two or, if the one
before them is shorter than the last, the two before the last. The number of runs is enough fuel. -/
def mergeAll (before : β → β → Bool) : Nat → Nat → List (List β) → List β
  | _, _, [] => []
  | _, _, [run] => run
  | 0, _, runs => runs.reverse.flatten
  | _ + 1, patience, [last, previous] => (mergeRuns before patience previous last).1
  | fuel + 1, patience, last :: previous :: first :: rest =>
    if first.length < last.length then
      let (run, patience) := mergeRuns before patience first previous
      mergeAll before fuel patience (last :: run :: rest)
    else
      let (run, patience) := mergeRuns before patience previous last
      mergeAll before fuel patience (run :: first :: rest)

/-! ## Sorting -/

/-- The least number of items in a run of a list of so many: from 32 to 64, so that the runs are as many as a power
of two or a little fewer. -/
def leastRun (items : Nat) : Nat :=
  if 64 ≤ items then
    let halvings := Nat.log2 items - 5
    let least := items >>> halvings
    if least <<< halvings = items then least else least + 1
  else items

/-- The waiting runs of a list, added to those of what stands before it. Each run takes an item at least, so the
number of items is enough fuel. -/
def addRuns (before : β → β → Bool) (items : Nat) :
    Nat → Nat → WaitingRuns β → List β → WaitingRuns β × Nat
  | 0, patience, runs, xs => ((xs, 0) :: runs, patience)
  | _ + 1, patience, runs, [] => (runs, patience)
  | fuel + 1, patience, runs, x :: xs =>
    let (run, rest) := nextRun before (leastRun items) (x :: xs)
    let (runs, patience) := addRun before items patience run runs
    addRuns before items fuel patience runs rest

/-- The items in order; `before` tells which of two comes first. -/
def sortedBy (before : β → β → Bool) (xs : List β) : List β :=
  let (runs, patience) := addRuns before xs.length xs.length Merge.usualPatience [] xs
  mergeAll before runs.length patience (runs.map (·.1))

/-! ## Nothing is lost -/

/-- The items of waiting runs, in the order of the list. -/
def WaitingRuns.items (runs : WaitingRuns β) : List β := (runs.map (·.1)).reverse.flatten

@[simp] theorem items_nil : WaitingRuns.items ([] : WaitingRuns β) = [] := rfl

@[simp] theorem items_cons (run : List β × Nat) (runs : WaitingRuns β) :
    WaitingRuns.items (run :: runs) = runs.items ++ run.1 := by simp [WaitingRuns.items]

theorem mergeDeeper_perm (before : β → β → Bool) (depth patience : Nat) (run : List β) (runs : WaitingRuns β) :
    ((mergeDeeper before depth patience run runs).1.2.items ++ (mergeDeeper before depth patience run runs).1.1).Perm
      (runs.items ++ run) := by
  induction runs generalizing patience run with
  | nil => simp [mergeDeeper]
  | cons previous rest ih =>
    rw [mergeDeeper]
    split
    · refine (ih _ _).trans ?_
      rw [items_cons, List.append_assoc]
      exact (mergeRuns_perm before patience _ run).append_left _
    · exact .refl _

theorem addRun_perm (before : β → β → Bool) (items patience : Nat) (next : List β) (runs : WaitingRuns β) :
    (addRun before items patience next runs).1.items.Perm (runs.items ++ next) := by
  cases runs with
  | nil => simp [addRun]
  | cons run rest =>
    simp only [addRun, items_cons]
    exact (mergeDeeper_perm before _ patience _ rest).append_right next

theorem addRuns_perm (before : β → β → Bool) (items fuel patience : Nat) (runs : WaitingRuns β) (xs : List β) :
    (addRuns before items fuel patience runs xs).1.items.Perm (runs.items ++ xs) := by
  induction fuel generalizing patience runs xs with
  | zero => simp [addRuns]
  | succ fuel ih =>
    cases xs with
    | nil => simp [addRuns]
    | cons x xs =>
      simp only [addRuns]
      refine (ih _ _ _).trans ?_
      refine ((addRun_perm before items patience _ runs).append_right _).trans ?_
      rw [List.append_assoc]
      exact (nextRun_perm before (leastRun items) (x :: xs)).append_left _

theorem mergeAll_perm (before : β → β → Bool) (fuel patience : Nat) (runs : List (List β)) :
    (mergeAll before fuel patience runs).Perm runs.reverse.flatten := by
  induction fuel, patience, runs using mergeAll.induct before with
  | case1 => simp [mergeAll]
  | case2 => simp [mergeAll]
  | case3 => simp [mergeAll]
  | case4 fuel patience last previous => simpa [mergeAll] using mergeRuns_perm before patience previous last
  | case5 fuel patience last previous first rest shorter run next merged ih =>
    have only := mergeRuns_perm before patience first previous
    rw [merged] at only
    simp only [mergeAll, shorter, if_true, merged]
    refine ih.trans ?_
    simp only [List.reverse_cons, List.flatten_append, List.flatten_cons, List.flatten_nil, List.append_nil,
      List.append_assoc]
    rw [← List.append_assoc first]
    exact (only.append_right last).append_left _
  | case6 fuel patience last previous first rest longer run next merged ih =>
    have only := mergeRuns_perm before patience previous last
    rw [merged] at only
    simp only [mergeAll, longer, if_false, merged]
    refine ih.trans ?_
    simp only [List.reverse_cons, List.flatten_append, List.flatten_cons, List.flatten_nil, List.append_nil,
      List.append_assoc]
    exact (only.append_left _).append_left _

/-- Sorting only changes the order. -/
theorem sortedBy_perm (before : β → β → Bool) (xs : List β) : (sortedBy before xs).Perm xs :=
  (mergeAll_perm before _ _ _).trans (addRuns_perm before xs.length xs.length _ [] xs)

end Leftover
