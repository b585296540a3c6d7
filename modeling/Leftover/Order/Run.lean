/-
# Runs

A run is a stretch of a list that is in order. The items at the head that stand in order already, or in the
opposite order, make up a run; one that is too short is filled up with the items after it, each put in its
place, which is found by halving.

* `firstRun` : the run at the head of a list, and the rest
* `nextRun` : the same, filled up to a least length
* `nextRun_perm` : no item is lost
-/

namespace Leftover

variable {β : Type}

/-! ## The items at the head -/

/-- The items that go on from `x` as long as neighbours stand to each other as they should, and the rest. -/
def spanNeighbours (goesOn : β → β → Bool) (x : β) : List β → List β × List β
  | [] => ([], [])
  | y :: rest =>
    if goesOn x y then (y :: (spanNeighbours goesOn y rest).1, (spanNeighbours goesOn y rest).2)
    else ([], y :: rest)

/-- The items at the head that stand in order or in the opposite order, put in order, and the rest. -/
def firstRun (before : β → β → Bool) : List β → List β × List β
  | [] => ([], [])
  | [x] => ([x], [])
  | x :: y :: rest =>
    if before y x then
      let falling := spanNeighbours (fun a b => before b a) x (y :: rest)
      ((x :: falling.1).reverse, falling.2)
    else
      let rising := spanNeighbours (fun a b => !before b a) x (y :: rest)
      (x :: rising.1, rising.2)

/-! ## One more item -/

/-- An item put in its place among items in order: before the middle one or after it, and so on in that half.
The number of items is enough fuel. -/
def insertByHalves (before : β → β → Bool) (x : β) : Nat → List β → List β
  | 0, items => x :: items
  | fuel + 1, items =>
    let lower := items.take (items.length / 2)
    match items.drop (items.length / 2) with
    | [] => [x]
    | middle :: upper =>
      if before x middle then insertByHalves before x fuel lower ++ middle :: upper
      else lower ++ middle :: insertByHalves before x fuel upper

/-- Items put in their places among items in order, one after the other. -/
def insertAll (before : β → β → Bool) (items xs : List β) : List β :=
  xs.foldl (fun done x => insertByHalves before x done.length done) items

/-- The run at the head of a list, of at least so many items if there are as many, and the rest. -/
def nextRun (before : β → β → Bool) (least : Nat) (xs : List β) : List β × List β :=
  let found := firstRun before xs
  let missing := least - found.1.length
  (insertAll before found.1 (found.2.take missing), found.2.drop missing)

/-! ## Nothing is lost -/

theorem spanNeighbours_append (goesOn : β → β → Bool) (x : β) (xs : List β) :
    (spanNeighbours goesOn x xs).1 ++ (spanNeighbours goesOn x xs).2 = xs := by
  induction xs generalizing x with
  | nil => rfl
  | cons y rest ih =>
    rw [spanNeighbours]
    split
    · rw [List.cons_append, ih]
    · rfl

theorem firstRun_perm (before : β → β → Bool) (xs : List β) :
    ((firstRun before xs).1 ++ (firstRun before xs).2).Perm xs := by
  match xs with
  | [] => exact .refl _
  | [x] => exact .refl _
  | x :: y :: rest =>
    rw [firstRun]
    split
    · refine ((List.reverse_perm _).append_right _).trans (.of_eq ?_)
      rw [List.cons_append, spanNeighbours_append]
    · exact .of_eq (by rw [List.cons_append, spanNeighbours_append])

theorem insertByHalves_perm (before : β → β → Bool) (x : β) (fuel : Nat) (items : List β) :
    (insertByHalves before x fuel items).Perm (x :: items) := by
  induction fuel generalizing items with
  | zero => exact .refl _
  | succ fuel ih =>
    have parted := List.take_append_drop (items.length / 2) items
    rw [insertByHalves]
    split
    · rename_i whole
      rw [whole, List.append_nil] at parted
      have short : items.length ≤ items.length / 2 := List.drop_eq_nil_iff.1 whole
      have empty : items = [] := List.eq_nil_of_length_eq_zero (by omega)
      rw [empty]
    · rename_i middle upper halves
      rw [halves] at parted
      split
      · exact ((ih _).append_right _).trans (.of_eq (by rw [List.cons_append, parted]))
      · refine (((ih upper).cons middle).append_left _).trans ?_
        refine ((List.Perm.swap x middle upper).append_left _).trans ?_
        refine List.perm_middle.trans ?_
        rw [parted]

theorem insertAll_perm (before : β → β → Bool) (items xs : List β) :
    (insertAll before items xs).Perm (items ++ xs) := by
  induction xs generalizing items with
  | nil => simp [insertAll]
  | cons x rest ih =>
    refine (ih _).trans ?_
    refine ((insertByHalves_perm before x items.length items).append_right rest).trans ?_
    exact List.perm_middle.symm

theorem nextRun_perm (before : β → β → Bool) (least : Nat) (xs : List β) :
    ((nextRun before least xs).1 ++ (nextRun before least xs).2).Perm xs := by
  simp only [nextRun]
  refine ((insertAll_perm before _ _).append_right _).trans ?_
  rw [List.append_assoc, List.take_append_drop]
  exact firstRun_perm before xs

end Leftover
