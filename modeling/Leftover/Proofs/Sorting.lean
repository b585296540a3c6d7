/-
# Sorted lists are in order

Whatever is sorted by an order comes out in order: the runs at the head of the list are, each further item is put where
it belongs, and merging keeps runs in order.

* `nextRun_ordered` : runs
* `sortedBy_ordered` : sorted lists
-/
import Leftover.Order.Sorted
import Leftover.Proofs.Merging

namespace Leftover

variable {β : Type} {before : β → β → Bool}

/-! ## Runs -/

/-- The items that a span takes stand to their neighbours as they should. -/
theorem spanNeighbours_isChain (goesOn : β → β → Bool) (x : β) (xs : List β) :
    (x :: (spanNeighbours goesOn x xs).1).IsChain fun a b => goesOn a b = true := by
  induction xs generalizing x with
  | nil => exact List.isChain_singleton x
  | cons y rest ih =>
    rw [spanNeighbours]
    split
    · rename_i goes_on
      exact List.isChain_cons_cons.mpr ⟨goes_on, ih y⟩
    · exact List.isChain_singleton x

section

variable (order : IsOrder before)

include order

/-- A list is in order if neighbours are. -/
theorem ordered_of_isChain {xs : List β} (chain : xs.IsChain fun a b => before b a = false) : Ordered before xs := by
  have : IsTrans β fun a b => before b a = false := ⟨order.trans⟩
  exact List.isChain_iff_pairwise.mp chain

theorem firstRun_ordered (xs : List β) : Ordered before (firstRun before xs).1 := by
  match xs with
  | [] => exact List.Pairwise.nil
  | [x] => exact List.pairwise_singleton _ x
  | x :: y :: rest =>
    rw [firstRun]
    split
    · -- each item of a falling run goes before the one in front of it
      have falling := spanNeighbours_isChain (fun a b => before b a) x (y :: rest)
      rw [← ordered_reverse, List.reverse_reverse]
      exact ordered_of_isChain order.swap (falling.imp fun a b wins => order.asymm b a wins)
    · have rising := spanNeighbours_isChain (fun a b => !before b a) x (y :: rest)
      exact ordered_of_isChain order (rising.imp fun a b stays => Bool.not_eq_true' _ ▸ stays)

/-- An item is put in its place. -/
theorem insertByHalves_ordered (x : β) {fuel : Nat} {items : List β} (enough : items.length ≤ fuel)
    (ordered : Ordered before items) : Ordered before (insertByHalves before x fuel items) := by
  induction fuel generalizing items with
  | zero =>
    rw [List.eq_nil_of_length_eq_zero (Nat.le_zero.mp enough)]
    exact List.pairwise_singleton _ x
  | succ fuel ih =>
    obtain ⟨lower_ordered, upper_ordered, across⟩ := ordered.parts (items.length / 2)
    rw [insertByHalves]
    split
    · exact List.pairwise_singleton _ x
    · rename_i middle upper halves
      have length : (items.drop (items.length / 2)).length = upper.length + 1 := by rw [halves, List.length_cons]
      rw [List.length_drop] at length
      rw [halves] at upper_ordered across
      have upper_behind := List.pairwise_cons.mp upper_ordered
      split
      · rename_i wins
        have shorter : (items.take (items.length / 2)).length ≤ fuel := by
          rw [List.length_take]
          omega
        rw [Ordered, List.pairwise_append]
        refine ⟨ih shorter lower_ordered, upper_ordered, fun a ha b hb => ?_⟩
        rcases List.mem_cons.mp ((insertByHalves_perm before x fuel _).mem_iff.mp ha) with rfl | ha
        · rcases List.mem_cons.mp hb with rfl | hb
          · exact order.asymm a b wins
          · exact order.not_before_of_before wins (upper_behind.1 b hb)
        · exact across a ha b hb
      · rename_i loses
        rw [Bool.not_eq_true] at loses
        have shorter : upper.length ≤ fuel := by omega
        rw [Ordered, List.pairwise_append, List.pairwise_cons]
        refine ⟨lower_ordered, ⟨fun b hb => ?_, ih shorter upper_behind.2⟩, fun a ha b hb => ?_⟩
        · rcases List.mem_cons.mp ((insertByHalves_perm before x fuel upper).mem_iff.mp hb) with rfl | hb
          · exact loses
          · exact upper_behind.1 b hb
        · rcases List.mem_cons.mp hb with rfl | hb
          · exact across a ha b (by simp)
          · rcases List.mem_cons.mp ((insertByHalves_perm before x fuel upper).mem_iff.mp hb) with rfl | hb
            · exact order.trans a middle b (across a ha middle (by simp)) loses
            · exact across a ha b (List.mem_cons_of_mem _ hb)

theorem insertAll_ordered {items : List β} (ordered : Ordered before items) (xs : List β) :
    Ordered before (insertAll before items xs) := by
  induction xs generalizing items with
  | nil => exact ordered
  | cons x rest ih => exact ih (insertByHalves_ordered order x (Nat.le_refl _) ordered)

theorem nextRun_ordered (least : Nat) (xs : List β) : Ordered before (nextRun before least xs).1 :=
  insertAll_ordered order (firstRun_ordered order xs) _

end

/-- A run takes an item at least. -/
theorem length_nextRun_lt (before : β → β → Bool) (least : Nat) (x : β) (xs : List β) :
    (nextRun before least (x :: xs)).2.length ≤ xs.length := by
  have taken : (firstRun before (x :: xs)).2.length ≤ xs.length := by
    match xs with
    | [] => exact Nat.le_refl _
    | y :: rest =>
      have all : ∀ goesOn, (spanNeighbours goesOn x (y :: rest)).2.length ≤ (y :: rest).length := by
        intro goesOn
        have whole := congrArg List.length (spanNeighbours_append goesOn x (y :: rest))
        rw [List.length_append] at whole
        omega
      rw [firstRun]
      split
      · exact all _
      · exact all _
  rw [nextRun, List.length_drop]
  omega

/-! ## Sorting -/

section

variable (order : IsOrder before)

include order

theorem mergeDeeper_ordered (depth patience : Nat) {run : List β} {runs : WaitingRuns β} (ordered : Ordered before run)
    (waiting : ∀ r ∈ runs, Ordered before r.1) :
    Ordered before (mergeDeeper before depth patience run runs).1.1
      ∧ ∀ r ∈ (mergeDeeper before depth patience run runs).1.2, Ordered before r.1 := by
  induction runs generalizing patience run with
  | nil => exact ⟨ordered, by simp [mergeDeeper]⟩
  | cons previous rest ih =>
    rw [List.forall_mem_cons] at waiting
    rw [mergeDeeper]
    split
    · exact ih _ (mergeRuns_ordered order patience waiting.1 ordered) waiting.2
    · exact ⟨ordered, List.forall_mem_cons.mpr waiting⟩

theorem addRun_ordered (items patience : Nat) {next : List β} {runs : WaitingRuns β} (ordered : Ordered before next)
    (waiting : ∀ r ∈ runs, Ordered before r.1) :
    ∀ r ∈ (addRun before items patience next runs).1, Ordered before r.1 := by
  cases runs with
  | nil => simpa [addRun] using ordered
  | cons run rest =>
    rw [List.forall_mem_cons] at waiting
    simp only [addRun, List.forall_mem_cons]
    exact ⟨ordered, mergeDeeper_ordered order _ patience waiting.1 waiting.2⟩

theorem addRuns_ordered (items : Nat) {fuel patience : Nat} {runs : WaitingRuns β} {xs : List β}
    (enough : xs.length ≤ fuel) (waiting : ∀ r ∈ runs, Ordered before r.1) :
    ∀ r ∈ (addRuns before items fuel patience runs xs).1, Ordered before r.1 := by
  induction fuel generalizing patience runs xs with
  | zero =>
    rw [List.eq_nil_of_length_eq_zero (Nat.le_zero.mp enough)]
    exact List.forall_mem_cons.mpr ⟨List.Pairwise.nil, waiting⟩
  | succ fuel ih =>
    cases xs with
    | nil => exact waiting
    | cons x xs =>
      simp only [addRuns]
      apply ih
      · have taken := length_nextRun_lt before (leastRun items) x xs
        rw [List.length_cons] at enough
        omega
      · exact addRun_ordered order items patience (nextRun_ordered order _ _) waiting

theorem mergeAll_ordered {fuel patience : Nat} {runs : List (List β)} (enough : runs.length ≤ fuel)
    (waiting : ∀ run ∈ runs, Ordered before run) : Ordered before (mergeAll before fuel patience runs) := by
  induction fuel, patience, runs using mergeAll.induct before with
  | case1 =>
    rw [mergeAll]
    exact List.Pairwise.nil
  | case2 fuel patience run =>
    rw [mergeAll]
    exact waiting run (by simp)
  | case3 patience runs none one =>
    -- without fuel there are no runs
    exact absurd (List.eq_nil_of_length_eq_zero (Nat.le_zero.mp enough)) none
  | case4 fuel patience last previous =>
    exact mergeRuns_ordered order patience (waiting previous (by simp)) (waiting last (by simp))
  | case5 fuel patience last previous first rest shorter run next merged ih =>
    have only := mergeRuns_ordered order patience (waiting first (by simp)) (waiting previous (by simp))
    rw [merged] at only
    simp only [mergeAll, shorter, if_true, merged]
    apply ih
    · simpa using enough
    · simp only [List.forall_mem_cons] at waiting ⊢
      exact ⟨waiting.1, only, waiting.2.2.2⟩
  | case6 fuel patience last previous first rest longer run next merged ih =>
    have only := mergeRuns_ordered order patience (waiting previous (by simp)) (waiting last (by simp))
    rw [merged] at only
    simp only [mergeAll, longer, if_false, merged]
    apply ih
    · simpa using enough
    · simp only [List.forall_mem_cons] at waiting ⊢
      exact ⟨only, waiting.2.2⟩

/-- What is sorted by an order is in order. -/
theorem sortedBy_ordered (xs : List β) : Ordered before (sortedBy before xs) := by
  have added : ∀ r ∈ (addRuns before xs.length xs.length Merge.usualPatience [] xs).1, Ordered before r.1 :=
    addRuns_ordered order xs.length (Nat.le_refl _) (by simp)
  refine mergeAll_ordered order (by simp) fun run member => ?_
  obtain ⟨waiting, listed, rfl⟩ := List.mem_map.mp member
  exact added waiting listed

end

end Leftover
