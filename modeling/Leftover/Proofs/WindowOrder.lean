/-
# The order in which windows are listed

A job is served in the first of its windows, by opening time, that is not over yet. Windows that open at the same time
are tried as they are listed, but any of them makes the service start at the same time. So the order in which the
windows of a job are listed does not matter but for the sign of a zero, if none of their ends is undefined.

* `Window.byStart_pairwise`, `firstUsable?_opens_le` : windows in the order in which they open
* `serviceStart_of_no_windows`, `serviceStart_of_usable`, `serviceStart_of_past` : the service of a job, case by case
* `serviceStart_ties` : the service of a job with its windows in any order
-/
import Leftover.Proofs.Ties
import Leftover.Route.ServiceTime
import Mathlib.Data.List.Perm.Basic

namespace Leftover

/-! ## Windows -/

/-- The ends of a window are not undefined. -/
structure Window.IsDefined {α : Type} [Quantity α] (w : Window α) : Prop where
  opens : Quantity.isUndefined w.opens = false
  closes : Quantity.isUndefined w.closes = false

section

variable {α : Type} [Quantity α] [OrderedQuantity α] {windows : List (Window α)}

/-- Windows are put in the order in which they open. -/
theorem Window.byStart_pairwise (defined : ∀ w ∈ windows, Quantity.isUndefined w.opens = false) :
    (byStart windows).Pairwise fun w v => w.opens ≤ v.opens := by
  have none_undefined : windows.any (fun w => Quantity.isUndefined w.opens) = false := by
    rw [List.any_eq_false]
    intro w hw
    rw [defined w hw]
    exact Bool.false_ne_true
  -- undefined opening times put last give an order of all windows, which is the same on those of the list
  let upTo (w v : Window α) : Bool := decide (w.opens ≤ v.opens) || Quantity.isUndefined v.opens
  have same_order : byStart windows = windows.mergeSort upTo := by
    have agree : ∀ w ∈ windows, ∀ v ∈ windows, (!opensBefore v w) = upTo w v := by
      intro w hw v hv
      simp only [upTo, opensBefore, defined v hv, Bool.or_false, ← decide_not, decide_eq_decide]
      exact OrderedQuantity.not_lt_iff w.opens v.opens (defined w hw) (defined v hv)
    have sorted := List.map_mergeSort (f := id) agree
    rw [List.map_id, List.map_id] at sorted
    rw [byStart, none_undefined, ← sorted]
    rfl
  have sorted : (windows.mergeSort upTo).Pairwise fun w v => upTo w v = true := by
    apply List.pairwise_mergeSort
    · intro w v u wv vu
      simp only [upTo, Bool.or_eq_true, decide_eq_true_eq] at wv vu ⊢
      rcases vu with vu | last
      · rcases wv with wv | last
        · exact Or.inl (OrderedQuantity.le_trans _ _ _ wv vu)
        · exact absurd last (Bool.eq_false_iff.mp (OrderedQuantity.isDefined_of_le _ _ vu).1)
      · exact Or.inr last
    · intro w v
      simp only [upTo, Bool.or_eq_true, decide_eq_true_eq]
      cases open_w : Quantity.isUndefined w.opens with
      | true => exact Or.inr (Or.inr rfl)
      | false =>
        cases open_v : Quantity.isUndefined v.opens with
        | true => exact Or.inl (Or.inr rfl)
        | false =>
          by_cases before : v.opens < w.opens
          · exact Or.inr (Or.inl (OrderedQuantity.le_of_lt _ _ before))
          · exact Or.inl (Or.inl ((OrderedQuantity.not_lt_iff _ _ open_w open_v).mp before))
  rw [same_order]
  refine sorted.imp_of_mem fun {w v} hw hv le => ?_
  have open_v := defined v ((List.mergeSort_perm _ _).mem_iff.mp hv)
  simpa [upTo, open_v] using le

/-- Among windows in the order in which they open, none that is not over opens before the first such one. -/
theorem firstUsable?_opens_le {time : α} (sorted : windows.Pairwise fun w v => w.opens ≤ v.opens)
    (defined : ∀ w ∈ windows, Quantity.isUndefined w.opens = false) {w v : Window α}
    (found : firstUsable? windows time = some w) (hv : v ∈ windows) (usable : time ≤ v.closes) : w.opens ≤ v.opens := by
  obtain ⟨-, before, after, rfl, past⟩ := List.find?_eq_some_iff_append.mp found
  rcases List.mem_append.mp hv with earlier | later
  · exact absurd usable (by simpa using past v earlier)
  · rcases List.mem_cons.mp later with rfl | later
    · exact OrderedQuantity.le_refl (defined v hv)
    · exact List.rel_of_pairwise_cons (List.pairwise_append.mp sorted).2.1 later

end

section

variable {α : Type} [Quantity α] {windows windows' : List (Window α)} {time time' : α}

/-- The same window is not over at times that tie. -/
theorem firstUsable?_ties [OrderedQuantity α] (tie : Ties time time') :
    firstUsable? windows time = firstUsable? windows time' := by
  have not_past : ∀ w : Window α, decide (time ≤ w.closes) = decide (time' ≤ w.closes) := fun w =>
    decide_eq_decide.mpr (tie.le_iff (.refl w.closes))
  simp only [firstUsable?, not_past]

/-- Of the same windows in two orders by opening time, the first ones that are not over open at times that tie. -/
theorem firstUsable?_opens_ties [SignlessZero α] (perm : windows.Perm windows')
    (defined : ∀ w ∈ windows, Quantity.isUndefined w.opens = false)
    (sorted : windows.Pairwise fun w v => w.opens ≤ v.opens)
    (sorted' : windows'.Pairwise fun w v => w.opens ≤ v.opens) :
    Option.Rel (fun w v => Ties w.opens v.opens) (firstUsable? windows time) (firstUsable? windows' time) := by
  have defined' : ∀ w ∈ windows', Quantity.isUndefined w.opens = false := fun w hw => defined w (perm.mem_iff.mpr hw)
  cases found : firstUsable? windows time with
  | none =>
    have past := List.find?_eq_none.mp found
    have found' : firstUsable? windows' time = none :=
      List.find?_eq_none.mpr fun w hw => past w (perm.mem_iff.mpr hw)
    rw [found']
    exact .none
  | some w =>
    have usable : time ≤ w.closes := by simpa using List.find?_some found
    have hw : w ∈ windows' := perm.mem_iff.mp (List.mem_of_find?_eq_some found)
    cases found' : firstUsable? windows' time with
    | none => exact absurd (decide_eq_true usable) (List.find?_eq_none.mp found' w hw)
    | some w' =>
      have usable' : time ≤ w'.closes := by simpa using List.find?_some found'
      have hw' : w' ∈ windows := perm.mem_iff.mpr (List.mem_of_find?_eq_some found')
      exact .some (ties_of_le (firstUsable?_opens_le sorted defined found hw' usable')
        (firstUsable?_opens_le sorted' defined' found' hw usable))

end

/-! ## The service of a job -/

section

variable {α : Type} [Quantity α] {job : Job α} {arrival : α}

/-- A job without windows is served on arrival. -/
theorem serviceStart_of_no_windows (none_at_all : job.windows = []) : serviceStart job arrival = (arrival, 0) := by
  rw [serviceStart, if_pos (Window.isEmpty_byStart.mpr none_at_all)]

/-- A job with a window that is not over is served in the first such one. -/
theorem serviceStart_of_usable {w : Window α} (usable : firstUsable? (Window.byStart job.windows) arrival = some w) :
    serviceStart job arrival = (Quantity.larger arrival w.opens, 0) := by
  have some_there : job.windows ≠ [] := List.ne_nil_of_mem (Window.mem_byStart.mp (List.mem_of_find?_eq_some usable))
  rw [serviceStart, if_neg (mt Window.isEmpty_byStart.mp some_there), usable]

/-- A job whose windows are all over is served on arrival, and late. -/
theorem serviceStart_of_past (some_there : job.windows ≠ [])
    (past : firstUsable? (Window.byStart job.windows) arrival = none) :
    serviceStart job arrival
      = (arrival, arrival - Quantity.largest 0 ((Window.byStart job.windows).map (·.closes))) := by
  rw [serviceStart, if_neg (mt Window.isEmpty_byStart.mp some_there), past]

end

section

variable {α : Type} [Quantity α] [SignlessZero α] {job job' : Job α} {arrival arrival' : α}

/-- The service of a job depends on its windows only by whether there are any, when the one that is used opens, and
which one is over last. -/
theorem serviceStart_congr (tie : Ties arrival arrival')
    (none_at_all : (Window.byStart job.windows).isEmpty = (Window.byStart job'.windows).isEmpty)
    (opens : Option.Rel (fun w v => Ties w.opens v.opens) (firstUsable? (Window.byStart job.windows) arrival)
      (firstUsable? (Window.byStart job'.windows) arrival'))
    (latest : Ties (Quantity.largest 0 ((Window.byStart job.windows).map (·.closes)))
      (Quantity.largest 0 ((Window.byStart job'.windows).map (·.closes)))) :
    Ties (serviceStart job arrival).1 (serviceStart job' arrival').1
      ∧ Ties (serviceStart job arrival).2 (serviceStart job' arrival').2 := by
  simp only [serviceStart, none_at_all]
  split
  · exact ⟨tie, .refl 0⟩
  · generalize firstUsable? (Window.byStart job.windows) arrival = usable at opens
    generalize firstUsable? (Window.byStart job'.windows) arrival' = usable' at opens
    cases opens with
    | none => exact ⟨tie, tie.sub latest⟩
    | some same => exact ⟨tie.larger same, .refl 0⟩

/-- A job is served at a time that ties, and its lateness ties, after an arrival that does. -/
theorem serviceStart_of_ties (tie : Ties arrival' arrival) (job : Job α) :
    Ties (serviceStart job arrival').1 (serviceStart job arrival).1
      ∧ Ties (serviceStart job arrival').2 (serviceStart job arrival).2 := by
  refine serviceStart_congr tie rfl ?_ (.refl _)
  rw [firstUsable?_ties tie]
  cases firstUsable? (Window.byStart job.windows) arrival with
  | none => exact .none
  | some w => exact .some (.refl _)

/-- A job is served at a time that ties, and its lateness ties, with its windows in any order. -/
theorem serviceStart_ties {windows : List (Window α)} (tie : Ties arrival' arrival) (perm : windows.Perm job.windows)
    (defined : ∀ w ∈ job.windows, w.IsDefined) :
    Ties (serviceStart { job with windows } arrival').1 (serviceStart job arrival).1
      ∧ Ties (serviceStart { job with windows } arrival').2 (serviceStart job arrival).2 := by
  have defined' : ∀ w ∈ windows, w.IsDefined := fun w hw => defined w (perm.mem_iff.mp hw)
  have all : (Window.byStart windows).Perm (Window.byStart job.windows) :=
    (Window.byStart_perm windows).trans (perm.trans (Window.byStart_perm job.windows).symm)
  have listed : ∀ w ∈ Window.byStart windows, w.IsDefined := fun w hw =>
    defined' w (Window.mem_byStart.mp hw)
  apply serviceStart_congr tie
  · rw [Bool.eq_iff_iff, Window.isEmpty_byStart, Window.isEmpty_byStart, ← List.length_eq_zero_iff,
      ← List.length_eq_zero_iff, perm.length_eq]
  · rw [firstUsable?_ties tie]
    exact firstUsable?_opens_ties all (fun w hw => (listed w hw).opens)
      (Window.byStart_pairwise fun w hw => (defined' w hw).opens)
      (Window.byStart_pairwise fun w hw => (defined w hw).opens)
  · refine largest_perm_ties (all.map _) fun x hx => ?_
    obtain ⟨w, hw, rfl⟩ := List.mem_map.mp hx
    exact (listed w hw).closes

end

end Leftover
