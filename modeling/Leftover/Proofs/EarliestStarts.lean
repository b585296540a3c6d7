/-
# The earliest start

A job is served in the first of its windows, by opening time, that is not over yet. That window need not be the one that
is open, nor the one that closes first: windows may overlap or lie within each other. Still the service starts at the
earliest time after the arrival that lies in any window at all; and if there is none, then it starts on arrival, late by
what has passed since the end of the last window.

* `Job.Admits` : a time lies in a window of a job
* `isLeast_serviceStart`, `serviceStart_late` : the service of a job that is in time, and of one that is late
* `serviceStart_earliest` : all cases, whatever the order of the windows
-/
import Leftover.Proofs.Timelines
import Leftover.Proofs.WindowOrder

namespace Leftover

/-! ## Windows -/

section

variable {α : Type} [Quantity α] {job : Job α} {arrival : α}

/-- The time lies in a window of the job. -/
def Job.Admits (job : Job α) (t : α) : Prop := ∃ w ∈ job.windows, w.contains t = true

theorem Window.contains_iff {w : Window α} {t : α} : w.contains t = true ↔ w.opens ≤ t ∧ t ≤ w.closes := by
  simp [contains]

variable [Timeline α] (ordered : ∀ w ∈ job.windows, w.opens ≤ w.closes) (defined : Quantity.isUndefined arrival = false)

include ordered defined

/-- A job that has a window which is not over is served in time: the service starts at the earliest time after the arrival
that lies in a window. -/
theorem isLeast_serviceStart (usable : ∃ w ∈ job.windows, arrival ≤ w.closes) :
    ∃ t, serviceStart job arrival = (t, 0) ∧ IsLeast {t | arrival ≤ t ∧ job.Admits t} t := by
  have opens_defined : ∀ w ∈ job.windows, Quantity.isUndefined w.opens = false := fun w listed =>
    (OrderedQuantity.isDefined_of_le _ _ (ordered w listed)).1
  obtain ⟨w, found⟩ : ∃ w, firstUsable? (Window.byStart job.windows) arrival = some w := by
    obtain ⟨v, listed, not_over⟩ := usable
    exact Option.isSome_iff_exists.mp
      (List.find?_isSome.mpr ⟨v, Window.mem_byStart.mpr listed, decide_eq_true not_over⟩)
  have listed : w ∈ job.windows := Window.mem_byStart.mp (List.mem_of_find?_eq_some found)
  have not_over : arrival ≤ w.closes := by simpa using List.find?_some found
  refine ⟨_, serviceStart_of_usable found, ?_, ?_⟩
  · exact ⟨OrderedQuantity.le_larger_left defined _, w, listed, Window.contains_iff.mpr
      ⟨OrderedQuantity.le_larger_right defined (opens_defined w listed),
        OrderedQuantity.larger_le not_over (ordered w listed)⟩⟩
  · -- another time after the arrival lies in a window that is not over either, so this one opens no earlier
    rintro t ⟨later, v, listed', within⟩
    obtain ⟨opens, closes⟩ := Window.contains_iff.mp within
    have opens_le : w.opens ≤ v.opens := by
      refine firstUsable?_opens_le (Window.byStart_pairwise opens_defined)
        (fun u hu => opens_defined u (Window.mem_byStart.mp hu)) found (Window.mem_byStart.mpr listed') ?_
      exact OrderedQuantity.le_trans _ _ _ later closes
    exact OrderedQuantity.larger_le later (OrderedQuantity.le_trans _ _ _ opens_le opens)

/-- A job whose windows are all over is served on arrival, late by what has passed since the end of the last one. -/
theorem serviceStart_late (some_there : job.windows ≠ []) (past : ∀ w ∈ job.windows, ¬arrival ≤ w.closes) :
    ∃ latest, serviceStart job arrival = (arrival, arrival - latest)
      ∧ IsGreatest {x | ∃ w ∈ job.windows, w.closes = x} latest ∧ latest < arrival ∧ 0 < arrival - latest := by
  have closes_defined : ∀ w ∈ job.windows, Quantity.isUndefined w.closes = false := fun w listed =>
    (OrderedQuantity.isDefined_of_le _ _ (ordered w listed)).2
  have not_usable : firstUsable? (Window.byStart job.windows) arrival = none := by
    refine List.find?_eq_none.mpr fun w listed => ?_
    rw [decide_eq_true_iff]
    exact past w (Window.mem_byStart.mp listed)
  have greatest : IsGreatest {x | ∃ w ∈ job.windows, w.closes = x}
      (Quantity.largest 0 ((Window.byStart job.windows).map (·.closes))) := by
    have same_ends : {x | ∃ w ∈ job.windows, w.closes = x} = {x | x ∈ (Window.byStart job.windows).map (·.closes)} := by
      ext x
      simp [Window.mem_byStart]
    rw [same_ends]
    refine OrderedQuantity.isGreatest_largest 0 ?_ fun x member => ?_
    · rw [ne_eq, List.map_eq_nil_iff, ← List.isEmpty_iff, Window.isEmpty_byStart]
      exact some_there
    · obtain ⟨w, listed, rfl⟩ := List.mem_map.mp member
      exact closes_defined w (Window.mem_byStart.mp listed)
  have ended : Quantity.largest 0 ((Window.byStart job.windows).map (·.closes)) < arrival := by
    obtain ⟨w, listed, same⟩ := greatest.1
    rw [← same]
    exact OrderedQuantity.lt_of_not_le defined (closes_defined w listed) (past w listed)
  exact ⟨_, serviceStart_of_past some_there not_usable, greatest, ended,
    Scale.sub_pos_of_lt _ _ ended⟩

/-- The order in which windows are listed does not matter: the service starts at times of one place in the order, and is
as late. -/
theorem serviceStart_relisted {windows : List (Window α)} (perm : windows.Perm job.windows) :
    Quantity.same (serviceStart { job with windows } arrival).1 (serviceStart job arrival).1 = true
      ∧ (serviceStart { job with windows } arrival).2 = (serviceStart job arrival).2 := by
  have same_refl : Quantity.same arrival arrival = true := by simp [Quantity.same, OrderedQuantity.le_refl defined]
  have ordered' : ∀ w ∈ ({ job with windows } : Job α).windows, w.opens ≤ w.closes := fun w listed =>
    ordered w (perm.mem_iff.mp listed)
  by_cases none_at_all : job.windows = []
  · have none_at_all' : ({ job with windows } : Job α).windows = [] := by
      rw [none_at_all] at perm
      exact perm.eq_nil
    rw [serviceStart_of_no_windows none_at_all, serviceStart_of_no_windows none_at_all']
    exact ⟨same_refl, rfl⟩
  by_cases usable : ∃ w ∈ job.windows, arrival ≤ w.closes
  · have usable' : ∃ w ∈ ({ job with windows } : Job α).windows, arrival ≤ w.closes := by
      simpa only [perm.mem_iff] using usable
    obtain ⟨t, starts, least⟩ := isLeast_serviceStart ordered defined usable
    obtain ⟨t', starts', least'⟩ := isLeast_serviceStart ordered' defined usable'
    -- both are earliest among the same times
    have admits (t : α) : ({ job with windows } : Job α).Admits t ↔ job.Admits t := by
      simp only [Job.Admits, perm.mem_iff]
    simp only [admits] at least'
    rw [starts, starts']
    exact ⟨by simp [Quantity.same, least'.2 least.1, least.2 least'.1], rfl⟩
  · rw [not_exists] at usable
    have past : ∀ w ∈ job.windows, ¬arrival ≤ w.closes := fun w listed not_over => usable w ⟨listed, not_over⟩
    have some_there' : ({ job with windows } : Job α).windows ≠ [] := by
      rintro (none : windows = [])
      rw [none] at perm
      exact none_at_all perm.symm.eq_nil
    obtain ⟨latest, starts, greatest, ended, -⟩ := serviceStart_late ordered defined none_at_all past
    obtain ⟨latest', starts', greatest', ended', -⟩ :=
      serviceStart_late ordered' defined some_there' fun w listed => past w (perm.mem_iff.mp listed)
    simp only [perm.mem_iff] at greatest'
    rw [starts, starts']
    exact ⟨same_refl, Timeline.sub_congr _ _ _ ended' (greatest.2 greatest'.1) (greatest'.2 greatest.1)⟩

end

/-- Let no window of a job close before it opens; whether windows overlap or lie within each other, and how they are listed,
does not matter. After an arrival at a finite time a job without windows is served at once. If some window is not over, the
service starts, in time, at the earliest time after the arrival that lies in a window. If all are over, it starts at once,
late by what has passed since the end of the last one, which is more than nothing. With the windows listed in another order
the service is as late, and starts at a time of the same place in the order; so where two numbers of one place are the same
number, nothing changes at all. -/
theorem serviceStart_earliest {α : Type} [Quantity α] [Timeline α] {job : Job α}
    (ordered : ∀ w ∈ job.windows, w.opens ≤ w.closes) {arrival : α} (finite : Quantity.isFinite arrival = true) :
    (job.windows = [] → serviceStart job arrival = (arrival, 0))
      ∧ ((∃ w ∈ job.windows, arrival ≤ w.closes) →
        ∃ t, serviceStart job arrival = (t, 0) ∧ IsLeast {t | arrival ≤ t ∧ job.Admits t} t)
      ∧ (job.windows ≠ [] → (∀ w ∈ job.windows, ¬arrival ≤ w.closes) →
        ∃ latest, serviceStart job arrival = (arrival, arrival - latest)
          ∧ IsGreatest {x | ∃ w ∈ job.windows, w.closes = x} latest ∧ 0 < arrival - latest)
      ∧ ∀ windows : List (Window α), windows.Perm job.windows →
        Quantity.same (serviceStart { job with windows } arrival).1 (serviceStart job arrival).1 = true
          ∧ (serviceStart { job with windows } arrival).2 = (serviceStart job arrival).2
          ∧ ((∀ x y : α, Quantity.same x y = true → x = y) →
            serviceStart { job with windows } arrival = serviceStart job arrival) := by
  have defined := Timeline.isDefined_of_isAhead (Or.inl finite : IsAhead arrival)
  refine ⟨serviceStart_of_no_windows, isLeast_serviceStart ordered defined, fun some_there past => ?_,
    fun windows perm => ?_⟩
  · obtain ⟨latest, starts, greatest, -, positive⟩ := serviceStart_late ordered defined some_there past
    exact ⟨latest, starts, greatest, positive⟩
  · obtain ⟨start, late⟩ := serviceStart_relisted ordered defined perm
    exact ⟨start, late, fun antisymm => Prod.ext (antisymm _ _ start) late⟩

/-! ### A parcel with windows within each other -/

/-- A parcel that can be handed over in a long window, and in two short ones that lie in it. -/
def nestedParcel : Job Exact :=
  { RouteState.parcel "a" with
    windows := [⟨.finite 40, .finite 60⟩, ⟨.finite 10, .finite 90⟩, ⟨.finite 10, .finite 20⟩] }

/-- After thirty minutes the parcel is handed over at once, in the long window, however the windows are listed; after a
hundred minutes it is handed over ten minutes late. -/
theorem serviceStart_earliest_nested :
    (∀ w ∈ nestedParcel.windows, w.opens ≤ w.closes)
      ∧ serviceStart nestedParcel (.finite 30) = (.finite 30, 0)
      ∧ serviceStart { nestedParcel with windows := nestedParcel.windows.reverse } (.finite 30) = (.finite 30, 0)
      ∧ serviceStart nestedParcel (.finite 100) = (.finite 100, .finite 10) ∧ (0 : Exact) < .finite 10 := by
  have ordered : ∀ w ∈ nestedParcel.windows, w.opens ≤ w.closes := by decide +kernel
  have antisymm (x y : Exact) (same : Quantity.same x y = true) : x = y := by
    simp only [Quantity.same, Bool.and_eq_true, decide_eq_true_eq] at same
    exact Exact.le_antisymm same.1 same.2
  have thirty : Quantity.isFinite (Exact.finite 30) = true := rfl
  have hundred : Quantity.isFinite (Exact.finite 100) = true := rfl
  have in_time : serviceStart nestedParcel (.finite 30) = (.finite 30, 0) := by
    obtain ⟨t, starts, ⟨later, -⟩, least⟩ := (serviceStart_earliest ordered thirty).2.1 (by decide +kernel)
    have admitted : nestedParcel.Admits (.finite 30) := by
      unfold Job.Admits
      decide +kernel
    rw [starts, Exact.le_antisymm (least ⟨by decide, admitted⟩) later]
  have too_late : serviceStart nestedParcel (.finite 100) = (.finite 100, .finite 10) := by
    obtain ⟨latest, starts, ⟨⟨w, listed, rfl⟩, above⟩, -⟩ :=
      (serviceStart_earliest ordered hundred).2.2.1 (by decide) (by decide +kernel)
    have bounded : ∀ w ∈ nestedParcel.windows, w.closes ≤ .finite 90 := by decide +kernel
    have latest_eq : w.closes = .finite 90 :=
      Exact.le_antisymm (bounded w listed) (above ⟨⟨.finite 10, .finite 90⟩, by decide +kernel, rfl⟩)
    rw [starts, latest_eq]
    decide +kernel
  have relisted := (serviceStart_earliest ordered thirty).2.2.2 _ (List.reverse_perm _)
  exact ⟨ordered, in_time, (relisted.2.2 antisymm).trans in_time, too_late, by decide⟩

end Leftover
