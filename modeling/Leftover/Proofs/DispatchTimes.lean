/-
# When a dispatch begins

A vehicle with a dispatch begins its route once it is dispatched, and not before the start that is reported for the
route. The check works back from that time by the minutes that a dispatch takes. So it finds when the dispatch begins,
unless the reported start lies after its end, which the check takes for the end of the dispatch.

* `Vehicle.dispatchBegins`, `Vehicle.dispatchOver` : when a dispatch begins, and when its route does
* `workedBack`, `workedBack_eq` : what the beginning of the route is worked back to
* `Insertion.checkDispatch_eq` : how late the check finds a dispatch, and up to which reported start it is right
-/
import Leftover.Proofs.AcceptedRuns
import Leftover.Proofs.Scale

namespace Leftover

open Quantity

/-! ## Excess -/

/-- Two excesses are told apart, unless neither is above zero. -/
theorem Evidence.ofExcess_eq_iff {α : Type} [Quantity α] {x y : α} :
    ofExcess x = ofExcess y ↔ x = y ∨ ¬0 < x ∧ ¬0 < y := by
  constructor
  · intro same
    rw [ofExcess, ofExcess] at same
    split at same <;> split at same <;> simp_all
  · rintro (same | ⟨none_before, none_after⟩)
    · rw [same]
    · rw [ofExcess, ofExcess, if_neg none_before, if_neg none_after]

/-- Without loss, what exceeds a limit does so by a difference. -/
theorem Evidence.ofExcess_sub {α : Type} [Quantity α] [Lossless α] (x limit : α) :
    ofExcess (x - limit) = if limit < x then violated (some (x - limit)) else satisfied := by
  simp only [ofExcess, Lossless.sub_pos_iff]

/-! ## The beginning of a route -/

section

variable {α : Type} [Quantity α]

/-- When a vehicle that takes so many minutes to the place of its dispatch is there, and its window is open. -/
def Vehicle.dispatchBegins (v : Vehicle α) (d : Dispatch α) (minutes : α) : α :=
  larger (v.shift.opens + minutes) d.window.opens

/-- When a vehicle sets out from its dispatch: once that is over, and not before the reported start of the route. -/
def Vehicle.dispatchOver (v : Vehicle α) (d : Dispatch α) (minutes : α) (startTime : Option α) : α :=
  startTime.elim (v.dispatchBegins d minutes + d.duration) (larger (v.dispatchBegins d minutes + d.duration))

/-- The route of a dispatched vehicle begins after the dispatch, and not before its reported start. -/
theorem origin_time_eq {v : Vehicle α} {d : Dispatch α} (dispatched : v.dispatch = some d) {m : Matrix α}
    {minutes meters : α} (approached : v.approach m (d.location.getD v.startLocation) = .ok (minutes, meters))
    {startTime : Option α} {start : Place α} (begun : v.origin m startTime = .ok start) :
    start.time = v.dispatchOver d minutes startTime := by
  simp only [Vehicle.origin, dispatched, approached, except_ok_bind] at begun
  obtain rfl := Except.ok.inj begun
  cases startTime with
  | none => rfl
  | some t => rfl

/-- The beginning of a route, less the minutes that the dispatch takes. -/
def workedBack (begins lasts : α) (startTime : Option α) : α :=
  startTime.elim begins fun t => larger begins (t - lasts)

variable [Lossless α]

/-- Without loss, the route begins at a finite time, which is worked back to the beginning of the dispatch or to the
reported start less the minutes that the dispatch takes. -/
theorem workedBack_eq {v : Vehicle α} {d : Dispatch α} {minutes : α}
    (begins : isFinite (v.dispatchBegins d minutes) = true) (lasts : isFinite d.duration = true) {startTime : Option α}
    (reported : ∀ t ∈ startTime, isFinite t = true) :
    isFinite (v.dispatchOver d minutes startTime) = true
      ∧ v.dispatchOver d minutes startTime - d.duration
        = workedBack (v.dispatchBegins d minutes) d.duration startTime := by
  have ends := (Lossless.isFinite_add_iff (v.dispatchBegins d minutes) d.duration).mpr ⟨begins, lasts⟩
  cases startTime with
  | none => exact ⟨ends, Lossless.add_sub_cancel _ _ lasts⟩
  | some t =>
    refine ⟨isFinite_larger ends (reported t rfl), ?_⟩
    show larger (v.dispatchBegins d minutes + d.duration) t - d.duration
      = larger (v.dispatchBegins d minutes) (t - d.duration)
    rw [larger, larger]
    by_cases waits : v.dispatchBegins d minutes + d.duration < t
    · rw [if_pos waits, if_pos ((Lossless.lt_sub_iff lasts).mpr waits)]
    · rw [if_neg waits, if_neg ((Lossless.lt_sub_iff lasts).not.mpr waits), Lossless.add_sub_cancel _ _ lasts]

/-- Working back finds an excess as it is, just when no start is reported that lies beyond both the end of the dispatch
and the end of one that begins as the window closes. -/
theorem workedBack_excess_iff {begins lasts closes : α} (begins_finite : isFinite begins = true)
    (lasts_finite : isFinite lasts = true) (closes_finite : isFinite closes = true) {startTime : Option α}
    (reported : ∀ t ∈ startTime, isFinite t = true) :
    Evidence.ofExcess (workedBack begins lasts startTime - closes) = .ofExcess (begins - closes)
      ↔ ∀ t ∈ startTime, t ≤ larger begins closes + lasts := by
  cases startTime with
  | none => simp [workedBack]
  | some t =>
    have begins_defined := Lossless.isUndefined_of_isFinite _ begins_finite
    have closes_defined := Lossless.isUndefined_of_isFinite _ closes_finite
    have bound_finite := (Lossless.isFinite_add_iff (larger begins closes) lasts).mpr
      ⟨isFinite_larger begins_finite closes_finite, lasts_finite⟩
    -- a start is too late if working back from it leads beyond both the beginning and the window
    have too_late : (∀ t' ∈ some t, t' ≤ larger begins closes + lasts) ↔ ¬(begins < t - lasts ∧ closes < t - lasts) := by
      rw [← OrderedQuantity.larger_lt_iff begins_defined closes_defined, Lossless.lt_sub_iff lasts_finite,
        OrderedQuantity.not_lt_iff _ _ (Lossless.isUndefined_of_isFinite _ (reported t rfl))
          (Lossless.isUndefined_of_isFinite _ bound_finite)]
      simp
    rw [too_late, Evidence.ofExcess_eq_iff, Lossless.sub_right_inj closes_finite, Lossless.sub_pos_iff, Lossless.sub_pos_iff]
    show larger begins (t - lasts) = begins ∨ ¬closes < larger begins (t - lasts) ∧ ¬closes < begins ↔ _
    rw [larger]
    split
    · rename_i waits
      constructor
      · rintro (same | ⟨not_late, -⟩) ⟨-, late⟩
        · rw [same] at waits
          exact OrderedQuantity.lt_asymm waits waits
        · exact not_late late
      · intro not_both
        have not_late : ¬closes < t - lasts := fun late => not_both ⟨waits, late⟩
        exact Or.inr ⟨not_late, fun late => not_late (OrderedQuantity.lt_trans late waits)⟩
    · rename_i no_wait
      exact iff_of_true (Or.inl rfl) fun both => no_wait both.1

end

/-! ## The check -/

namespace Insertion

variable {α : Type} [Quantity α] [OrderedQuantity α]

/-- A dispatch that overlaps the shift is judged by the beginning of the route: it is missed if that is never reached,
and late if the window has closed by the time that the beginning is worked back to. -/
theorem checkDispatch_of_overlap {i : Insertion α} {d : Dispatch α} (dispatched : i.vehicle.dispatch = some d)
    (opens_in_shift : d.window.opens ≤ i.vehicle.shift.closes) (closes_in_shift : i.vehicle.shift.opens ≤ d.window.closes)
    (free : i.job.windows = []) :
    i.checkDispatch = .ok (if isFinite i.state.origin.time = true then
        if d.window.closes < i.state.origin.time - d.duration then
          .violated (some (i.state.origin.time - d.duration - d.window.closes))
        else .satisfied
      else .violated none) := by
  have not_before : ¬i.vehicle.shift.closes < d.window.opens := fun lt =>
    OrderedQuantity.not_le_of_lt lt opens_in_shift
  have not_after : ¬d.window.closes < i.vehicle.shift.opens := fun lt =>
    OrderedQuantity.not_le_of_lt lt closes_in_shift
  have afterwards : i.checkAfterDispatch = .ok .satisfied := by rw [checkAfterDispatch, free]
  rw [checkDispatch, dispatched]
  simp only [if_neg not_before, if_neg not_after, afterwards]
  cases isFinite i.state.origin.time with
  | true =>
    simp only [Bool.not_true, Bool.false_eq_true, if_false, if_true]
    split <;> rfl
  | false => rfl

/-- For a job without time windows the check judges a dispatch by the time that the beginning of the route is worked back
to. Where numbers are added and subtracted without loss, the dispatch is found to be late by what that lies after the
window. That is how late it really is, just when no start is reported that lies beyond both the end of the dispatch and
the end of one that begins as the window closes. -/
theorem checkDispatch_eq {v : Vehicle α} {d : Dispatch α} (dispatched : v.dispatch = some d) {m : Matrix α}
    {minutes meters : α} (approached : v.approach m (d.location.getD v.startLocation) = .ok (minutes, meters))
    (minutes_finite : isFinite minutes = true) (shift_opens : isFinite v.shift.opens = true)
    (opens : isFinite d.window.opens = true) (closes : isFinite d.window.closes = true)
    (lasts : isFinite d.duration = true) (opens_in_shift : d.window.opens ≤ v.shift.closes)
    (closes_in_shift : v.shift.opens ≤ d.window.closes) {jobs : List (Job α)} {startTime : Option α}
    (reported : ∀ t ∈ startTime, isFinite t = true) {s : RouteState α}
    (built : RouteState.build v m jobs startTime = .ok s) {job : Job α} (free : job.windows = []) (position : Int)
    (p : Problem α) :
    ((⟨job, s, position, p⟩ : Insertion α).checkDispatch
        = .ok (if isFinite (v.dispatchOver d minutes startTime) = true then
            if d.window.closes < v.dispatchOver d minutes startTime - d.duration then
              .violated (some (v.dispatchOver d minutes startTime - d.duration - d.window.closes))
            else .satisfied
          else .violated none))
      ∧ (Lossless α →
        (⟨job, s, position, p⟩ : Insertion α).checkDispatch
            = .ok (.ofExcess (workedBack (v.dispatchBegins d minutes) d.duration startTime - d.window.closes))
          ∧ ((⟨job, s, position, p⟩ : Insertion α).checkDispatch
              = .ok (.ofExcess (v.dispatchBegins d minutes - d.window.closes))
            ↔ ∀ t ∈ startTime, t ≤ larger (v.dispatchBegins d minutes) d.window.closes + d.duration)) := by
  obtain ⟨rfl, rfl, -, begun⟩ := RouteState.build_eq_ok built
  have judged := checkDispatch_of_overlap (i := ⟨job, s, position, p⟩) dispatched opens_in_shift closes_in_shift free
  rw [origin_time_eq dispatched approached begun] at judged
  refine ⟨judged, fun lossless => ?_⟩
  have begins : isFinite (s.vehicle.dispatchBegins d minutes) = true :=
    isFinite_larger ((Lossless.isFinite_add_iff _ _).mpr ⟨shift_opens, minutes_finite⟩) opens
  obtain ⟨sets_out, back⟩ := workedBack_eq begins lasts reported
  rw [if_pos sets_out, back, ← Evidence.ofExcess_sub] at judged
  refine ⟨judged, ?_⟩
  rw [judged, Except.ok.injEq]
  exact workedBack_excess_iff begins lasts closes reported

end Insertion

namespace RouteState

/-- A shuttle that loads for ten minutes at the far place. -/
def loadedShuttle : Vehicle Exact :=
  { shuttle with dispatch := some ⟨some 1, ⟨.finite 0, .finite 100⟩, .finite 10⟩ }

/-- The shuttle without jobs, which is reported to start long after it is loaded. -/
def idleRoute : RouteState Exact where
  vehicle := loadedShuttle
  matrix := twoPlaces
  jobs := []
  origin := ⟨1, .finite 300, .finite 9⟩
  base := ⟨[], .finite 300, .finite 307, .finite 18, true⟩
  walk_eq := by decide +kernel

/-- The dispatch is punctual, but found to be late. -/
theorem checkDispatch_eq_idleRoute :
    build loadedShuttle twoPlaces [] (some (.finite 300)) = .ok idleRoute
      ∧ (⟨{ parcel "a" with windows := [] }, idleRoute, 0, shuttlePlan⟩ : Insertion Exact).checkDispatch
        = .ok (.violated (some (.finite 190)))
      ∧ (⟨{ parcel "a" with windows := [] }, idleRoute, 0, shuttlePlan⟩ : Insertion Exact).checkDispatch
        ≠ .ok (.ofExcess (.finite 7 - .finite 100)) := by
  have built : build loadedShuttle twoPlaces [] (some (.finite 300)) = .ok idleRoute :=
    build_eq_of_walk (by decide +kernel) idleRoute.walk_eq
  have approached : loadedShuttle.approach twoPlaces 1 = .ok (.finite 7, .finite 9) := by decide +kernel
  have free : ({ parcel "a" with windows := [] } : Job Exact).windows = [] := rfl
  obtain ⟨judged, right_iff⟩ := (Insertion.checkDispatch_eq (d := ⟨some 1, ⟨.finite 0, .finite 100⟩, .finite 10⟩) rfl
    approached rfl rfl rfl rfl rfl (by decide) (by decide) (by decide) built free 0 shuttlePlan).2 inferInstance
  have begins : loadedShuttle.dispatchBegins ⟨some 1, ⟨.finite 0, .finite 100⟩, .finite 10⟩ (.finite 7) = .finite 7 := by
    decide +kernel
  rw [begins] at judged right_iff
  refine ⟨built, judged.trans (by decide +kernel), fun right => ?_⟩
  exact absurd (right_iff.mp right _ rfl) (by decide +kernel)

end RouteState

end Leftover
