/-
# Attempts judged more leniently

A vehicle could take a job if areas can be judged and nothing is violated at one of the open positions. So an attempt
that is judged no more strictly than another one succeeds where that one does, whatever the mode of either survey is.

* `Attempt.Fits` : nothing is violated at some open position
* `Attempt.survey_isFeasible_iff` : when a vehicle could take a job
* `Attempt.NoStricter` : one attempt against another
* `Attempt.NoStricter.survey_isFeasible` : what could take the job could still take it
-/
import Leftover.Proofs.Survey

namespace Leftover

variable {α : Type} [Quantity α] [Plane α]

/-- The survey of an attempt is not stopped, and finds that the vehicle could take the job. -/
def Observed.IsFeasible (found : Observed α (VehicleOutcome α)) : Prop :=
  ∃ out, found.outcome = .ok out ∧ out.feasible = true

namespace Attempt

/-- Nothing is violated at one of the open positions. -/
def Fits (a : Attempt α) : Prop := ∃ k, a.IsOpen k ∧ ∀ r severity, ¬a.Violates k r severity

/-- A vehicle could take a job just when areas can be judged and the job fits. -/
theorem survey_isFeasible_iff (a : Attempt α) : (survey a).IsFeasible ↔ a.JudgesAreas ∧ a.Fits := by
  have agrees := a.agrees_outcomeBy a.exhaustive
  constructor
  · rintro ⟨out, found, feasible⟩
    have fits : a.Fits := agrees.feasible_iff.mp (survey_eq_ok found ▸ feasible)
    have some_open : ∃ k, a.IsOpen k := fits.imp fun k free => free.1
    exact ⟨a.exists_survey_iff.mp ⟨out, found⟩ some_open, fits⟩
  · rintro ⟨judged, fits⟩
    exact ⟨_, survey_outcome judged, agrees.feasible_iff.mpr fits⟩

/-- One attempt is judged no more strictly than another: areas can be judged if they could be, what was open is open,
and what is violated at a position was violated there. -/
structure NoStricter (a' a : Attempt α) : Prop where
  judgesAreas : a.JudgesAreas → a'.JudgesAreas
  isOpen : ∀ k, a.IsOpen k → a'.IsOpen k
  violates : ∀ k r severity', a'.Violates k r severity' → ∃ severity, a.Violates k r severity

namespace NoStricter

variable {a' a : Attempt α} (h : a'.NoStricter a)

include h

/-- A job that fits still fits if it is judged no more strictly. -/
theorem fits (fits : a.Fits) : a'.Fits := by
  obtain ⟨k, isOpen, free⟩ := fits
  refine ⟨k, h.isOpen k isOpen, fun r severity' violated => ?_⟩
  obtain ⟨severity, before⟩ := h.violates k r severity' violated
  exact free r severity before

/-- A vehicle that could take a job could take it as well if it is judged no more strictly. -/
theorem survey_isFeasible (feasible : (survey a).IsFeasible) : (survey a').IsFeasible := by
  rw [survey_isFeasible_iff] at feasible ⊢
  exact ⟨h.judgesAreas feasible.1, h.fits feasible.2⟩

end NoStricter

end Attempt

end Leftover
