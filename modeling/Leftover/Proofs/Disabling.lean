/-
# Reasons that are switched off

Settings may switch reasons off. Such a reason is not checked, it is not taken over from a hint, and not even the lack
of a path is told any more if that is what is switched off. So it is found nowhere: not among the records of a vehicle or
a job, not as the reason that is shown, and not in a report. And a vehicle that could take a job could still take it
when more reasons are switched off.

* `Evaluator.Omits` : reasons that an evaluator never gives
* `Evaluator.omits_disabled` : reasons that are switched off
* `Attempt.noStricter_of_subset` : fewer checks are no stricter
* `Evaluator.disabling` : both together, for two settings of which one switches off more
-/
import Leftover.Proofs.Deadline
import Leftover.Proofs.Hints
import Leftover.Proofs.Leniency

namespace Leftover

variable {α : Type} [Quantity α]

/-! ## Catalogs -/

/-- The more is switched off, the less is checked. -/
theorem Catalog.without_subset {disabled disabled' : List Reason} (more : disabled ⊆ disabled') :
    (without disabled').reasons ⊆ (without disabled).reasons := by
  intro r checked
  rw [mem_without] at checked ⊢
  exact ⟨checked.1, fun off => checked.2 (more off)⟩

/-! ## Records of vehicles -/

variable [Plane α]

namespace Attempt

/-- Some position is open if reachability is not checked. -/
theorem exists_isOpen {a : Attempt α} (unchecked : .reachable ∉ a.catalog.reasons) : ∃ k, a.IsOpen k :=
  ⟨0, by simp [RouteState.positions], fun checked => absurd checked unchecked⟩

/-- All records of an outcome are of constraints that are checked. -/
theorem Agrees.code_mem_reasons {a : Attempt α} {out : VehicleOutcome α} (agrees : a.Agrees out) {record : Record α}
    (found : record ∈ out.records) : record.code ∈ a.catalog.reasons := by
  cases out_of_reach : out.unreachable with
  | true =>
    rw [agrees.of_unreachable out_of_reach, List.mem_singleton] at found
    rw [found]
    by_contra unchecked
    exact agrees.unreachable_iff.mp out_of_reach (exists_isOpen unchecked)
  | false =>
    obtain ⟨k, -, records⟩ := agrees.of_reachable out_of_reach
    obtain ⟨r, severity, violated, rfl⟩ := (records.mem_iff record).mp found
    exact (List.mem_filter.mp violated.1).1

/-- An attempt of which fewer constraints are checked is judged no more strictly, in whichever mode. -/
theorem noStricter_of_subset (a : Attempt α) {catalog : Catalog} (fewer : catalog.reasons ⊆ a.catalog.reasons)
    (exhaustive : Bool) : ({ a with catalog, exhaustive } : Attempt α).NoStricter a where
  judgesAreas := fun judges checked => judges (fewer checked)
  isOpen := fun k isOpen => ⟨isOpen.1, fun checked => isOpen.2 (fewer checked)⟩
  violates := by
    rintro k r severity ⟨checked, violated⟩
    obtain ⟨checked, other⟩ := List.mem_filter.mp checked
    exact ⟨severity, List.mem_filter.mpr ⟨fewer checked, other⟩, violated⟩

end Attempt

/-! ## Records, reasons and entries -/

namespace Evaluator

/-- An evaluator never gives certain reasons: no record has one, neither of a vehicle nor of a job; whenever a job is
evaluated, some other reason is shown for it; and no entry of a report has one. -/
structure Omits (e : Evaluator α) (codes : List Reason) : Prop where
  outcome : ∀ job state out, (e.evaluateVehicle job state).outcome = .ok out → ∀ r ∈ out.records, r.code ∉ codes
  evaluation : ∀ late job evaluation, (e.evaluate late job).outcome = .ok evaluation →
    ∀ r ∈ evaluation.records, r.code ∉ codes
  resolution : ∀ late job evaluation, (e.evaluate late job).outcome = .ok evaluation →
    ∀ policy fleet, ∃ shown, resolve policy fleet evaluation = .ok shown ∧ shown.code ∉ codes
  entry : ∀ tieBreak maxWorkers s timer plan report,
    (ReportBuilder.build ⟨e, tieBreak, maxWorkers⟩ s timer plan).outcome = .ok report →
    ∀ entry ∈ report.entries, entry.code ∉ codes

section

variable {e : Evaluator α} (catalog : e.catalog = .without e.settings.disabled)

include catalog

theorem outcome_notMem_disabled {job : Job α} {state : RouteState α} {out : VehicleOutcome α}
    (agrees : (e.attempt job state).Agrees out) : ∀ r ∈ out.records, r.code ∉ e.settings.disabled := by
  intro r found
  have checked : r.code ∈ e.catalog.reasons := agrees.code_mem_reasons found
  rw [catalog, Catalog.mem_without] at checked
  exact checked.2

/-- Nothing that is switched off stands in the way of a job, not even by a hint. -/
theorem obstacles_notMem_disabled (job : Job α) : ∀ c ∈ e.obstacles job.id (e.outcomes job), c ∉ e.settings.disabled := by
  intro c member
  rcases List.mem_append.mp member with member | member
  · obtain ⟨r, found, rfl⟩ := List.mem_map.mp member
    obtain ⟨out, listed, found⟩ := List.mem_flatMap.mp found
    obtain ⟨state, -, rfl⟩ := List.mem_map.mp listed
    exact outcome_notMem_disabled catalog ((e.attempt job state).agrees_outcomeBy _) r found
  · obtain ⟨hint, found, rfl⟩ := List.mem_map.mp member
    unfold usableHints at found
    split at found
    · have usable := (List.mem_filter.mp found).2
      simp only [isUsable, Bool.and_eq_true, Bool.not_eq_true', List.contains_eq_mem, decide_eq_false_iff_not] at usable
      exact usable.2
    · exact absurd found (by simp)

variable (some_left : .unexplained ∉ e.settings.disabled)

include some_left

/-- The reason that is shown is not switched off. -/
theorem Shows.notMem_disabled {job : Job α} {shown : Resolution α} (shows : e.Shows job.id (e.outcomes job) shown) :
    shown.code ∉ e.settings.disabled := by
  by_cases none : e.obstacles job.id (e.outcomes job) = []
  · rw [shows.unexplained_iff.mpr none]
    exact some_left
  · by_cases all : e.outcomes job ≠ [] ∧ ∀ out ∈ e.outcomes job, out.unreachable = true
    · rw [shows.of_unreachable all.1 all.2]
      refine obstacles_notMem_disabled catalog job _ (reachable_mem_obstacles ?_ all.1 all.2)
      exact fun out => agrees_of_mem_outcomes
    · exact obstacles_notMem_disabled catalog job _ (shows.isFirstOf none all).1

/-- Some reason that is not switched off is shown for every evaluation. -/
theorem resolve_notMem_disabled {late : Nat → Bool} {job : Job α} {evaluation : JobEvaluation α}
    (found : (e.evaluate late job).outcome = .ok evaluation) (policy : TieBreak) (fleet : List Text) :
    ∃ shown, resolve policy fleet evaluation = .ok shown ∧ shown.code ∉ e.settings.disabled := by
  obtain ⟨-, rfl⟩ := evaluate_eq_ok.mp found
  obtain ⟨shown, resolved, shows⟩ := resolve_collect e job (fun out => agrees_of_mem_outcomes) policy fleet
  exact ⟨shown, resolved, shows.notMem_disabled catalog some_left⟩

/-- The entry of a job does not give a reason that is switched off, even if the evaluation of the job is stopped. -/
theorem explain_notMem_disabled {b : ReportBuilder α} (evaluator : b.evaluator = e) (late : Nat → Bool) (job : Job α) :
    (b.explain late job).2.code ∉ e.settings.disabled := by
  cases found : (b.evaluator.evaluate late job).outcome with
  | error fault =>
    rw [ReportBuilder.explain_of_error found]
    exact some_left
  | ok evaluation =>
    obtain ⟨shown, resolved, other⟩ := resolve_notMem_disabled catalog some_left (evaluator ▸ found) b.tieBreak
      b.evaluator.problem.fleetIds
    rw [ReportBuilder.explain_of_resolved found resolved]
    exact other

/-- An evaluator never gives a reason that is switched off. -/
theorem omits_disabled : e.Omits e.settings.disabled where
  outcome := by
    intro job state out found
    obtain rfl := evaluateVehicle_eq_ok found
    exact outcome_notMem_disabled catalog ((e.attempt job state).agrees_outcomeBy _)
  evaluation := by
    intro late job evaluation found r member
    obtain ⟨-, rfl⟩ := evaluate_eq_ok.mp found
    exact obstacles_notMem_disabled catalog job _ (mem_codes_collect.mp (List.mem_map_of_mem member))
  resolution := fun late job evaluation found => resolve_notMem_disabled catalog some_left found
  entry := by
    intro tieBreak maxWorkers s timer plan report made entry listed
    obtain ⟨jobs, -, rfl⟩ := ReportBuilder.build_eq_ok.mp made
    obtain ⟨job, -, rfl⟩ := List.mem_map.mp listed
    exact explain_notMem_disabled catalog some_left rfl _ job

end

/-! ## More reasons switched off -/

omit [Plane α] in
/-- An evaluator is built with any settings on the same routes. -/
theorem build_settings {p : Problem α} {s : Solution α} {catalog : Catalog} {settings : DiagnosisSettings α}
    {e : Evaluator α} (built : (Evaluator.build p s catalog settings).outcome = .ok e) (catalog' : Catalog)
    (settings' : DiagnosisSettings α) :
    (Evaluator.build p s catalog' settings').outcome = .ok { e with catalog := catalog', settings := settings' } := by
  obtain ⟨valid, states, prepared, rfl⟩ := Evaluator.build_eq_ok.mp built
  exact Evaluator.build_eq_ok.mpr ⟨valid, states, prepared, rfl⟩

/-- Nothing that an evaluator finds feasible is lost to another one: not one vehicle for one job, nor any of the
vehicles that could take a job according to its evaluation. And the other one evaluates every job that is evaluated,
unless paths are not checked any more and areas cannot be judged. -/
structure Widens (e' e : Evaluator α) : Prop where
  vehicle : ∀ job state, (e.evaluateVehicle job state).IsFeasible → (e'.evaluateVehicle job state).IsFeasible
  evaluation : ∀ late late' job evaluation evaluation', (e.evaluate late job).outcome = .ok evaluation →
    (e'.evaluate late' job).outcome = .ok evaluation' → evaluation.feasibleVehicles ⊆ evaluation'.feasibleVehicles
  evaluates : ∀ late job evaluation, (e.evaluate late job).outcome = .ok evaluation →
    (.reachable ∈ e.catalog.reasons → .reachable ∉ e'.catalog.reasons →
      ∀ state ∈ e'.states, (e'.attempt job state).JudgesAreas) →
    ∃ evaluation', (e'.evaluate late job).outcome = .ok evaluation'

/-- The vehicles that could take a job are those into whose routes it fits. -/
theorem mem_feasibleVehicles {e : Evaluator α} {job : Job α} {id : Text} :
    id ∈ (e.collect job (e.outcomes job)).feasibleVehicles
      ↔ ∃ state ∈ e.states, state.vehicle.id = id ∧ (e.attempt job state).Fits := by
  have agrees : ∀ state, (e.attempt job state).Agrees _ :=
    fun state => (e.attempt job state).agrees_outcomeBy e.settings.exhaustive
  constructor
  · intro member
    obtain ⟨out, kept, rfl⟩ := List.mem_map.mp member
    obtain ⟨listed, feasible⟩ := List.mem_filter.mp kept
    obtain ⟨state, held, rfl⟩ := List.mem_map.mp listed
    exact ⟨state, held, (agrees state).vehicleId_eq.symm, (agrees state).feasible_iff.mp feasible⟩
  · rintro ⟨state, held, rfl, fits⟩
    refine List.mem_map.mpr ⟨_, List.mem_filter.mpr ⟨List.mem_map_of_mem held, ?_⟩, (agrees state).vehicleId_eq⟩
    exact (agrees state).feasible_iff.mpr fits

/-- A job is evaluated just when the deadline does not pass before any vehicle, and none of them stops the evaluation. -/
theorem exists_evaluate_iff {e : Evaluator α} {late : Nat → Bool} {job : Job α} :
    (∃ evaluation, (e.evaluate late job).outcome = .ok evaluation) ↔ (∀ j < e.states.length, late j = false)
      ∧ ∀ state ∈ e.states, ∃ out, (e.evaluateVehicle job state).outcome = .ok out := by
  constructor
  · rintro ⟨evaluation, found⟩
    refine ⟨fun j inside => ?_, fun state held => ⟨_, (evaluateFrom_eq_ok (evaluate_eq_ok.mp found).1).1 state held⟩⟩
    by_contra passed
    obtain ⟨fault, stopped⟩ := e.evaluate_of_late job ⟨j, inside, by simpa using passed⟩
    exact absurd (found.symm.trans stopped) (by simp)
  · rintro ⟨onTime, each⟩
    have every : ∀ state ∈ e.states, (e.evaluateVehicle job state).outcome
        = .ok ((e.attempt job state).outcomeBy (Trial.orderOf e.settings.exhaustive)) := by
      intro state held
      obtain ⟨out, found⟩ := each state held
      rw [found, evaluateVehicle_eq_ok found]
    have all : (e.evaluateFrom (fun _ => false) job 0 e.states).outcome = .ok (e.outcomes job) := by
      rw [evaluateFrom_eq_ok_iff, outcomes, List.forall₂_map_right_iff, List.forall₂_same]
      exact every
    rw [e.evaluate_of_onTime job onTime]
    exact ⟨_, evaluate_eq_ok.mpr ⟨all, rfl⟩⟩

/-- Fewer checks on the same routes lose nothing that is found feasible. -/
theorem widens_of_subset (e : Evaluator α) {catalog : Catalog} (fewer : catalog.reasons ⊆ e.catalog.reasons)
    (settings : DiagnosisSettings α) : ({ e with catalog, settings } : Evaluator α).Widens e := by
  have milder : ∀ job state,
      (({ e with catalog, settings } : Evaluator α).attempt job state).NoStricter (e.attempt job state) :=
    fun job state => (e.attempt job state).noStricter_of_subset fewer settings.exhaustive
  refine ⟨fun job state => (milder job state).survey_isFeasible, ?_, ?_⟩
  · intro late late' job evaluation evaluation' found found' id member
    obtain ⟨-, rfl⟩ := evaluate_eq_ok.mp found
    obtain ⟨-, rfl⟩ := evaluate_eq_ok.mp found'
    obtain ⟨state, held, own, fits⟩ := mem_feasibleVehicles.mp member
    exact mem_feasibleVehicles.mpr ⟨state, held, own, (milder job state).fits fits⟩
  · intro late job evaluation found judged
    obtain ⟨onTime, each⟩ := exists_evaluate_iff.mp ⟨evaluation, found⟩
    refine exists_evaluate_iff.mpr ⟨onTime, fun state held => ?_⟩
    refine (Attempt.exists_survey_iff _).mpr ?_
    rintro ⟨k, isOpen⟩
    by_cases kept : .reachable ∈ e.catalog.reasons → .reachable ∈ catalog.reasons
    · -- the position was open before, so areas could be judged
      have returned := (e.attempt job state).exists_survey_iff.mp (each state held)
      exact (milder job state).judgesAreas (returned ⟨k, isOpen.1, fun checked => isOpen.2 (kept checked)⟩)
    · obtain ⟨checked, unchecked⟩ := Classical.not_imp.mp kept
      exact judged checked unchecked state held

/-- One setting switches off whatever another one does and perhaps more, but not the reason that stands for none. Then an
evaluator is built with it as with the other one. It never gives a reason that is switched off, nor does any report that
is made with these settings; and nothing is lost that was found feasible with the other settings. -/
theorem omits_and_widens {p : Problem α} {s : Solution α} {settings settings' : DiagnosisSettings α} {e : Evaluator α}
    (more : settings.disabled ⊆ settings'.disabled) (some_left : .unexplained ∉ settings'.disabled)
    (built : (Evaluator.build p s (.without settings.disabled) settings).outcome = .ok e) :
    ∃ e', (Evaluator.build p s (.without settings'.disabled) settings').outcome = .ok e' ∧ e'.states = e.states
      ∧ e'.Omits settings'.disabled ∧ e'.Widens e
      ∧ ∀ timer report, (diagnose settings' p s timer).outcome = .ok report →
        ∀ entry ∈ report.entries, entry.code ∉ settings'.disabled := by
  have built' := build_settings built (.without settings'.disabled) settings'
  obtain ⟨-, states, -, rfl⟩ := Evaluator.build_eq_ok.mp built
  have omits := omits_disabled (e := ⟨p, s, .without settings'.disabled, settings', states⟩) rfl some_left
  refine ⟨_, built', rfl, omits, widens_of_subset _ (Catalog.without_subset more) settings', ?_⟩
  intro timer report made
  simp only [diagnose, reportOn, buildFor_without, Observed.outcome_bind, built', except_ok_bind, except_bind_eq_ok]
    at made
  obtain ⟨-, -, made⟩ := made
  exact omits.entry _ _ _ _ _ _ made

/-- Settings that switch off the reason that the van has, the one that a hint names, and paths. -/
def fewReasons : DiagnosisSettings Exact := { disabled := [.locking, .tourSize, .reachable] }

theorem omits_and_widens_van :
    (([] : List Reason) ⊆ fewReasons.disabled ∧ .unexplained ∉ fewReasons.disabled)
      ∧ (Evaluator.build vanPlan vanSolution (.without []) {}).outcome = .ok vanEvaluator
      ∧ ∃ e', (Evaluator.build vanPlan vanSolution (.without fewReasons.disabled) fewReasons).outcome = .ok e'
        ∧ e'.Omits [.locking, .tourSize, .reachable] ∧ e'.Widens vanEvaluator := by
  have more : ({} : DiagnosisSettings Exact).disabled ⊆ fewReasons.disabled := by simp
  have some_left : .unexplained ∉ fewReasons.disabled := by decide
  obtain ⟨e', built', -, omits, widens, -⟩ := omits_and_widens more some_left build_vanEvaluator
  exact ⟨⟨more, some_left⟩, build_vanEvaluator, e', built', omits, widens⟩

end Evaluator

end Leftover
