/-
# Hints among the records of a job

What the optimizer noted during its search is merged with the records of an evaluation. The order of the hints does not
matter, they never hide a record but behind a milder one for the same vehicle and reason, and they leave everything else
of the evaluation as it is.

* `Evaluator.withHints` : an evaluator with other hints, which is the one that is built on them
* `Evaluator.evaluate_eq_ok` : an evaluation that is not stopped
* `Evaluator.evaluate_hints` : the records of a job, with hints
-/
import Leftover.Proofs.Records

namespace Leftover

section

variable {α : Type} [Quantity α]

/-! ## Other hints -/

omit [Quantity α] in
/-- The solution with other hints. -/
def Solution.withHints (s : Solution α) (hints : List (Text × List (Hint α))) : Solution α := { s with hints }

namespace Evaluator

/-- The evaluator with other hints. -/
def withHints (e : Evaluator α) (hints : List (Text × List (Hint α))) : Evaluator α :=
  { e with solution := e.solution.withHints hints }

/-- The evaluator with other hints is the one that is built on them. -/
theorem build_withHints {p : Problem α} {s : Solution α} {catalog : Catalog} {settings : DiagnosisSettings α}
    {e : Evaluator α} (built : (Evaluator.build p s catalog settings).outcome = .ok e)
    (hints : List (Text × List (Hint α))) :
    (Evaluator.build p (s.withHints hints) catalog settings).outcome = .ok (e.withHints hints) := by
  obtain ⟨valid, states, prepared, rfl⟩ := Evaluator.build_eq_ok.mp built
  rw [Evaluator.build_eq_ok]
  have same : routeOf p (s.withHints hints) = routeOf p s := rfl
  refine ⟨valid, states, ?_, rfl⟩
  rw [prepare_congr same, prepared]

variable [Plane α]

/-- The outcomes for the vehicles do not depend on hints. -/
theorem evaluateFrom_withHints (e : Evaluator α) (hints : List (Text × List (Hint α))) (late : Nat → Bool) (job : Job α)
    (k : Nat) (states : List (RouteState α)) :
    (e.withHints hints).evaluateFrom late job k states = e.evaluateFrom late job k states := by
  have surveys : (e.withHints hints).evaluateVehicle job = e.evaluateVehicle job := rfl
  exact evaluateFrom_congr surveys late k states

/-! ## Evaluations that are not stopped -/

variable {e : Evaluator α} {late : Nat → Bool} {job : Job α}

theorem evaluateVehicle_eq_ok {state : RouteState α} {out : VehicleOutcome α}
    (found : (e.evaluateVehicle job state).outcome = .ok out) :
    out = (e.attempt job state).outcomeBy (Trial.orderOf e.settings.exhaustive) :=
  Attempt.survey_eq_ok found

/-- If the vehicles of a job are all evaluated, each has its outcome. -/
theorem evaluateFrom_eq_ok {k : Nat} {states : List (RouteState α)} {outs : List (VehicleOutcome α)}
    (found : (e.evaluateFrom late job k states).outcome = .ok outs) :
    (∀ state ∈ states, (e.evaluateVehicle job state).outcome
        = .ok ((e.attempt job state).outcomeBy (Trial.orderOf e.settings.exhaustive)))
      ∧ outs = states.map fun state => (e.attempt job state).outcomeBy (Trial.orderOf e.settings.exhaustive) := by
  induction states generalizing k outs with
  | nil =>
    obtain rfl := Except.ok.inj found
    exact ⟨by simp, rfl⟩
  | cons state rest ih =>
    cases now : late k with
    | true => exact absurd found (by simp [evaluateFrom, now])
    | false =>
      simp only [evaluateFrom, now, Bool.false_eq_true, if_false, Observed.outcome_bind, Observed.outcome_pure,
        except_bind_eq_ok] at found
      obtain ⟨out, first, others, more, same⟩ := found
      obtain rfl := Except.ok.inj same
      obtain ⟨each, rfl⟩ := ih more
      obtain rfl := evaluateVehicle_eq_ok first
      exact ⟨List.forall_mem_cons.mpr ⟨first, each⟩, rfl⟩

/-- An evaluation that is not stopped collects the outcomes for all vehicles. -/
theorem evaluate_eq_ok {evaluation : JobEvaluation α} :
    (e.evaluate late job).outcome = .ok evaluation ↔
      (e.evaluateFrom late job 0 e.states).outcome = .ok (e.outcomes job)
        ∧ evaluation = e.collect job (e.outcomes job) := by
  simp only [evaluate, Observed.outcome_bind, Observed.outcome_pure, except_bind_eq_ok, Except.ok.injEq]
  constructor
  · rintro ⟨outs, found, rfl⟩
    obtain ⟨-, rfl⟩ := evaluateFrom_eq_ok found
    exact ⟨found, rfl⟩
  · rintro ⟨found, rfl⟩
    exact ⟨_, found, rfl⟩

/-- The outcomes for a job are about the vehicles of the fleet. -/
theorem vehicleIds_outcomes {p : Problem α} {s : Solution α} {fleet : List (Vehicle α)}
    (routes : List.Forall₂ (fun v state => routeOf p s v = .ok state) fleet e.states) :
    (e.outcomes job).map (·.vehicleId) = fleet.map (·.id) := by
  rw [← vehicles_of_routes routes, outcomes, List.map_map, List.map_map]
  apply List.map_congr_left
  intro state _
  exact ((e.attempt job state).agrees_outcomeBy _).vehicleId_eq

/-! ## The reason that is shown -/

omit [Plane α] in
/-- More obstacles do not make the reason that is shown less fundamental, if the outcomes are the same in some order. -/
theorem Shows.rank_le_of_subset {e' : Evaluator α} {jobId : Text} {outcomes outcomes' : List (VehicleOutcome α)}
    {shown shown' : Resolution α} (shows : e.Shows jobId outcomes shown) (shows' : e'.Shows jobId outcomes' shown')
    (same : outcomes'.Perm outcomes) (more : ∀ c ∈ e'.obstacles jobId outcomes', c ∈ e.obstacles jobId outcomes) :
    shown.code.rank ≤ shown'.code.rank := by
  have unreachable : (outcomes' ≠ [] ∧ ∀ out ∈ outcomes', out.unreachable = true)
      ↔ (outcomes ≠ [] ∧ ∀ out ∈ outcomes, out.unreachable = true) := by
    rw [← List.length_pos_iff, ← List.length_pos_iff, same.length_eq]
    exact and_congr_right fun _ => forall_congr' fun out => by rw [same.mem_iff]
  by_cases all : outcomes ≠ [] ∧ ∀ out ∈ outcomes, out.unreachable = true
  · have all' := unreachable.mpr all
    rw [shows.of_unreachable all.1 all.2, shows'.of_unreachable all'.1 all'.2]
  · by_cases none : e'.obstacles jobId outcomes' = []
    · -- the reason that stands for none comes last
      rw [shows'.unexplained_iff.mpr none]
      exact List.idxOf_le_length
    · have first' := shows'.isFirstOf none (mt unreachable.mp all)
      have some_obstacle := List.ne_nil_of_mem (more _ first'.1)
      exact (shows.isFirstOf some_obstacle all).2 _ (more _ first'.1)

end Evaluator

end

/-! ## Evaluations with hints -/

section

variable {α : Type} [Quantity α]

/-- Two evaluations are the same, the numbers that measure severities being at the same places. -/
structure JobEvaluation.Alike (x y : JobEvaluation α) : Prop where
  jobId : x.jobId = y.jobId
  records : List.Forall₂ Record.Alike x.records y.records
  vehiclesEvaluated : x.vehiclesEvaluated = y.vehiclesEvaluated
  unreachableVehicles : x.unreachableVehicles = y.unreachableVehicles
  feasibleVehicles : x.feasibleVehicles = y.feasibleVehicles

theorem JobEvaluation.Alike.eq {x y : JobEvaluation Exact} (alike : x.Alike y) : x = y := by
  have records : x.records = y.records := by
    rw [← List.forall₂_eq_eq_eq]
    exact alike.records.imp fun _ _ => Record.Alike.eq
  rw [JobEvaluation.mk.injEq]
  exact ⟨alike.jobId, records, alike.vehiclesEvaluated, alike.unreachableVehicles, alike.feasibleVehicles⟩

namespace Evaluator

/-- The hints that count are some of those for the job. -/
theorem usableHints_of_used {e : Evaluator α} (used : e.settings.useHints = true) (jobId : Text) :
    e.usableHints jobId = (e.solution.hintsFor jobId).filter e.isUsable := by
  rw [usableHints, if_pos used]

variable [Scale α] [Plane α] {e : Evaluator α} {job : Job α}

section

variable (routes : List.Forall₂ (fun v state => routeOf e.problem e.solution v = .ok state) e.problem.fleet e.states)
  (fleet : e.problem.fleetIds.Nodup) (defined : ∀ h ∈ e.usableHints job.id, IsComparable h.severity)

include routes fleet defined

/-- The records of the outcomes for the fleet are merged with those of the hints that count. -/
theorem merges_outcomes : Merges ((e.outcomes job).flatMap (·.records)) ((e.usableHints job.id).map recordOf)
    (e.collect job (e.outcomes job)).records :=
  merges_collect (fun _ => agrees_of_mem_outcomes) (vehicleIds_outcomes routes ▸ fleet) defined

variable (named : ∀ h ∈ e.usableHints job.id, ∀ id ∈ h.vehicleId, id ∈ e.problem.fleetIds)

include named

theorem sorted_outcomes : (e.collect job (e.outcomes job)).records.Pairwise (Record.Precedes e.problem.fleetIds) := by
  have vehicles : (e.outcomes job).map (·.vehicleId) = e.problem.fleetIds := vehicleIds_outcomes routes
  refine sorted_collect (fun _ => agrees_of_mem_outcomes) (vehicles ▸ fleet) defined fleet ?_ named
  exact fun out member => vehicles ▸ List.mem_map_of_mem member

variable {hints : List (Text × List (Hint α))}
  (perm : ((e.withHints hints).usableHints job.id).Perm (e.usableHints job.id))

include perm

/-- Hints in another order make up the same evaluation of the outcomes for the fleet. -/
theorem collect_withHints :
    ((e.withHints hints).collect job (e.outcomes job)).Alike (e.collect job (e.outcomes job)) := by
  have defined' : ∀ h ∈ (e.withHints hints).usableHints job.id, IsComparable h.severity :=
    fun h usable => defined h (perm.mem_iff.mp usable)
  have named' : ∀ h ∈ (e.withHints hints).usableHints job.id, ∀ id ∈ h.vehicleId, id ∈ e.problem.fleetIds :=
    fun h usable => named h (perm.mem_iff.mp usable)
  have merges := merges_outcomes routes fleet defined
  have merges' : Merges ((e.outcomes job).flatMap (·.records)) (((e.withHints hints).usableHints job.id).map recordOf)
      ((e.withHints hints).collect job (e.outcomes job)).records :=
    merges_outcomes (e := e.withHints hints) routes fleet defined'
  have sorted := sorted_outcomes routes fleet defined named
  have sorted' : ((e.withHints hints).collect job (e.outcomes job)).records.Pairwise (Record.Precedes e.problem.fleetIds) :=
    sorted_outcomes (e := e.withHints hints) routes fleet defined' named'
  have same_hints : ∀ r, r ∈ ((e.withHints hints).usableHints job.id).map recordOf ↔ r ∈ (e.usableHints job.id).map recordOf :=
    fun r => (perm.map recordOf).mem_iff
  -- the records are about the same in the same order, and each is like one that is about the same
  have same_keys : (((e.withHints hints).collect job (e.outcomes job)).records.map Record.key).Perm
      ((e.collect job (e.outcomes job)).records.map Record.key) := by
    rw [List.perm_ext_iff_of_nodup merges'.distinct merges.distinct]
    intro key
    rw [merges'.mem_keys, merges.mem_keys, ((perm.map recordOf).map Record.key).mem_iff]
  have keys := map_key_eq_of_precedes same_keys sorted' sorted
  have records := forall₂_of_map_key_eq keys merges.distinct fun r hr => by
    obtain ⟨r', hr', alike⟩ := merges'.exists_alike merges (fun r => Iff.rfl) same_hints
      (fun r => isDefined_of_mem fun _ => agrees_of_mem_outcomes)
      (fun r told => by
        obtain ⟨h, usable, rfl⟩ := List.mem_map.mp told
        exact defined' h usable)
      (fun r told => by
        obtain ⟨h, -, rfl⟩ := List.mem_map.mp told
        exact ⟨h, rfl⟩) r hr
    exact ⟨r', hr', alike.key.symm, alike⟩
  exact ⟨rfl, records, rfl, rfl, rfl⟩

/-- Hints in another order make up the same evaluation, or leave it stopped at the same vehicle. -/
theorem evaluate_withHints_alike (late : Nat → Bool) : Parallel JobEvaluation.Alike
    ((e.withHints hints).evaluate late job).outcome (e.evaluate late job).outcome := by
  have found : ((e.withHints hints).evaluateFrom late job 0 (e.withHints hints).states).outcome
      = (e.evaluateFrom late job 0 e.states).outcome := by
    rw [evaluateFrom_withHints]
    rfl
  rw [evaluate, evaluate, Observed.outcome_bind, Observed.outcome_bind, found]
  cases outcomes : (e.evaluateFrom late job 0 e.states).outcome with
  | error fault => exact .error fault
  | ok outs =>
    obtain ⟨-, rfl⟩ := evaluateFrom_eq_ok outcomes
    exact .ok (collect_withHints routes fleet defined named perm)

end

section

variable {late : Nat → Bool} {evaluation : JobEvaluation α} (evaluated : (e.evaluate late job).outcome = .ok evaluation)

include evaluated

omit [Scale α] in
/-- An evaluation with other hints collects the same outcomes. -/
theorem evaluate_withHints (hints : List (Text × List (Hint α))) : ((e.withHints hints).evaluate late job).outcome
    = .ok ((e.withHints hints).collect job (e.outcomes job)) := by
  rw [evaluate_eq_ok, evaluateFrom_withHints]
  exact ⟨(evaluate_eq_ok.mp evaluated).1, rfl⟩

omit [Scale α] in
/-- Which vehicles are evaluated, out of reach, or could take the job, is the same with any hints. -/
theorem vehicles_withHints (hints : List (Text × List (Hint α))) :
    ∃ evaluation', ((e.withHints hints).evaluate late job).outcome = .ok evaluation'
      ∧ evaluation'.vehiclesEvaluated = evaluation.vehiclesEvaluated
      ∧ evaluation'.unreachableVehicles = evaluation.unreachableVehicles
      ∧ evaluation'.feasibleVehicles = evaluation.feasibleVehicles := by
  refine ⟨_, evaluate_withHints evaluated hints, ?_⟩
  obtain ⟨-, rfl⟩ := evaluate_eq_ok.mp evaluated
  exact ⟨rfl, rfl, rfl⟩

omit [Scale α] in
/-- The reason that is shown with hints is not less fundamental than the one without. -/
theorem resolve_withHints_rank (policy : TieBreak) (order : List Text) :
    ∃ unhinted shown shown', ((e.withHints []).evaluate late job).outcome = .ok unhinted
      ∧ resolve policy order evaluation = .ok shown ∧ resolve policy order unhinted = .ok shown'
      ∧ shown.code.rank ≤ shown'.code.rank := by
  have agree : ∀ out ∈ e.outcomes job, ∃ a : Attempt α, a.Agrees out := fun out => agrees_of_mem_outcomes
  obtain ⟨-, rfl⟩ := evaluate_eq_ok.mp evaluated
  obtain ⟨shown, resolved, shows⟩ := resolve_collect e job agree policy order
  obtain ⟨shown', resolved', shows'⟩ := resolve_collect (e.withHints []) job agree policy order
  refine ⟨_, shown, shown', evaluate_withHints evaluated [], resolved, resolved', ?_⟩
  refine shows.rank_le_of_subset shows' (.refl _) fun c member => ?_
  have none : (e.withHints []).usableHints job.id = [] := by
    rw [usableHints]
    split <;> rfl
  rw [obstacles, none, List.map_nil, List.append_nil] at member
  exact List.mem_append_left _ member

end

/-- Let hints be used, and let those for a job name no vehicles but those of the fleet, which are distinct, and have no
undefined severities. In any order they make up the same evaluation, the numbers that measure severities being at the
same places. Its records are those of the outcomes, merged with those of the hints that count, and stand by priority and
then by vehicle; those that are not of the outcomes have no position. Which vehicles are evaluated, which are out of
reach, and which could take the job, is the same with any hints. And the reason that is shown is not less fundamental
than the one without hints. -/
theorem evaluate_hints {p : Problem α} {s : Solution α} {catalog : Catalog} {settings : DiagnosisSettings α}
    {e : Evaluator α} (built : (Evaluator.build p s catalog settings).outcome = .ok e) (fleet : p.fleetIds.Nodup)
    (used : settings.useHints = true) (late : Nat → Bool) (job : Job α)
    (named : ∀ h ∈ s.hintsFor job.id, ∀ id ∈ h.vehicleId, id ∈ p.fleetIds)
    (defined : ∀ h ∈ s.hintsFor job.id, IsComparable h.severity) :
    (∀ hints, (Evaluator.build p (s.withHints hints) catalog settings).outcome = .ok (e.withHints hints))
      ∧ (∀ hints, ((s.withHints hints).hintsFor job.id).Perm (s.hintsFor job.id) →
        Parallel JobEvaluation.Alike ((e.withHints hints).evaluate late job).outcome (e.evaluate late job).outcome)
      ∧ ((∀ state ∈ e.states, (e.attempt job state).JudgesAreas) →
        ∃ evaluation, (e.evaluate (fun _ => false) job).outcome = .ok evaluation)
      ∧ ∀ evaluation, (e.evaluate late job).outcome = .ok evaluation →
        (∃ outcomes, List.Forall₂ (e.Finds job) p.fleet outcomes
          ∧ Merges (outcomes.flatMap (·.records)) (((s.hintsFor job.id).filter e.isUsable).map recordOf) evaluation.records
          ∧ ∀ r ∈ evaluation.records, r ∈ outcomes.flatMap (·.records) ∨ r.position = none)
        ∧ evaluation.records.Pairwise (Record.Precedes p.fleetIds)
        ∧ (∀ hints, ∃ evaluation', ((e.withHints hints).evaluate late job).outcome = .ok evaluation'
          ∧ evaluation'.vehiclesEvaluated = evaluation.vehiclesEvaluated
          ∧ evaluation'.unreachableVehicles = evaluation.unreachableVehicles
          ∧ evaluation'.feasibleVehicles = evaluation.feasibleVehicles)
        ∧ ∀ policy order, ∃ unhinted shown shown', ((e.withHints []).evaluate late job).outcome = .ok unhinted
          ∧ resolve policy order evaluation = .ok shown ∧ resolve policy order unhinted = .ok shown'
          ∧ shown.code.rank ≤ shown'.code.rank := by
  have others := fun hints => build_withHints built hints
  obtain ⟨-, states, prepared, same⟩ := Evaluator.build_eq_ok.mp built
  obtain ⟨rfl, rfl, rfl, rfl, rfl⟩ : e.problem = p ∧ e.solution = s ∧ e.catalog = catalog ∧ e.settings = settings
    ∧ e.states = states := by simp [same]
  have routes := prepare_eq_ok.mp prepared
  have usable_eq := usableHints_of_used used job.id
  have listed : ∀ h ∈ e.usableHints job.id, h ∈ e.solution.hintsFor job.id := by
    rw [usable_eq]
    exact fun h usable => (List.mem_filter.mp usable).1
  have named := fun h usable => named h (listed h usable)
  have defined := fun h usable => defined h (listed h usable)
  refine ⟨others, fun hints perm => ?_, fun judged => ⟨_, evaluate_outcome judged⟩, fun evaluation evaluated => ?_⟩
  · refine evaluate_withHints_alike routes fleet defined named ?_ late
    rw [usable_eq, usableHints_of_used (e := e.withHints hints) used]
    exact perm.filter _
  · have vehicles := vehicles_withHints evaluated
    have rank := resolve_withHints_rank evaluated
    have merges := merges_outcomes routes fleet defined
    have sorted := sorted_outcomes routes fleet defined named
    obtain ⟨all, rfl⟩ := evaluate_eq_ok.mp evaluated
    refine ⟨⟨e.outcomes job, finds_of_found (evaluateFrom_eq_ok all).1 routes, usable_eq ▸ merges, fun r hr => ?_⟩,
      sorted, vehicles, rank⟩
    refine (merges.given r hr).imp_right fun hinted => ?_
    obtain ⟨h, -, rfl⟩ := List.mem_map.mp hinted
    rfl

/-! ### Hints for the van -/

/-- What was noted for the job that the van leaves: a milder violation of its relation, and of the tour size twice for no
vehicle. -/
def liftHints : List (Hint Exact) :=
  [⟨.tourSize, none, none⟩, ⟨.locking, some "van", some (.finite 1)⟩, ⟨.tourSize, none, some (.finite 2)⟩]

theorem evaluate_hints_van :
    (∀ h ∈ (vanSolution.withHints [("lift", liftHints)]).hintsFor lift.id, ∀ id ∈ h.vehicleId, id ∈ vanPlan.fleetIds)
      ∧ (∀ h ∈ (vanSolution.withHints [("lift", liftHints)]).hintsFor lift.id, IsComparable h.severity)
      ∧ ((vanEvaluator.withHints [("lift", liftHints.reverse)]).evaluate (fun _ => false) lift).outcome
        = ((vanEvaluator.withHints [("lift", liftHints)]).evaluate (fun _ => false) lift).outcome
      ∧ ∃ evaluation, ((vanEvaluator.withHints [("lift", liftHints)]).evaluate (fun _ => false) lift).outcome
          = .ok evaluation
        ∧ evaluation.records.map (fun r => (r.code, r.position)) = [(.locking, none), (.priority, some 1), (.tourSize, none)]
        ∧ evaluation.records.Pairwise (Record.Precedes vanPlan.fleetIds) := by
  have named : ∀ h ∈ (vanSolution.withHints [("lift", liftHints)]).hintsFor lift.id,
      ∀ id ∈ h.vehicleId, id ∈ vanPlan.fleetIds := by decide +kernel
  have defined : ∀ h ∈ (vanSolution.withHints [("lift", liftHints)]).hintsFor lift.id, IsComparable h.severity := by
    unfold IsComparable
    decide +kernel
  have built := build_withHints build_vanEvaluator [("lift", liftHints)]
  obtain ⟨-, reordered, stays, merged⟩ := evaluate_hints built (by decide +kernel) rfl (fun _ => false) lift named defined
  obtain ⟨evaluation, evaluated⟩ := stays (judgesAreas_van lift)
  have records : ((vanEvaluator.withHints [("lift", liftHints)]).evaluate (fun _ => false) lift).outcome.map
      (fun evaluation => evaluation.records.map fun r => (r.code, r.position))
      = .ok [(.locking, none), (.priority, some 1), (.tourSize, none)] := by decide +kernel
  rw [evaluated] at records
  obtain ⟨-, sorted, -⟩ := merged evaluation evaluated
  have perm : (((vanSolution.withHints [("lift", liftHints)]).withHints [("lift", liftHints.reverse)]).hintsFor lift.id).Perm
      ((vanSolution.withHints [("lift", liftHints)]).hintsFor lift.id) := List.reverse_perm liftHints
  exact ⟨named, defined, (reordered _ perm).eq fun _ _ => JobEvaluation.Alike.eq, evaluation, evaluated, Except.ok.inj records, sorted⟩

end Evaluator

end

end Leftover
