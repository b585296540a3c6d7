/-
# The report on leftover jobs

A report has one entry for every leftover job, in the order of the problem, and each entry is the one that the job
would have if it were the only one left over.

* `pairwise_idxOf_eraseDups` : items without repeats, in the order in which they are first listed
* `leftoverIds_outcome` : the leftover ids are those of the problem that are listed
* `Evaluator.build_leaving` : an evaluator does not depend on what else is left over
* `ReportBuilder.build_complete` : completeness, order, and independence of the entries
-/
import Leftover.Proofs.Building
import Leftover.Proofs.Survey
import Leftover.Proofs.Workers
import Mathlib.Data.List.Induction

namespace Leftover

variable {α : Type}

/-! ## Lists without repeats -/

theorem eraseDups_concat_of_mem {β : Type} [DecidableEq β] {xs : List β} {last : β} (known : last ∈ xs) :
    (xs ++ [last]).eraseDups = xs.eraseDups := by
  rw [List.eraseDups_append]
  simp [List.removeAll, known]

theorem eraseDups_concat_of_notMem {β : Type} [DecidableEq β] {xs : List β} {last : β} (new : last ∉ xs) :
    (xs ++ [last]).eraseDups = xs.eraseDups ++ [last] := by
  rw [List.eraseDups_append]
  simp [List.removeAll, new, List.eraseDups_cons]

/-- Items without repeats are in the order in which they are first listed. -/
theorem pairwise_idxOf_eraseDups {β : Type} [DecidableEq β] (xs : List β) :
    xs.eraseDups.Pairwise fun x y => xs.idxOf x < xs.idxOf y := by
  induction xs using List.reverseRecOn with
  | nil => exact List.Pairwise.nil
  | append_singleton xs last ih =>
    -- whether the last item is new or not, those before it keep their places
    have before : xs.eraseDups.Pairwise fun x y => (xs ++ [last]).idxOf x < (xs ++ [last]).idxOf y := by
      refine ih.imp_of_mem fun {x y} listed listed' first => ?_
      rw [List.idxOf_append_of_mem (List.mem_eraseDups.mp listed), List.idxOf_append_of_mem (List.mem_eraseDups.mp listed')]
      exact first
    by_cases known : last ∈ xs
    · rw [eraseDups_concat_of_mem known]
      exact before
    · rw [eraseDups_concat_of_notMem known, List.pairwise_append]
      refine ⟨before, List.pairwise_singleton _ _, ?_⟩
      intro x listed y same
      obtain rfl := List.mem_singleton.mp same
      have listed := List.mem_eraseDups.mp listed
      calc (xs ++ [y]).idxOf x = xs.idxOf x := List.idxOf_append_of_mem listed
        _ < xs.length := List.idxOf_lt_length_iff.mpr listed
        _ ≤ (xs ++ [y]).idxOf y := by rw [List.idxOf_append_of_notMem known]; omega

/-- Items that are each kept once do not repeat. -/
theorem nodup_eraseDups {β : Type} [DecidableEq β] (xs : List β) : xs.eraseDups.Nodup :=
  (pairwise_idxOf_eraseDups xs).imp fun first same => absurd (same ▸ first) (Nat.lt_irrefl _)

/-! ## Leftover ids -/

/-- Ids sorted by their places in a problem are in its order. -/
theorem pairwise_mergeSort_jobPlace (p : Problem α) (ids : List Text) :
    (ids.mergeSort fun id id' => p.jobPlace id ≤ p.jobPlace id').Pairwise fun id id' =>
      p.jobPlace id ≤ p.jobPlace id' := by
  have sorted : (ids.mergeSort fun id id' => p.jobPlace id ≤ p.jobPlace id').Pairwise fun id id' =>
      decide (p.jobPlace id ≤ p.jobPlace id') = true := by
    apply List.pairwise_mergeSort
    · intro a b c ab bc
      simp only [decide_eq_true_eq] at ab bc ⊢
      omega
    · intro a b
      simp only [Bool.or_eq_true, decide_eq_true_eq]
      omega
  exact sorted.imp of_decide_eq_true

section

variable {p : Problem α} {s : Solution α} (distinct : (p.jobs.map (·.id)).Nodup)

/-- Every leftover id is that of a job. -/
theorem mem_ids_of_checkReferences (exist : checkReferences p s = .ok ()) {id : Text} (left : id ∈ s.unassigned) :
    id ∈ p.jobs.map (·.id) := by
  obtain ⟨_, -, exist⟩ := except_bind_eq_ok.mp exist
  obtain ⟨_, -, exist⟩ := except_bind_eq_ok.mp exist
  obtain ⟨j, found, -⟩ := except_bind_eq_ok.mp (except_forM_eq_ok.mp exist id left)
  obtain ⟨member, rfl⟩ := Problem.of_job_eq_ok found
  exact List.mem_map_of_mem member

include distinct

/-- The leftover ids in the order of the problem are the ids of the problem that are left over. -/
theorem sorted_leftovers (exist : ∀ id ∈ s.unassigned, id ∈ p.jobs.map (·.id)) :
    ((distinctLeftovers s).mergeSort fun id id' => p.jobPlace id ≤ p.jobPlace id')
      = (p.jobs.map (·.id)).filter s.unassigned.contains := by
  -- both lists hold the same ids, each once, and both are in the order of the problem
  have same_ids : (distinctLeftovers s).Perm ((p.jobs.map (·.id)).filter s.unassigned.contains) := by
    rw [distinctLeftovers, List.perm_ext_iff_of_nodup (nodup_eraseDups _) (distinct.filter _)]
    intro id
    rw [List.mem_eraseDups, List.mem_filter, List.contains_iff_mem]
    exact ⟨fun left => ⟨exist id left, left⟩, fun h => h.2⟩
  have in_order := (Problem.jobPlace_pairwise distinct).filter s.unassigned.contains
  refine List.Perm.eq_of_pairwise ?_ (pairwise_mergeSort_jobPlace p _) (in_order.imp fun lt => Nat.le_of_lt lt)
    ((List.mergeSort_perm _ _).trans same_ids)
  intro id id' member member' le le'
  have member := same_ids.mem_iff.mp ((List.mergeSort_perm _ _).mem_iff.mp member)
  exact Problem.eq_of_jobPlace_eq distinct (List.mem_filter.mp member).1 (List.mem_filter.mp member').1
    (Nat.le_antisymm le le')

/-- If everything that a solution names exists and no leftover job is routed, the leftover ids are those of the problem
that are listed, in its order. -/
theorem leftoverIds_outcome (exist : checkReferences p s = .ok ()) (unrouted : checkUnrouted s = .ok ()) :
    (leftoverIds p s).outcome = .ok ((p.jobs.map (·.id)).filter s.unassigned.contains) := by
  have sorted := sorted_leftovers distinct fun id left => mem_ids_of_checkReferences exist left
  simp [leftoverIds, exist, unrouted, sorted]

/-- The leftover jobs are those of the problem that are listed, in its order. -/
theorem leftoverJobs_eq_ok {jobs : List (Job α)} :
    (leftoverJobs p s).outcome = .ok jobs ↔
      checkReferences p s = .ok () ∧ checkUnrouted s = .ok () ∧ jobs = p.jobs.filter fun j => s.unassigned.contains j.id := by
  have found : ((p.jobs.map (·.id)).filter s.unassigned.contains).mapM p.job
      = .ok (p.jobs.filter fun j => s.unassigned.contains j.id) := by
    rw [List.filter_map]
    exact Problem.mapM_job fun j member => Problem.job_eq_ok distinct (List.mem_filter.mp member).1
  rw [leftoverJobs, Observed.outcome_bind]
  constructor
  · intro h
    obtain ⟨ids, ids_eq, h⟩ := except_bind_eq_ok.mp h
    -- the checks come first, so both were passed
    have exist : checkReferences p s = .ok () ∧ checkUnrouted s = .ok () := by
      simp only [leftoverIds, Observed.outcome_bind, Observed.outcome_ofExcept, Observed.outcome_warn,
        except_bind_eq_ok] at ids_eq
      obtain ⟨_, exist, _, -, _, unrouted, -⟩ := ids_eq
      exact ⟨exist, unrouted⟩
    rw [leftoverIds_outcome distinct exist.1 exist.2] at ids_eq
    obtain rfl := Except.ok.inj ids_eq
    rw [Observed.outcome_ofExcept, found] at h
    exact ⟨exist.1, exist.2, (Except.ok.inj h).symm⟩
  · rintro ⟨exist, unrouted, rfl⟩
    rw [leftoverIds_outcome distinct exist unrouted, except_ok_bind, Observed.outcome_ofExcept, found]

end

/-- The jobs that are found to be left over are listed as such. -/
theorem id_mem_unassigned {p : Problem α} {s : Solution α} {jobs : List (Job α)}
    (found : (leftoverJobs p s).outcome = .ok jobs) {job : Job α} (listed : job ∈ jobs) : job.id ∈ s.unassigned := by
  simp only [leftoverJobs, leftoverIds, Observed.outcome_bind, Observed.outcome_ofExcept, Observed.outcome_warn,
    Observed.outcome_pure, except_bind_eq_ok, Except.ok.injEq] at found
  obtain ⟨ids, ⟨_, -, _, -, _, -, rfl⟩, found⟩ := found
  obtain ⟨id, member, present⟩ := mem_of_mapM_eq_ok found listed
  rw [(Problem.of_job_eq_ok present).2]
  exact List.mem_eraseDups.mp ((List.mergeSort_perm _ _).mem_iff.mp member)

/-! ## One job left over -/

/-- The solution with no other job left over. -/
def Solution.leaving (s : Solution α) (jobId : Text) : Solution α := { s with unassigned := [jobId] }

theorem checkReferences_leaving {p : Problem α} {s : Solution α} (exist : checkReferences p s = .ok ()) {id : Text}
    (left : id ∈ s.unassigned) : checkReferences p (s.leaving id) = .ok () := by
  obtain ⟨_, routes, exist⟩ := except_bind_eq_ok.mp exist
  obtain ⟨_, hints, exist⟩ := except_bind_eq_ok.mp exist
  have listed := except_forM_eq_ok.mp exist id left
  refine except_bind_eq_ok.mpr ⟨(), routes, except_bind_eq_ok.mpr ⟨(), hints, except_forM_eq_ok.mpr ?_⟩⟩
  intro id' member
  rw [List.mem_singleton.mp member]
  exact listed

theorem checkUnrouted_eq_ok {s : Solution α} :
    checkUnrouted s = .ok () ↔ ∀ id ∈ s.unassigned, s.isRouted id = false := by
  rw [checkUnrouted]
  constructor
  · intro h id left
    split at h
    · rename_i free
      have free := List.filter_eq_nil_iff.mp (List.isEmpty_iff.mp free) id (List.mem_eraseDups.mpr left)
      simpa using free
    · exact absurd h (by simp)
  · intro h
    rw [if_pos]
    rw [List.isEmpty_iff, List.filter_eq_nil_iff]
    intro id left
    rw [h id (List.mem_eraseDups.mp left)]
    simp

theorem checkUnrouted_leaving {s : Solution α} (unrouted : checkUnrouted s = .ok ()) {id : Text}
    (left : id ∈ s.unassigned) : checkUnrouted (s.leaving id) = .ok () := by
  rw [checkUnrouted_eq_ok] at unrouted ⊢
  intro id' member
  rw [List.mem_singleton.mp member]
  exact unrouted id left

/-- If the leftover jobs of a solution are found, so is each of them when it is the only one left over. -/
theorem leftoverJobs_leaving {p : Problem α} {s : Solution α} (distinct : (p.jobs.map (·.id)).Nodup)
    {jobs : List (Job α)} (found : (leftoverJobs p s).outcome = .ok jobs) {j : Job α} (member : j ∈ jobs) :
    (leftoverJobs p (s.leaving j.id)).outcome = .ok [j] := by
  obtain ⟨exist, unrouted, rfl⟩ := (leftoverJobs_eq_ok distinct).mp found
  rw [List.mem_filter, List.contains_iff_mem] at member
  rw [leftoverJobs_eq_ok distinct]
  refine ⟨checkReferences_leaving exist member.2, checkUnrouted_leaving unrouted member.2, ?_⟩
  rw [← filter_key_eq_singleton distinct member.1]
  apply List.filter_congr
  intro j' _
  simp [Solution.leaving]

/-! ## Evaluators -/

section

variable [Quantity α] {p : Problem α}

/-- The routes of a fleet are prepared as those of each vehicle are. -/
theorem prepare_congr {q : Problem α} {s t : Solution α} (same : routeOf q t = routeOf p s) (fleet : List (Vehicle α)) :
    (prepare q t fleet).outcome = (prepare p s fleet).outcome := by
  rw [prepare_outcome, prepare_outcome, same]

/-- The evaluator with no other job left over. -/
def Evaluator.leaving (e : Evaluator α) (id : Text) : Evaluator α := { e with solution := e.solution.leaving id }

/-- An evaluator does not depend on what else is left over. -/
theorem Evaluator.build_leaving {s : Solution α} {catalog : Catalog} {settings : DiagnosisSettings α} {e : Evaluator α}
    (built : (Evaluator.build p s catalog settings).outcome = .ok e) (id : Text) :
    (Evaluator.build p (s.leaving id) catalog settings).outcome = .ok (e.leaving id) := by
  obtain ⟨valid, states, prepared, rfl⟩ := Evaluator.build_eq_ok.mp built
  rw [Evaluator.build_eq_ok]
  have same : routeOf p (s.leaving id) = routeOf p s := rfl
  refine ⟨valid, states, ?_, rfl⟩
  rw [prepare_congr same, prepared]

variable [Plane α]

/-- The outcomes for some routes are those that are found for each, under the id of the job. -/
theorem Evaluator.evaluateFrom_eq_of_forall₂ {e e' : Evaluator α} {job job' : Job α} (jobId : job'.id = job.id)
    {states' states : List (RouteState α)}
    (surveys : List.Forall₂ (fun t s => e'.evaluateVehicle job' t = e.evaluateVehicle job s) states' states)
    (late : Nat → Bool) (k : Nat) : e'.evaluateFrom late job' k states' = e.evaluateFrom late job k states := by
  induction surveys generalizing k with
  | nil => rfl
  | cons first _ ih => rw [Evaluator.evaluateFrom, Evaluator.evaluateFrom, first, ih, jobId]

theorem Evaluator.evaluateFrom_congr {e e' : Evaluator α} {job : Job α}
    (surveys : e'.evaluateVehicle job = e.evaluateVehicle job) (late : Nat → Bool) (k : Nat) (states : List (RouteState α)) :
    e'.evaluateFrom late job k states = e.evaluateFrom late job k states :=
  evaluateFrom_eq_of_forall₂ rfl (List.forall₂_same.mpr fun state _ => congrFun surveys state) late k

/-- The evaluator with the same routes for another solution. -/
def Evaluator.onSolution (e : Evaluator α) (t : Solution α) : Evaluator α := { e with solution := t }

/-- Once the routes are there, nothing of a solution counts for a job but its hints. -/
theorem Evaluator.evaluate_onSolution (e : Evaluator α) {t : Solution α} {job : Job α}
    (hints : t.hintsFor job.id = e.solution.hintsFor job.id) (late : Nat → Bool) :
    (e.onSolution t).evaluate late job = e.evaluate late job := by
  have surveys : (e.onSolution t).evaluateVehicle job = e.evaluateVehicle job := rfl
  have merging : (e.onSolution t).mergeHints job.id = e.mergeHints job.id := by
    funext records
    show ((t.hintsFor job.id).filter e.isUsable).foldl _ records = _
    rw [hints, Evaluator.mergeHints]
  have collecting : (e.onSolution t).collect job = e.collect job := by
    funext outcomes
    rw [Evaluator.collect, Evaluator.collect, merging]
    rfl
  rw [Evaluator.evaluate, Evaluator.evaluate, Evaluator.evaluateFrom_congr surveys, collecting]
  rfl

end

/-! ## Reports -/

namespace ReportBuilder

variable [Quantity α] [Plane α]

/-- The builder with no other job left over. -/
def leaving (b : ReportBuilder α) (id : Text) : ReportBuilder α := { b with evaluator := b.evaluator.leaving id }

/-- The entry of a job does not depend on more of a solution than its routes and the hints for the job. -/
theorem explain_onSolution (b : ReportBuilder α) {t : Solution α} {job : Job α}
    (hints : t.hintsFor job.id = b.evaluator.solution.hintsFor job.id) (late : Nat → Bool) :
    ({ b with evaluator := b.evaluator.onSolution t } : ReportBuilder α).explain late job = b.explain late job := by
  have same : ({ b with evaluator := b.evaluator.onSolution t } : ReportBuilder α).resolution late job
      = b.resolution late job := by
    rw [resolution, resolution, Evaluator.evaluate_onSolution b.evaluator hints]
    rfl
  rw [explain, explain, same]

theorem explain_leaving (b : ReportBuilder α) (id : Text) (late : Nat → Bool) (job : Job α) :
    (b.leaving id).explain late job = b.explain late job :=
  have same : (b.evaluator.solution.leaving id).hintsFor job.id = b.evaluator.solution.hintsFor job.id := rfl
  b.explain_onSolution same late

/-- An entry is that of its job. -/
theorem explain_jobId (b : ReportBuilder α) (late : Nat → Bool) (job : Job α) :
    (b.explain late job).2.jobId = job.id := by
  rw [explain]
  split
  · rfl
  · rfl

/-- A report holds the entries of the leftover jobs, one by one, if these are found. -/
theorem build_outcome (b : ReportBuilder α) (s : Solution α) (timer : Option (Timer α)) (plan : b.Plan) :
    (b.build s timer plan).outcome = (leftoverJobs b.evaluator.problem s).outcome.map fun jobs =>
      ⟨jobs.map fun job => (b.explain (isLate timer job.id) job).2⟩ := by
  simp only [build, Observed.outcome_bind, Observed.outcome_warn, Observed.outcome_pure, except_ok_bind,
    explainAll_entries]
  cases (leftoverJobs b.evaluator.problem s).outcome with
  | error fault => rfl
  | ok jobs => rfl

theorem build_eq_ok {b : ReportBuilder α} {s : Solution α} {timer : Option (Timer α)} {plan : b.Plan}
    {report : Report α} :
    (b.build s timer plan).outcome = .ok report ↔
      ∃ jobs, (leftoverJobs b.evaluator.problem s).outcome = .ok jobs
        ∧ report = ⟨jobs.map fun job => (b.explain (isLate timer job.id) job).2⟩ := by
  rw [build_outcome, except_map_eq_ok]
  simp only [eq_comm (a := report)]

/-- For a problem with distinct job ids, and an evaluator built on a solution: whenever a report on that solution is
made, its entries are for the leftover jobs in the order of the problem, each once; each entry is the one that is made
when its job is the only one left over, by the same evaluator and by one built on the solution with that job left over;
and the report is the same for any number of workers and any order in which they go about the jobs. -/
theorem build_complete {p : Problem α} {s : Solution α} {catalog : Catalog} {settings : DiagnosisSettings α}
    {e : Evaluator α} (distinct : (p.jobs.map (·.id)).Nodup)
    (built : (Evaluator.build p s catalog settings).outcome = .ok e) {tieBreak : TieBreak} {maxWorkers : Int}
    {plan : Plan ⟨e, tieBreak, maxWorkers⟩} {report : Report α}
    (made : (build ⟨e, tieBreak, maxWorkers⟩ s none plan).outcome = .ok report) :
    report.jobIds = (p.jobs.map (·.id)).filter s.unassigned.contains
      ∧ (∀ entry ∈ report.entries, ∀ (maxWorkers' : Int),
        (∀ plan', (build ⟨e, tieBreak, maxWorkers'⟩ (s.leaving entry.jobId) none plan').outcome = .ok ⟨[entry]⟩)
        ∧ ∃ e', (Evaluator.build p (s.leaving entry.jobId) catalog settings).outcome = .ok e'
          ∧ ∀ plan', (build ⟨e', tieBreak, maxWorkers'⟩ (s.leaving entry.jobId) none plan').outcome = .ok ⟨[entry]⟩)
      ∧ ∀ (maxWorkers' : Int) plan', (build ⟨e, tieBreak, maxWorkers'⟩ s none plan').outcome = .ok report := by
  obtain ⟨-, states, -, rfl⟩ := Evaluator.build_eq_ok.mp built
  obtain ⟨jobs, found, rfl⟩ := build_eq_ok.mp made
  refine ⟨?_, ?_, fun maxWorkers' plan' => build_eq_ok.mpr ⟨jobs, found, rfl⟩⟩
  · obtain ⟨-, -, rfl⟩ := (leftoverJobs_eq_ok distinct).mp found
    rw [Report.jobIds, List.map_map, List.filter_map]
    apply List.map_congr_left
    intro j _
    exact explain_jobId _ _ j
  · intro entry member maxWorkers'
    obtain ⟨j, listed, rfl⟩ := List.mem_map.mp member
    rw [explain_jobId]
    -- the job is found again, and neither evaluator sees a difference
    have alone := leftoverJobs_leaving distinct found listed
    refine ⟨fun plan' => build_eq_ok.mpr ⟨[j], alone, rfl⟩, _, Evaluator.build_leaving built j.id, fun plan' => ?_⟩
    rw [build_eq_ok]
    refine ⟨[j], alone, ?_⟩
    rw [List.map_singleton]
    congr 2
    exact (congrArg Prod.snd (explain_leaving ⟨⟨p, s, catalog, settings, states⟩, tieBreak, maxWorkers'⟩ j.id _ j)).symm

end ReportBuilder

theorem routeOf_shuttle : routeOf shuttlePlan shuttleSolution RouteState.shuttle = .ok RouteState.shuttleRoute := by
  have current : currentRoute shuttlePlan shuttleSolution RouteState.shuttle = .ok RouteState.shuttleRoute :=
    RouteState.build_shuttleRoute
  exact routeOf_eq_ok.mpr ⟨current, fun _ => ⟨rfl, rfl⟩⟩

/-- The evaluator of the shuttle is built on its plan. -/
theorem build_shuttleEvaluator :
    (Evaluator.build shuttlePlan shuttleSolution (.without []) {}).outcome = .ok shuttleEvaluator := by
  rw [Evaluator.build_eq_ok]
  exact ⟨by decide +kernel, [RouteState.shuttleRoute], prepare_eq_ok.mpr (.cons routeOf_shuttle .nil), rfl⟩

theorem build_complete_shuttle :
    ∃ report, (ReportBuilder.build ⟨shuttleEvaluator, .nearestMiss, 2⟩ shuttleSolution none
        (ReportBuilder.inTurn _)).outcome = .ok report
      ∧ report.jobIds = ["b", "c"]
      ∧ ∀ plan, (ReportBuilder.build ⟨shuttleEvaluator, .nearestMiss, 2⟩ shuttleSolution none plan).outcome
        = .ok report := by
  have distinct : (shuttlePlan.jobs.map (·.id)).Nodup := by decide
  have found : (leftoverJobs shuttlePlan shuttleSolution).outcome
      = .ok [RouteState.parcel "b", RouteState.parcel "c"] := by
    rw [leftoverJobs_eq_ok distinct]
    decide +kernel
  have made : (ReportBuilder.build ⟨shuttleEvaluator, .nearestMiss, 2⟩ shuttleSolution none
      (ReportBuilder.inTurn _)).outcome = .ok _ := ReportBuilder.build_eq_ok.mpr ⟨_, found, rfl⟩
  obtain ⟨ids, -, same⟩ := ReportBuilder.build_complete distinct build_shuttleEvaluator made
  exact ⟨_, made, ids.trans (by decide), same 2⟩

end Leftover
