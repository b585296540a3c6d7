/-
# The order of the fleet

The outcomes for the vehicles of a fleet are found one after the other, and records of one reason are told apart by the
place of their vehicle in the fleet. But which reason is shown for a job depends on which outcomes there are only, and
so does its severity if the nearest miss is shown.

* `Evaluator.Alike` : evaluators that ask and collect in the same way
* `resolve_nearestMiss` : the nearest miss has the least severity among the records of its reason
* `Evaluator.evaluate_perm` : the outcomes for the routes of a fleet in any order
* `ReportBuilder.explain_fleet` : the entry of a job, with the fleet in any order
-/
import Leftover.Proofs.Deadline
import Leftover.Proofs.Hints
import Leftover.Proofs.RelistedChecks

namespace Leftover

/-! ## Evaluators of one kind -/

/-- Two evaluators go by the same settings and hints, make the same checks, and keep the same relations, which may be
listed in another order. Their routes may differ. -/
structure Evaluator.Alike {α : Type} [Quantity α] (e e' : Evaluator α) : Prop where
  relations : e.problem.relations.Perm e'.problem.relations
  hints : e.solution.hints = e'.solution.hints
  catalog : e.catalog = e'.catalog
  settings : e.settings = e'.settings

namespace Evaluator.Alike

variable {α : Type} [Quantity α] {e e' : Evaluator α} (alike : e'.Alike e)

include alike

theorem symm : e.Alike e' := ⟨alike.relations.symm, alike.hints.symm, alike.catalog.symm, alike.settings.symm⟩

/-- They find the same for a job and a route. -/
theorem evaluateVehicle_eq [Plane α] : e'.evaluateVehicle = e.evaluateVehicle := by
  funext job state
  have same : (e'.attempt job state).SameAnswers (e.attempt job state) :=
    { check_eq := fun k c => ((e.attempt job state).insertion k).check_relations alike.relations c
      catalog_eq := alike.catalog
      exhaustive_eq := congrArg (·.exhaustive) alike.settings
      jobId_eq := rfl
      vehicleId_eq := rfl
      size_eq := rfl }
  exact same.survey_eq

/-- The same hints count. -/
theorem isUsable_eq : e'.isUsable = e.isUsable := by
  funext h
  rw [isUsable, alike.settings, isUsable]

theorem hintsFor_eq (jobId : Text) : e'.solution.hintsFor jobId = e.solution.hintsFor jobId := by
  rw [Solution.hintsFor, alike.hints, Solution.hintsFor]

theorem usableHints_eq (jobId : Text) : e'.usableHints jobId = e.usableHints jobId := by
  rw [usableHints, alike.settings, alike.hintsFor_eq, alike.isUsable_eq, usableHints]

/-- They collect outcomes in the same way, for a fleet in the same order. -/
theorem collect_eq (fleet : e'.problem.fleetIds = e.problem.fleetIds) {job job' : Job α} (jobId : job'.id = job.id) :
    e'.collect job' = e.collect job := by
  have merging : e'.mergeHints = e.mergeHints := by
    funext id records
    rw [mergeHints, alike.hintsFor_eq, alike.isUsable_eq, mergeHints]
  funext outs
  rw [collect, alike.settings, merging, fleet, jobId, collect]

end Evaluator.Alike

/-! ## The nearest miss -/

section

variable {α : Type} [Quantity α]

/-- The severity is that of a record of a reason, and no record of that reason is milder. -/
def IsLeastSeverity (records : List (Record α)) (code : Reason) (severity : Option α) : Prop :=
  ∃ r ∈ records, r.code = code ∧ r.evidence.severity = severity ∧ ∀ s ∈ records, s.code = code → ¬s.IsMilder r

variable [OrderedQuantity α]

/-- The least severity of a reason is the same in any order of the records. -/
theorem IsLeastSeverity.sameSeverity {records records' : List (Record α)} (perm : records.Perm records')
    (defined : ∀ r ∈ records, r.IsDefined) {code : Reason} {severity severity' : Option α}
    (least : IsLeastSeverity records code severity) (least' : IsLeastSeverity records' code severity') :
    SameSeverity severity severity' := by
  obtain ⟨r, hr, code_r, rfl, below⟩ := least
  obtain ⟨r', hr', code_r', rfl, below'⟩ := least'
  have hr' := perm.mem_iff.mpr hr'
  exact AsSevere.sameSeverity (defined r hr) (defined r' hr') ⟨below' r (perm.mem_iff.mp hr) code_r, below r' hr' code_r'⟩

/-- Merged records have the least severity of a reason among all records that were merged. -/
theorem Merges.isLeastSeverity {own news merged : List (Record α)} (merges : Merges own news merged)
    (defined : ∀ r ∈ own ++ news, r.IsDefined) {code : Reason} {severity : Option α}
    (least : IsLeastSeverity merged code severity) : IsLeastSeverity (own ++ news) code severity := by
  obtain ⟨r, hr, code_r, measured, below⟩ := least
  have given : ∀ t ∈ merged, t ∈ own ++ news := fun t ht => List.mem_append.mpr (merges.given t ht)
  refine ⟨r, given r hr, code_r, measured, fun s hs code_s => ?_⟩
  -- no record is milder than the merged one that is about the same, nor is that one milder than this one
  have present : s.key ∈ merged.map Record.key := by
    rw [merges.mem_keys, ← List.mem_append, ← List.map_append]
    exact List.mem_map_of_mem hs
  obtain ⟨t, ht, about⟩ := List.mem_map.mp present
  have code_t : t.code = code := (Record.key_eq_iff.mp about).2.trans code_s
  exact not_milder_trans (defined r (given r hr)) (defined t (given t ht)) (defined s hs) (below t ht code_t)
    (merges.least t ht s hs about.symm)

/-- The nearest miss among records has the least severity. -/
theorem firstLeast_nearestMiss (fleet : List Text) {first : Record α} {rest : List (Record α)}
    (defined : ∀ r ∈ first :: rest, r.IsDefined) {r : Record α} (member : r ∈ first :: rest) :
    ¬r.IsMilder (firstLeast (compareCandidate .nearestMiss fleet) first rest) := by
  refine firstLeast_le (R := fun a b => ¬b.IsMilder a) ?_ ?_ ?_ ?_ member
  · intro y hy best hbest before milder
    rcases Ordering.then_eq_lt.mp before with before | ⟨same, -⟩
    · exact (compareSeverity_eq_lt.mp before).asymm milder
    · exact ((compareSeverity_eq_eq (defined y hy) (defined best hbest)).mp same).2 milder
  · exact fun y _ best _ after milder => after (Ordering.then_eq_lt.mpr (Or.inl (compareSeverity_eq_lt.mpr milder)))
  · exact fun a _ => a.not_isMilder_self
  · exact fun a ha b hb c hc ab bc => not_milder_trans (defined a ha) (defined b hb) (defined c hc) ab bc

/-- The severity that is shown with the nearest miss is the least one of its reason. -/
theorem resolve_nearestMiss {e : JobEvaluation α} (violated : ∀ r ∈ e.records, r.evidence.isSatisfied = false)
    (defined : ∀ r ∈ e.records, r.IsDefined) {fleet : List Text} {shown : Resolution α}
    (resolved : resolve .nearestMiss fleet e = .ok shown) :
    (e.records = [] ∧ shown.severity = none) ∨ IsLeastSeverity e.records shown.code shown.severity := by
  cases found : e.records with
  | nil =>
    rw [resolve_of_nil found] at resolved
    obtain rfl := Except.ok.inj resolved
    exact Or.inl ⟨rfl, rfl⟩
  | cons first rest =>
    have kept : e.records.filter (fun r => !r.evidence.isSatisfied) = first :: rest := by
      rw [List.filter_eq_self.mpr fun record member => by simp [violated record member], found]
    rw [resolve, kept] at resolved
    simp only at resolved
    split at resolved
    · exact absurd resolved (by simp)
    · rename_i r others candidates
      obtain rfl := Except.ok.inj resolved
      have candidate : ∀ s, s ∈ r :: others ↔ s ∈ first :: rest ∧ s.code = winningCode e first rest := by
        intro s
        rw [← candidates, List.mem_filter, decide_eq_true_iff]
      have chosen := (candidate _).mp (firstLeast_mem (compareCandidate .nearestMiss fleet) r others)
      refine Or.inr ⟨_, chosen.1, chosen.2, rfl, fun s hs code => ?_⟩
      refine firstLeast_nearestMiss fleet (fun s hs => defined s ?_) ((candidate s).mpr ⟨hs, code⟩)
      exact found ▸ ((candidate s).mp hs).1

end

/-! ## Outcomes for a fleet in any order -/

namespace Evaluator

section

variable {α : Type} [Quantity α] {e e' : Evaluator α} {job : Job α}

/-- A job is evaluated with the routes of the fleet in another order if it is in the order of the routes, and the
outcomes are the same. -/
theorem evaluate_perm [Plane α] (alike : e'.Alike e) (perm : e'.states.Perm e.states)
    {evaluation : JobEvaluation α} (evaluated : (e.evaluate (fun _ => false) job).outcome = .ok evaluation) :
    ∃ outs, outs.Perm (e.outcomes job) ∧ (e'.evaluate (fun _ => false) job).outcome = .ok (e'.collect job outs) := by
  have each := evaluateFrom_eq_ok_iff.mp (evaluate_eq_ok.mp evaluated).1
  obtain ⟨outs, each', perm_outs⟩ := List.perm_comp_forall₂ perm each
  rw [← alike.evaluateVehicle_eq] at each'
  refine ⟨outs, perm_outs, ?_⟩
  rw [evaluate, Observed.outcome_bind, evaluateFrom_eq_ok_iff.mpr each']
  rfl

/-- Outcomes in another order, with the same hints, show the same reason. -/
theorem Shows.code_eq {jobId : Text} {outcomes outcomes' : List (VehicleOutcome α)} {shown shown' : Resolution α}
    (shows : e.Shows jobId outcomes shown) (shows' : e'.Shows jobId outcomes' shown') (same : outcomes'.Perm outcomes)
    (hints : e'.usableHints jobId = e.usableHints jobId) : shown.code = shown'.code := by
  have obstacles : (e'.obstacles jobId outcomes').Perm (e.obstacles jobId outcomes) := by
    rw [Evaluator.obstacles, Evaluator.obstacles, hints]
    exact ((same.flatMap_right _).map _).append_right _
  refine Reason.eq_of_rank_eq (Nat.le_antisymm ?_ ?_)
  · exact shows.rank_le_of_subset shows' same fun c => obstacles.mem_iff.mp
  · exact shows'.rank_le_of_subset shows same.symm fun c => obstacles.mem_iff.mpr

end

/-- Outcomes in another order, with the same hints, show the same severity with the nearest miss, if the same reason. -/
theorem sameSeverity_of_perm {α : Type} [Quantity α] [Scale α] [Plane α] {e e' : Evaluator α} {job : Job α}
    {outcomes outcomes' : List (VehicleOutcome α)} (agree : ∀ out ∈ outcomes, ∃ a : Attempt α, a.Agrees out)
    (vehicles : (outcomes.map (·.vehicleId)).Nodup) (defined : ∀ h ∈ e.usableHints job.id, IsComparable h.severity)
    (same : outcomes'.Perm outcomes) (hints : e'.usableHints job.id = e.usableHints job.id) {fleet fleet' : List Text}
    {shown shown' : Resolution α} (resolved : resolve .nearestMiss fleet (e.collect job outcomes) = .ok shown)
    (resolved' : resolve .nearestMiss fleet' (e'.collect job outcomes') = .ok shown') (code : shown.code = shown'.code) :
    SameSeverity shown.severity shown'.severity := by
  have agree' : ∀ out ∈ outcomes', ∃ a : Attempt α, a.Agrees out := fun out member => agree out (same.mem_iff.mp member)
  have merges : Merges _ _ (e.collect job outcomes).records := merges_collect agree vehicles defined
  have merges' : Merges _ _ (e'.collect job outcomes').records :=
    merges_collect agree' ((same.map _).nodup_iff.mpr vehicles) (hints ▸ defined)
  rw [hints] at merges'
  have all_defined : ∀ r ∈ outcomes.flatMap (·.records) ++ (e.usableHints job.id).map recordOf, r.IsDefined := by
    refine List.forall_mem_append.mpr ⟨fun r => isDefined_of_mem agree, fun r told => ?_⟩
    obtain ⟨h, usable, rfl⟩ := List.mem_map.mp told
    exact defined h usable
  have everywhere : (outcomes.flatMap (·.records) ++ (e.usableHints job.id).map recordOf).Perm
      (outcomes'.flatMap (·.records) ++ (e.usableHints job.id).map recordOf) := (same.symm.flatMap_right _).append_right _
  have all_defined' := fun r hr => all_defined r (everywhere.mem_iff.mpr hr)
  have found := resolve_nearestMiss (fun r => violated_collect agree)
    (fun r hr => all_defined r (List.mem_append.mpr (merges.given r hr))) resolved
  have found' := resolve_nearestMiss (fun r => violated_collect agree')
    (fun r hr => all_defined' r (List.mem_append.mpr (merges'.given r hr))) resolved'
  -- there are records on both sides, or on neither
  have bare : (e.collect job outcomes).records = [] ↔ (e'.collect job outcomes').records = [] := by
    rw [merges.eq_nil_iff, merges'.eq_nil_iff, ← List.length_eq_zero_iff, ← List.length_eq_zero_iff, everywhere.length_eq]
  rcases found with ⟨none, unmeasured⟩ | least
  · rcases found' with ⟨-, unmeasured'⟩ | ⟨r, hr, -⟩
    · rw [unmeasured, unmeasured']
      exact .none
    · exact absurd hr (by simp [bare.mp none])
  · rcases found' with ⟨none', -⟩ | least'
    · obtain ⟨r, hr, -⟩ := least
      exact absurd hr (by simp [bare.mpr none'])
    · rw [← code] at least'
      exact (merges.isLeastSeverity all_defined least).sameSeverity everywhere all_defined
        (merges'.isLeastSeverity all_defined' least')

end Evaluator

/-! ## Entries -/

/-- Two entries are of the same job and show the same reason with its text, and the same severity if the nearest miss
is shown. -/
structure Entry.SameReason {α : Type} [Quantity α] (tieBreak : TieBreak) (entry entry' : Entry α) : Prop where
  jobId : entry.jobId = entry'.jobId
  code : entry.code = entry'.code
  description : entry.description = entry'.description
  severity : tieBreak = .nearestMiss → SameSeverity entry.severity entry'.severity

namespace ReportBuilder

/-- The entry of a job shows the same reason with the routes of the fleet in another order. -/
theorem explain_fleet {α : Type} [Quantity α] [Scale α] [Plane α] {e e' : Evaluator α} {job : Job α} (alike : e'.Alike e) (perm : e'.states.Perm e.states)
    (vehicles : ((e.outcomes job).map (·.vehicleId)).Nodup)
    (defined : ∀ h ∈ e.usableHints job.id, IsComparable h.severity) :
    Entry.SameReason e.settings.tieBreak (e.builder.explain (fun _ => false) job).2
      (e'.builder.explain (fun _ => false) job).2 := by
  have hints : e'.usableHints job.id = e.usableHints job.id := alike.usableHints_eq job.id
  cases evaluated : (e.evaluate (fun _ => false) job).outcome with
  | error fault =>
    -- if a vehicle stops the evaluation in one order, some vehicle does in the other one
    cases evaluated' : (e'.evaluate (fun _ => false) job).outcome with
    | error fault' =>
      rw [explain_of_error (b := e.builder) evaluated, explain_of_error (b := e'.builder) evaluated']
      exact ⟨rfl, rfl, rfl, fun _ => .none⟩
    | ok evaluation =>
      obtain ⟨outs, -, found⟩ := Evaluator.evaluate_perm alike.symm perm.symm evaluated'
      exact absurd (found.symm.trans evaluated) (by simp)
  | ok evaluation =>
    obtain ⟨outs, same, evaluated'⟩ := Evaluator.evaluate_perm alike perm evaluated
    obtain ⟨-, rfl⟩ := Evaluator.evaluate_eq_ok.mp evaluated
    have agree : ∀ out ∈ e.outcomes job, ∃ a : Attempt α, a.Agrees out := fun out => Evaluator.agrees_of_mem_outcomes
    have agree' : ∀ out ∈ outs, ∃ a : Attempt α, a.Agrees out := fun out member => agree out (same.mem_iff.mp member)
    obtain ⟨shown, resolved, shows⟩ := Evaluator.resolve_collect e job agree e.settings.tieBreak e.problem.fleetIds
    obtain ⟨shown', resolved', shows'⟩ := Evaluator.resolve_collect e' job agree' e'.settings.tieBreak e'.problem.fleetIds
    have code : shown.code = shown'.code := shows.code_eq shows' same hints
    rw [explain_of_resolved (b := e.builder) evaluated resolved, explain_of_resolved (b := e'.builder) evaluated' resolved']
    refine ⟨rfl, code, ?_, fun nearest => ?_⟩
    · show shown.description = shown'.description
      rw [shows.description_eq, shows'.description_eq, code]
    · rw [nearest] at resolved
      rw [alike.settings, nearest] at resolved'
      exact Evaluator.sameSeverity_of_perm agree vehicles defined same hints resolved resolved' code

end ReportBuilder

end Leftover
