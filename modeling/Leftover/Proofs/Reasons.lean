/-
# The reason of a job

Which reason is shown for a job, told by the outcomes for the vehicles and by the hints that count. Wherever areas can
be judged a reason is found for every job: an evaluation is not stopped, and there is always a record to choose.

* `Evaluator.evaluate_outcome` : the evaluation of a job collects the outcomes for all vehicles
* `Evaluator.mem_codes_collect` : the reasons on record are the obstacles, of outcomes and of hints
* `Evaluator.resolve_collect` : the reason that is shown for collected outcomes
* `Evaluator.reason_of_outcomes` : the reason of a job, from the problem on
-/
import Leftover.Diagnosis.Resolution
import Leftover.Proofs.Leftovers

namespace Leftover

variable {α : Type} [Quantity α]

/-! ## Outcomes that stand in the way -/

namespace Attempt

variable [Plane α] {a : Attempt α} {out : VehicleOutcome α}

/-- Records are of violated constraints, and of none that stands for no reason. -/
theorem Agrees.violated (agrees : a.Agrees out) {record : Record α} (member : record ∈ out.records) :
    record.evidence.isSatisfied = false ∧ record.code ≠ .unexplained := by
  cases reached : out.unreachable with
  | true =>
    rw [agrees.of_unreachable reached, List.mem_singleton] at member
    rw [member]
    exact ⟨rfl, by simp⟩
  | false =>
    obtain ⟨k, -, found⟩ := agrees.of_reachable reached
    obtain ⟨r, severity, violated, rfl⟩ := (found.mem_iff record).mp member
    refine ⟨rfl, ?_⟩
    rintro rfl
    exact a.catalog.unexplained_notMem (List.mem_filter.mp violated.1).1

/-- Only a vehicle that could take the job leaves no record. -/
theorem Agrees.records_eq_nil (agrees : a.Agrees out) : out.records = [] ↔ out.feasible = true := by
  refine ⟨fun none => ?_, agrees.of_feasible⟩
  cases reached : out.unreachable with
  | true =>
    rw [agrees.of_unreachable reached] at none
    exact absurd none (by simp)
  | false =>
    obtain ⟨k, isOpen, found⟩ := agrees.of_reachable reached
    rw [agrees.feasible_iff]
    refine ⟨k, isOpen, fun r severity violated => ?_⟩
    have member := (found.mem_iff _).mpr ⟨r, severity, violated, rfl⟩
    rw [none] at member
    exact absurd member (by simp)

end Attempt

/-! ## The record that is shown -/

/-- The reason is one of some, and none of them takes precedence over it. -/
def Reason.IsFirstOf (r : Reason) (reasons : List Reason) : Prop := r ∈ reasons ∧ ∀ s ∈ reasons, r.rank ≤ s.rank

omit [Quantity α] in
/-- If not all vehicles are out of reach, the winning reason is the first of those on record. -/
theorem winningCode_isFirstOf {e : JobEvaluation α} (reached : e.allUnreachable = false) (first : Record α)
    (rest : List (Record α)) : (winningCode e first rest).IsFirstOf ((first :: rest).map (·.code)) := by
  rw [winningCode, if_neg (by simp [reached])]
  refine ⟨List.mem_map_of_mem (firstLeast_mem _ first rest), ?_⟩
  intro s member
  obtain ⟨record, listed, rfl⟩ := List.mem_map.mp member
  apply firstLeast_key_le (fun record : Record α => record.code.rank)
  · intro y best before
    exact Nat.le_of_lt (Nat.compare_eq_lt.mp before)
  · intro y best smaller
    exact Nat.compare_eq_lt.mpr smaller
  · exact listed

/-- Records of violated constraints are resolved to the winning reason, once it is that of one of them. -/
theorem resolve_of_violated {e : JobEvaluation α} (violated : ∀ record ∈ e.records, record.evidence.isSatisfied = false)
    {first : Record α} {rest : List (Record α)} (found : e.records = first :: rest)
    (present : winningCode e first rest ∈ e.records.map (·.code)) (policy : TieBreak) (fleet : List Text) :
    ∃ shown, resolve policy fleet e = .ok shown ∧ shown.code = winningCode e first rest
      ∧ shown.description = shown.code.description := by
  have kept : e.records.filter (fun r => !r.evidence.isSatisfied) = first :: rest := by
    rw [List.filter_eq_self.mpr fun record member => by simp [violated record member], found]
  obtain ⟨record, member, same⟩ := List.mem_map.mp present
  have candidate : record ∈ (first :: rest).filter fun r => decide (r.code = winningCode e first rest) := by
    rw [List.mem_filter]
    exact ⟨found ▸ member, decide_eq_true same⟩
  obtain ⟨r, others, candidates⟩ := List.exists_cons_of_ne_nil (List.ne_nil_of_mem candidate)
  rw [resolve, kept]
  simp only [candidates]
  exact ⟨_, rfl, rfl, rfl⟩

/-- Without records no reason is found. -/
theorem resolve_of_nil {e : JobEvaluation α} (none : e.records = []) (policy : TieBreak) (fleet : List Text) :
    resolve policy fleet e = .ok .unknown := by
  rw [resolve, none]
  rfl

namespace Evaluator

/-! ## Collecting outcomes -/

section

variable [Plane α]

/-- The outcomes for a job, vehicle by vehicle. -/
def outcomes (e : Evaluator α) (job : Job α) : List (VehicleOutcome α) :=
  e.states.map fun state => (e.attempt job state).outcomeBy (Trial.orderOf e.settings.exhaustive)

/-- Every outcome agrees with the plain way of some attempt. -/
theorem agrees_of_mem_outcomes {e : Evaluator α} {job : Job α} {out : VehicleOutcome α}
    (member : out ∈ e.outcomes job) : ∃ a : Attempt α, a.Agrees out := by
  obtain ⟨state, -, rfl⟩ := List.mem_map.mp member
  exact ⟨_, (e.attempt job state).agrees_outcomeBy _⟩

/-- The vehicles of a job are all evaluated if each of them is. -/
theorem evaluateFrom_eq_ok_iff {e : Evaluator α} {job : Job α} {k : Nat} {states : List (RouteState α)} {outs : List (VehicleOutcome α)} :
    (e.evaluateFrom (fun _ => false) job k states).outcome = .ok outs
      ↔ List.Forall₂ (fun state out => (e.evaluateVehicle job state).outcome = .ok out) states outs := by
  induction states generalizing k outs with
  | nil =>
    rw [List.forall₂_nil_left_iff, evaluateFrom, Observed.outcome_pure, Except.ok.injEq, eq_comm]
  | cons state rest ih =>
    simp only [evaluateFrom, Bool.false_eq_true, if_false, Observed.outcome_bind, Observed.outcome_pure,
      except_bind_eq_ok, List.forall₂_cons_left_iff, ih, Except.ok.injEq]
    constructor
    · rintro ⟨out, first, others, more, rfl⟩
      exact ⟨out, others, first, more, rfl⟩
    · rintro ⟨out, others, first, more, rfl⟩
      exact ⟨out, first, others, more, rfl⟩

/-- Where areas can be judged, every route has its outcome. -/
theorem evaluateFrom_outcome {e : Evaluator α} {job : Job α} {states : List (RouteState α)}
    (judged : ∀ state ∈ states, (e.attempt job state).JudgesAreas) (k : Nat) :
    (e.evaluateFrom (fun _ => false) job k states).outcome
      = .ok (states.map fun state => (e.attempt job state).outcomeBy (Trial.orderOf e.settings.exhaustive)) := by
  rw [evaluateFrom_eq_ok_iff, List.forall₂_map_right_iff, List.forall₂_same]
  exact fun state listed => Attempt.survey_outcome (judged state listed)

/-- The evaluation of a job collects the outcomes for all vehicles. -/
theorem evaluate_outcome {e : Evaluator α} {job : Job α}
    (judged : ∀ state ∈ e.states, (e.attempt job state).JudgesAreas) :
    (e.evaluate (fun _ => false) job).outcome = .ok (e.collect job (e.outcomes job)) := by
  simp [evaluate, evaluateFrom_outcome judged, outcomes]

end

/-! ## Hints among records -/

theorem mem_codes_putRecord {new : Record α} {records : List (Record α)} {c : Reason} :
    c ∈ (putRecord new records).map (·.code) ↔ c = new.code ∨ c ∈ records.map (·.code) := by
  induction records with
  | nil => simp [putRecord]
  | cons r rest ih =>
    rw [putRecord]
    split
    · rename_i same
      -- the record for the same vehicle and reason keeps its reason, whichever of the two is kept
      have code : ∀ winner, winner = new ∨ winner = r →
          ((winner :: rest).map (·.code)) = ((r :: rest).map (·.code)) := by
        rintro winner (rfl | rfl)
        · rw [List.map_cons, List.map_cons, same.2]
        · rfl
      rw [apply_ite (List.map _), code new (Or.inl rfl), code r (Or.inr rfl), ite_self, List.map_cons, List.mem_cons,
        same.2]
      tauto
    · rw [List.map_cons, List.mem_cons, ih, List.map_cons, List.mem_cons]
      exact or_left_comm

theorem mem_putRecord {new record : Record α} {records : List (Record α)} (member : record ∈ putRecord new records) :
    record = new ∨ record ∈ records := by
  induction records with
  | nil => exact Or.inl (List.mem_singleton.mp member)
  | cons r rest ih =>
    rw [putRecord] at member
    split at member
    · split at member
      · exact (List.mem_cons.mp member).imp_right fun h => List.mem_cons_of_mem _ h
      · exact Or.inr member
    · rcases List.mem_cons.mp member with rfl | member
      · exact Or.inr (by simp)
      · exact (ih member).imp_right fun h => List.mem_cons_of_mem _ h

theorem mem_codes_putAll {hints : List (Hint α)} {records : List (Record α)} {c : Reason} :
    c ∈ (hints.foldl (fun done h => putRecord (recordOf h) done) records).map (·.code)
      ↔ c ∈ records.map (·.code) ∨ c ∈ hints.map (·.code) := by
  induction hints generalizing records with
  | nil => simp
  | cons h rest ih =>
    rw [List.foldl_cons, ih, mem_codes_putRecord, List.map_cons, List.mem_cons]
    show (c = h.code ∨ _) ∨ _ ↔ _
    tauto

theorem violated_putAll {hints : List (Hint α)} {records : List (Record α)}
    (violated : ∀ record ∈ records, record.evidence.isSatisfied = false) :
    ∀ record ∈ hints.foldl (fun done h => putRecord (recordOf h) done) records,
      record.evidence.isSatisfied = false := by
  induction hints generalizing records with
  | nil => exact violated
  | cons h rest ih =>
    apply ih
    intro record member
    rcases mem_putRecord member with rfl | member
    · rfl
    · exact violated record member

/-! ## Obstacles -/

/-- The hints for a job that count: those about a constraint that is judged, if hints are used at all. -/
def usableHints (e : Evaluator α) (jobId : Text) : List (Hint α) :=
  if e.settings.useHints then (e.solution.hintsFor jobId).filter e.isUsable else []

/-- The reasons that stand in the way of a job, of the outcomes for vehicles and of the hints that count. -/
def obstacles (e : Evaluator α) (jobId : Text) (outcomes : List (VehicleOutcome α)) : List Reason :=
  (outcomes.flatMap (·.records)).map (·.code) ++ (e.usableHints jobId).map (·.code)

/-- The records that are collected, up to their order. -/
theorem records_collect_perm (e : Evaluator α) (job : Job α) (outcomes : List (VehicleOutcome α)) :
    (e.collect job outcomes).records.Perm
      ((e.usableHints job.id).foldl (fun done h => putRecord (recordOf h) done) (outcomes.flatMap (·.records))) := by
  refine (sortedBy_perm _ _).trans (.of_eq ?_)
  unfold usableHints
  split
  · rfl
  · rfl

/-- The reasons on record are those that stand in the way. -/
theorem mem_codes_collect {e : Evaluator α} {job : Job α} {outcomes : List (VehicleOutcome α)} {c : Reason} :
    c ∈ (e.collect job outcomes).records.map (·.code) ↔ c ∈ e.obstacles job.id outcomes := by
  rw [((e.records_collect_perm job outcomes).map _).mem_iff, mem_codes_putAll, obstacles, List.mem_append]

theorem allUnreachable_collect {e : Evaluator α} {job : Job α} {outcomes : List (VehicleOutcome α)} :
    (e.collect job outcomes).allUnreachable = true ↔ outcomes ≠ [] ∧ ∀ out ∈ outcomes, out.unreachable = true := by
  simp only [JobEvaluation.allUnreachable, collect, List.length_map, Bool.and_eq_true, Bool.not_eq_true',
    List.isEmpty_eq_false_iff, ne_eq, List.map_eq_nil_iff, decide_eq_true_eq, List.length_filter_eq_length_iff]

section

variable [Plane α] {e : Evaluator α} {jobId : Text} {outcomes : List (VehicleOutcome α)}
  (agree : ∀ out ∈ outcomes, ∃ a : Attempt α, a.Agrees out)

include agree

/-- Nothing stands in the way of a job just when every vehicle could take it and no hint counts. -/
theorem obstacles_eq_nil :
    e.obstacles jobId outcomes = [] ↔ (∀ out ∈ outcomes, out.feasible = true) ∧ e.usableHints jobId = [] := by
  rw [obstacles, List.append_eq_nil_iff, List.map_eq_nil_iff, List.map_eq_nil_iff, List.flatMap_eq_nil_iff]
  refine and_congr_left fun _ => forall₂_congr fun out member => ?_
  obtain ⟨a, agrees⟩ := agree out member
  exact agrees.records_eq_nil

/-- What stands in the way is never the reason that stands for none. -/
theorem unexplained_notMem_obstacles : .unexplained ∉ e.obstacles jobId outcomes := by
  intro member
  rcases List.mem_append.mp member with member | member
  · obtain ⟨record, found, code⟩ := List.mem_map.mp member
    obtain ⟨out, listed, found⟩ := List.mem_flatMap.mp found
    obtain ⟨a, agrees⟩ := agree out listed
    exact (agrees.violated found).2 code
  · obtain ⟨hint, found, code⟩ := List.mem_map.mp member
    unfold usableHints at found
    split at found
    · have usable := (List.mem_filter.mp found).2
      rw [isUsable, code] at usable
      exact absurd usable (by simp)
    · exact absurd found (by simp)

/-- If no vehicle reaches the job, that stands in its way: hints do not take the reason of a record away. -/
theorem reachable_mem_obstacles (some_vehicle : outcomes ≠ []) (all : ∀ out ∈ outcomes, out.unreachable = true) :
    .reachable ∈ e.obstacles jobId outcomes := by
  obtain ⟨out, others, found⟩ := List.exists_cons_of_ne_nil some_vehicle
  have member : out ∈ outcomes := by simp [found]
  obtain ⟨a, agrees⟩ := agree out member
  have recorded : ⟨.reachable, .violated none, some a.state.vehicle.id, none⟩ ∈ outcomes.flatMap (·.records) := by
    rw [List.mem_flatMap]
    exact ⟨out, member, by simp [agrees.of_unreachable (all out member)]⟩
  exact List.mem_append_left _ (List.mem_map_of_mem recorded)

/-- All records that are collected are of violated constraints. -/
theorem violated_collect {job : Job α} {record : Record α} (member : record ∈ (e.collect job outcomes).records) :
    record.evidence.isSatisfied = false := by
  refine violated_putAll (fun record found => ?_) record ((e.records_collect_perm job outcomes).mem_iff.mp member)
  obtain ⟨out, listed, found⟩ := List.mem_flatMap.mp found
  obtain ⟨a, agrees⟩ := agree out listed
  exact (agrees.violated found).1

/-- The winning reason for collected outcomes is an obstacle. -/
theorem winningCode_collect_mem {job : Job α} {first : Record α} {rest : List (Record α)}
    (found : (e.collect job outcomes).records = first :: rest) :
    winningCode (e.collect job outcomes) first rest ∈ e.obstacles job.id outcomes := by
  cases all : (e.collect job outcomes).allUnreachable with
  | true =>
    rw [winningCode, if_pos all]
    obtain ⟨some_vehicle, all⟩ := allUnreachable_collect.mp all
    exact reachable_mem_obstacles agree some_vehicle all
  | false =>
    have first_of := winningCode_isFirstOf all first rest
    rw [← found] at first_of
    exact mem_codes_collect.mp first_of.1

end

/-! ## The reason that is shown -/

/-- Which reason is shown for outcomes and hints: none if nothing stands in the way, reachability if there are vehicles
and none of them reaches the job, and else the first of the obstacles. -/
structure Shows (e : Evaluator α) (jobId : Text) (outcomes : List (VehicleOutcome α)) (shown : Resolution α) :
    Prop where
  unexplained_iff : shown.code = .unexplained ↔ e.obstacles jobId outcomes = []
  of_unreachable : outcomes ≠ [] → (∀ out ∈ outcomes, out.unreachable = true) → shown.code = .reachable
  isFirstOf : e.obstacles jobId outcomes ≠ [] → ¬(outcomes ≠ [] ∧ ∀ out ∈ outcomes, out.unreachable = true) →
    shown.code.IsFirstOf (e.obstacles jobId outcomes)
  description_eq : shown.description = shown.code.description

/-- Some reason is shown for all outcomes that agree with the plain way. -/
theorem resolve_collect [Plane α] (e : Evaluator α) (job : Job α) {outcomes : List (VehicleOutcome α)}
    (agree : ∀ out ∈ outcomes, ∃ a : Attempt α, a.Agrees out) (policy : TieBreak) (fleet : List Text) :
    ∃ shown, resolve policy fleet (e.collect job outcomes) = .ok shown ∧ e.Shows job.id outcomes shown := by
  have codes : ∀ c, c ∈ (e.collect job outcomes).records.map (·.code) ↔ c ∈ e.obstacles job.id outcomes :=
    fun c => mem_codes_collect
  cases found : (e.collect job outcomes).records with
  | nil =>
    have nothing : e.obstacles job.id outcomes = [] := by
      rw [List.eq_nil_iff_forall_not_mem]
      intro c member
      have member := (codes c).mpr member
      rw [found] at member
      exact absurd member (by simp)
    refine ⟨_, resolve_of_nil found policy fleet, ⟨fun _ => nothing, fun _ => rfl⟩, ?_, fun h => absurd nothing h, rfl⟩
    intro some_vehicle all
    have member : .reachable ∈ e.obstacles job.id outcomes := reachable_mem_obstacles agree some_vehicle all
    rw [nothing] at member
    exact absurd member (by simp)
  | cons first rest =>
    have present := winningCode_collect_mem agree found
    obtain ⟨shown, resolved, code, text⟩ := resolve_of_violated (fun record => violated_collect agree) found
      ((codes _).mpr present) policy fleet
    refine ⟨shown, resolved, ?_, ?_, ?_, text⟩
    · refine ⟨fun none => ?_, fun none => absurd none (List.ne_nil_of_mem present)⟩
      rw [← code, none] at present
      exact absurd present (unexplained_notMem_obstacles agree)
    · intro some_vehicle all
      rw [code, winningCode, if_pos (allUnreachable_collect.mpr ⟨some_vehicle, all⟩)]
    · intro _ not_all
      have some_reached : (e.collect job outcomes).allUnreachable = false := by
        rw [Bool.eq_false_iff]
        exact fun all => not_all (allUnreachable_collect.mp all)
      have first_of := winningCode_isFirstOf some_reached first rest
      rw [← found] at first_of
      rw [code]
      exact ⟨present, fun c member => first_of.2 c ((codes c).mpr member)⟩

/-! ## From the problem on -/

variable [Plane α]

/-- The outcome for a job and a vehicle of the fleet, on the route that the solution gives it. -/
def Finds (e : Evaluator α) (job : Job α) (v : Vehicle α) (out : VehicleOutcome α) : Prop :=
  ∃ state, routeOf e.problem e.solution v = .ok state ∧ (e.evaluateVehicle job state).outcome = .ok out
    ∧ out.vehicleId = v.id

/-- The outcomes for the routes of a fleet are found vehicle by vehicle. -/
theorem finds_of_found {e : Evaluator α} {job : Job α} {fleet : List (Vehicle α)} {states : List (RouteState α)}
    (found : ∀ state ∈ states, (e.evaluateVehicle job state).outcome
      = .ok ((e.attempt job state).outcomeBy (Trial.orderOf e.settings.exhaustive)))
    (routes : List.Forall₂ (fun v state => routeOf e.problem e.solution v = .ok state) fleet states) :
    List.Forall₂ (e.Finds job) fleet
      (states.map fun state => (e.attempt job state).outcomeBy (Trial.orderOf e.settings.exhaustive)) := by
  induction routes with
  | nil => exact .nil
  | @cons v state _ _ route _ ih =>
    rw [List.forall_mem_cons] at found
    refine .cons ⟨state, route, found.1, ?_⟩ (ih found.2)
    rw [((e.attempt job state).agrees_outcomeBy _).vehicleId_eq, ← vehicle_of_routeOf route]
    rfl

theorem finds_of_routes {e : Evaluator α} {job : Job α} {fleet : List (Vehicle α)} {states : List (RouteState α)}
    (judged : ∀ state ∈ states, (e.attempt job state).JudgesAreas)
    (routes : List.Forall₂ (fun v state => routeOf e.problem e.solution v = .ok state) fleet states) :
    List.Forall₂ (e.Finds job) fleet
      (states.map fun state => (e.attempt job state).outcomeBy (Trial.orderOf e.settings.exhaustive)) :=
  finds_of_found (fun state listed => Attempt.survey_outcome (judged state listed)) routes

/-- Let an evaluator be built, whichever constraints it checks, and let areas be judged if they are checked. Then every
job has an outcome for every vehicle of the fleet, its evaluation is not stopped, and some reason is shown, whatever the
tie-break. No reason is found just when every vehicle could take the job and no hint counts; it is reachability if there
are vehicles and none of them reaches the job; and otherwise the first by priority among the records of the outcomes and
the hints that count. Its text is the fixed one. -/
theorem reason_of_outcomes {p : Problem α} {s : Solution α} {catalog : Catalog} {settings : DiagnosisSettings α}
    {e : Evaluator α} (built : (Evaluator.build p s catalog settings).outcome = .ok e) (job : Job α)
    (judged : ∀ state ∈ e.states, (e.attempt job state).JudgesAreas) (policy : TieBreak) (order : List Text) :
    ∃ outcomes evaluation shown, List.Forall₂ (e.Finds job) p.fleet outcomes
      ∧ (e.evaluate (fun _ => false) job).outcome = .ok evaluation ∧ resolve policy order evaluation = .ok shown
      ∧ (shown.code = .unexplained ↔ (∀ out ∈ outcomes, out.feasible = true) ∧ e.usableHints job.id = [])
      ∧ ((p.fleet ≠ [] ∧ ∀ out ∈ outcomes, out.unreachable = true) → shown.code = .reachable)
      ∧ (¬((∀ out ∈ outcomes, out.feasible = true) ∧ e.usableHints job.id = []) →
        ¬(p.fleet ≠ [] ∧ ∀ out ∈ outcomes, out.unreachable = true) →
        shown.code.IsFirstOf (e.obstacles job.id outcomes))
      ∧ shown.description = shown.code.description := by
  obtain ⟨-, states, prepared, rfl⟩ := Evaluator.build_eq_ok.mp built
  have finds := finds_of_routes judged (prepare_eq_ok.mp prepared)
  have agree : ∀ out ∈ outcomes ⟨p, s, catalog, settings, states⟩ job, ∃ a : Attempt α, a.Agrees out :=
    fun out => agrees_of_mem_outcomes
  obtain ⟨shown, resolved, shows⟩ := resolve_collect ⟨p, s, catalog, settings, states⟩ job agree policy order
  have fleet : outcomes ⟨p, s, catalog, settings, states⟩ job ≠ [] ↔ p.fleet ≠ [] := by
    rw [← List.length_pos_iff, ← List.length_pos_iff, finds.length_eq]
    rfl
  have free : obstacles ⟨p, s, catalog, settings, states⟩ job.id (outcomes ⟨p, s, catalog, settings, states⟩ job) = []
      ↔ _ := obstacles_eq_nil agree
  refine ⟨_, _, shown, finds, evaluate_outcome judged, resolved, ?_, ?_, ?_, shows.description_eq⟩
  · exact shows.unexplained_iff.trans free
  · rintro ⟨some_vehicle, all⟩
    exact shows.of_unreachable (fleet.mpr some_vehicle) all
  · intro some_obstacle some_reached
    exact shows.isFirstOf (mt free.mp some_obstacle) (mt (And.imp_left fleet.mp) some_reached)

/-! ### A van with one job on its route -/

/-- A van that carries up to ten units. -/
def van : Vehicle Exact := { RouteState.shuttle with id := "van", capacity := [.finite 10], breaks := [] }

/-- Freight to or from the far place. -/
def freight (name : String) (kind : JobKind) (amount : Rat) (order : Int) : Job Exact :=
  { RouteState.parcel name with kind, demand := [.finite amount], order := some order }

/-- A delivery to the far place. -/
def drop : Job Exact := freight "drop" .delivery 9 2

/-- A pickup that comes before the delivery, by relation and by order value; but both together are more than the van
carries. -/
def lift : Job Exact := freight "lift" .pickup 5 1

/-- A delivery that is too much for the van at any position, and breaks nothing else. -/
def crate : Job Exact := freight "crate" .delivery 20 2

/-- Two jobs for the van. -/
def vanPlan : Problem Exact where
  jobs := [drop, lift]
  fleet := [van]
  relations := [⟨.sequence, ["lift", "drop"], "van"⟩]
  matrices := [("car", RouteState.twoPlaces)]

/-- The van makes the delivery and leaves the other job, for which a hint names no vehicle. -/
def vanSolution : Solution Exact where
  routes := [⟨"van", none, [.bare "drop"], none, none⟩]
  unassigned := ["lift"]
  hints := [("lift", [⟨.tourSize, none, none⟩])]

/-- The route of the van. -/
def vanRoute : RouteState Exact where
  vehicle := van
  matrix := RouteState.twoPlaces
  jobs := [drop]
  origin := ⟨0, 0, 0⟩
  base := ⟨[⟨drop, .finite 7, .finite 7, .finite 12, 0, .finite 9⟩], 0, .finite 19, .finite 18, true⟩
  walk_eq := by decide +kernel

theorem build_vanRoute :
    RouteState.build van RouteState.twoPlaces [drop] none = .ok vanRoute :=
  RouteState.build_eq_of_walk rfl vanRoute.walk_eq

/-- The evaluator of that solution, with all checks. -/
def vanEvaluator : Evaluator Exact where
  problem := vanPlan
  solution := vanSolution
  catalog := .without []
  settings := {}
  states := [vanRoute]

/-- The evaluator of the van is built on its plan. -/
theorem build_vanEvaluator :
    (Evaluator.build vanPlan vanSolution (.without []) {}).outcome = .ok vanEvaluator := by
  have current : currentRoute vanPlan vanSolution van = .ok vanRoute := build_vanRoute
  have route : routeOf vanPlan vanSolution van = .ok vanRoute := routeOf_eq_ok.mpr ⟨current, fun _ => ⟨rfl, rfl⟩⟩
  rw [Evaluator.build_eq_ok]
  exact ⟨by decide +kernel, [vanRoute], prepare_eq_ok.mpr (.cons route .nil), rfl⟩

/-- The van has no areas. -/
theorem judgesAreas_van (job : Job Exact) :
    ∀ state ∈ vanEvaluator.states, (vanEvaluator.attempt job state).JudgesAreas := by
  intro state member _ k fault failed
  obtain rfl := List.mem_singleton.mp member
  exact absurd failed (by simp [Insertion.check, Insertion.checkArea, Insertion.vehicle, Attempt.insertion, attempt,
    vanRoute, van, RouteState.shuttle])

theorem reason_of_outcomes_van :
    (Evaluator.build vanPlan vanSolution (.without []) {}).outcome = .ok vanEvaluator
      ∧ (∀ state ∈ vanEvaluator.states, (vanEvaluator.attempt lift state).JudgesAreas)
      ∧ ∃ evaluation shown, (vanEvaluator.evaluate (fun _ => false) lift).outcome = .ok evaluation
        ∧ resolve .nearestMiss ["van"] evaluation = .ok shown ∧ shown.code = .locking
        ∧ shown.description = Reason.locking.description := by
  obtain ⟨outcomes, evaluation, shown, -, evaluated, resolved, -, -, -, text⟩ :=
    reason_of_outcomes build_vanEvaluator lift (judgesAreas_van lift) .nearestMiss ["van"]
  have code : ((vanEvaluator.evaluate (fun _ => false) lift).outcome.bind fun evaluation =>
      (resolve .nearestMiss ["van"] evaluation).map (·.code)) = .ok .locking := by decide +kernel
  rw [evaluated, Except.bind, resolved] at code
  have code : shown.code = .locking := Except.ok.inj code
  exact ⟨build_vanEvaluator, judgesAreas_van lift, evaluation, shown, evaluated, resolved, code, code ▸ text⟩

end Evaluator

end Leftover
