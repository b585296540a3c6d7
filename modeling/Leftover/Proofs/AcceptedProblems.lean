/-
# Accepted problems

What the rest of the program relies on holds of every problem that is read from a document: ids do not repeat, matrices
are square, windows do not end before they start, and no demand, duration or limit is negative. Locations and numbers of
stops are natural numbers to begin with.

There is one way around it. A number that is undefined is neither at least zero nor below zero. A duration or a limit is
kept if it is at least zero, so it is defined; but a demand is kept unless it is below zero, and a window unless its end
is below its start. So an accepted demand is at least zero just if it is defined, and an accepted window is in order just
if both of its ends are.

* `Problem.IsValidated` : what holds of an accepted problem
* `yields_problem` : it does
* `validation_isNormalForm` : together with the fact that all models are read again from their own documents
-/
import Leftover.Proofs.Doubles
import Leftover.Proofs.ModelReadings

namespace Leftover

open Reading

/-! ## Validated problems -/

/-- The window does not end before it starts, just if both of its ends are defined. -/
def Window.IsOrdered (w : Window Float) : Prop :=
  w.opens ≤ w.closes ↔ w.opens.isNaN = false ∧ w.closes.isNaN = false

/-- What is asked of a job. -/
structure Job.IsValidated (j : Job Float) : Prop where
  duration : 0 ≤ j.duration
  demand : ∀ d ∈ j.demand, 0 ≤ d ↔ d.isNaN = false
  windows : ∀ w ∈ j.windows, w.IsOrdered

/-- What is asked of a vehicle, of its dispatch and its breaks. -/
structure Vehicle.IsValidated (v : Vehicle Float) : Prop where
  shift : v.shift.IsOrdered
  maxDistance : ∀ limit ∈ v.maxDistance, 0 ≤ limit
  maxDuration : ∀ limit ∈ v.maxDuration, 0 ≤ limit
  dispatch : ∀ d ∈ v.dispatch, d.window.IsOrdered ∧ 0 ≤ d.duration
  breaks : ∀ b ∈ v.breaks, b.window.IsOrdered ∧ 0 ≤ b.duration

/-- What the rest of the program relies on. -/
structure Problem.IsValidated (p : Problem Float) : Prop where
  jobs_nodup : (p.jobs.map (·.id)).Nodup
  fleet_nodup : (p.fleet.map (·.id)).Nodup
  square : ∀ e ∈ p.matrices, e.2.IsSquare
  jobs : ∀ j ∈ p.jobs, j.IsValidated
  fleet : ∀ v ∈ p.fleet, v.IsValidated

/-! ## Numbers and windows -/

theorem yields_nonNegative : Yields readNonNegative fun x => 0 ≤ x := by
  intro v x accepted
  obtain ⟨y, _, checked⟩ := andThen_eq_value.1 accepted
  split at checked
  · next kept =>
    cases checked
    have zero : (0.0 : Float) = 0 := by decide +kernel
    rwa [zero] at kept
  · cases checked

/-- Of two doubles that are not the other way round, the first is at most the second just if both are defined. -/
theorem float_le_iff_of_not_lt {x y : Float} (h : ¬y < x) : x ≤ y ↔ x.isNaN = false ∧ y.isNaN = false := by
  constructor
  · exact not_isNaN_of_float_le
  · rintro ⟨hx, hy⟩
    exact float_le_of_not_lt hx hy h

/-- Demands are kept if none is below zero. -/
theorem readDemand_iff {v : Json} {amounts : List Float} :
    readDemand v = .value amounts ↔ readList readMeasure v = .value amounts ∧ ∀ d ∈ amounts, ¬d < 0.0 := by
  rw [readDemand, andThen_eq_value]
  constructor
  · rintro ⟨given, read, checked⟩
    split at checked
    · cases checked
    · next kept =>
      cases checked
      refine ⟨read, fun d found below => kept ?_⟩
      exact List.any_eq_true.2 ⟨d, found, decide_eq_true below⟩
  · rintro ⟨read, kept⟩
    refine ⟨amounts, read, if_neg ?_⟩
    rw [List.any_eq_true]
    rintro ⟨d, found, below⟩
    exact kept d found (of_decide_eq_true below)

theorem yields_demand : Yields readDemand fun amounts => ∀ d ∈ amounts, 0 ≤ d ↔ d.isNaN = false := by
  intro v amounts accepted d found
  have kept := (readDemand_iff.1 accepted).2 d found
  have zero : (0.0 : Float) = 0 := by decide +kernel
  have defined : (0 : Float).isNaN = false := by decide +kernel
  rw [zero] at kept
  rw [float_le_iff_of_not_lt kept, and_iff_right defined]

theorem yields_window : Yields readWindow Window.IsOrdered := by
  intro v w accepted
  obtain ⟨fields, given⟩ := exists_of_readWindow accepted
  obtain ⟨_, _, ordered⟩ := readWindowFields_iff.1 given
  exact float_le_iff_of_not_lt ordered

theorem yields_matrix : Yields readMatrix Matrix.IsSquare := by
  intro v m accepted
  obtain ⟨fields, rfl, -⟩ := readFields_eq_value.1 accepted
  exact (readMatrix_iff.1 accepted).2.2

/-! ## Jobs and vehicles -/

theorem zero_le_literal : (0 : Float) ≤ 0.0 := by decide +kernel

theorem yields_job : Yields readJob Job.IsValidated := by
  intro v j accepted
  obtain ⟨fields, rfl, -⟩ := readFields_eq_value.1 accepted
  obtain ⟨-, -, -, duration, -, demand, -, windows, -⟩ := readJob_iff.1 accepted
  constructor
  · exact Fields.of_withDefault yields_nonNegative zero_le_literal duration
  · exact Fields.of_withDefault yields_demand (List.forall_mem_nil _) demand
  · exact Fields.of_withDefault (yields_list yields_window) (List.forall_mem_nil _) windows

theorem yields_break : Yields readBreak fun b => b.window.IsOrdered ∧ 0 ≤ b.duration := by
  intro v b accepted
  obtain ⟨fields, rfl, -⟩ := readFields_eq_value.1 accepted
  obtain ⟨window, duration⟩ := readBreak_iff.1 accepted
  exact ⟨Fields.of_required yields_window window, Fields.of_required yields_nonNegative duration⟩

theorem yields_dispatch : Yields readDispatch fun d => d.window.IsOrdered ∧ 0 ≤ d.duration := by
  intro v d accepted
  obtain ⟨fields, rfl, -⟩ := readFields_eq_value.1 accepted
  obtain ⟨-, window, duration⟩ := readDispatch_iff.1 accepted
  exact ⟨Fields.of_required yields_window window,
    Fields.of_withDefault yields_nonNegative zero_le_literal duration⟩

theorem yields_vehicle : Yields readVehicle Vehicle.IsValidated := by
  intro v w accepted
  obtain ⟨fields, rfl, -⟩ := readFields_eq_value.1 accepted
  obtain ⟨-, -, -, -, shift, -, -, maxDistance, maxDuration, -, dispatch, breaks, -⟩ := readVehicle_iff.1 accepted
  constructor
  · exact Fields.of_required yields_window shift
  · exact Fields.of_withDefault (yields_optional yields_nonNegative) (fun _ found => by cases found) maxDistance
  · exact Fields.of_withDefault (yields_optional yields_nonNegative) (fun _ found => by cases found) maxDuration
  · exact Fields.of_withDefault (yields_optional yields_dispatch) (fun _ found => by cases found) dispatch
  · exact Fields.of_withDefault (yields_list yields_break) (List.forall_mem_nil _) breaks

/-! ## Problems -/

/-- Every accepted problem is validated. -/
theorem yields_problem : Yields readProblem Problem.IsValidated := by
  intro v p accepted
  obtain ⟨fields, rfl, -⟩ := readFields_eq_value.1 accepted
  obtain ⟨jobs, fleet, -, matrices, jobs_nodup, fleet_nodup⟩ := readProblem_iff.1 accepted
  refine ⟨jobs_nodup, fleet_nodup, ?_, ?_, ?_⟩
  · exact Fields.of_withDefault (yields_dictionary yields_matrix) (List.forall_mem_nil _) matrices
  · exact Fields.of_required (yields_list yields_job) jobs
  · exact Fields.of_required (yields_list yields_vehicle) fleet

/-! ## Validation -/

/-- Whatever document is accepted for a model, the model is accepted again, unchanged, as its own document; and every
accepted problem is validated. -/
theorem validation_isNormalForm (v : Json) :
    (∀ w, readWindow v = .value w → readWindow (document w) = .value w) ∧
    (∀ j, readJob v = .value j → readJob (document j) = .value j) ∧
    (∀ b, readBreak v = .value b → readBreak (document b) = .value b) ∧
    (∀ d, readDispatch v = .value d → readDispatch (document d) = .value d) ∧
    (∀ a, readArea v = .value a → readArea (document a) = .value a) ∧
    (∀ w, readVehicle v = .value w → readVehicle (document w) = .value w) ∧
    (∀ r, readRelation v = .value r → readRelation (document r) = .value r) ∧
    (∀ s, readStop v = .value s → readStop (document s) = .value s) ∧
    (∀ r, readRoute v = .value r → readRoute (document r) = .value r) ∧
    (∀ h, readHint v = .value h → readHint (document h) = .value h) ∧
    (∀ p, readProblem v = .value p → readProblem (document p) = .value p ∧ p.IsValidated) ∧
    (∀ s, readSolution v = .value s → readSolution (document s) = .value s) ∧
    (∀ c, readCoordinates v = .value c → readCoordinates (document c) = .value c) ∧
    (∀ m, readMatrix v = .value m → readMatrix (document m) = .value m) ∧
    (∀ s, readDiagnosisSettings v = .value s → readDiagnosisSettings (document s) = .value s) ∧
    (∀ s, readSettings v = .value s → readSettings (document s) = .value s) := by
  refine ⟨isNormalForm_window v, isNormalForm_job v, isNormalForm_break v, isNormalForm_dispatch v, isNormalForm_area v,
    isNormalForm_vehicle v, isNormalForm_relation v, isNormalForm_stop v, isNormalForm_route v, isNormalForm_hint v, ?_,
    isNormalForm_solution v, isNormalForm_coordinates v, isNormalForm_matrix v, isNormalForm_diagnosisSettings v,
    isNormalForm_settings v⟩
  intro p accepted
  exact ⟨isNormalForm_problem v p accepted, yields_problem v p accepted⟩

/-- A problem as a document gives it: numbers in texts, clock texts, names in any order, a field that means nothing, and
a demand that is undefined. -/
def told : Json :=
  .record
    [("fleet", .list [.record
      [("shift", .list [.text "08:00", .whole 600]), ("id", .text "van"), ("start_location", .text "0"),
       ("max_distance", .measure 1000.0), ("color", .text "red")]]),
     ("jobs", .list [.record
      [("id", .text "a"), ("location", .measure 1.0), ("skills", .list [.text "b", .text "a", .text "b"]),
       ("demand", .list [.whole 2, .text "nan"])]])]

/-- The problem that is read from it. -/
def toldProblem : Problem Float :=
  ⟨[⟨"a", 1, none, 0.0, ["a", "b"], [2.0, 0.0 / 0.0], .delivery, [], none, [], true⟩],
    [⟨"van", "car", [], [], ⟨480.0, 600.0⟩, 0, none, some 1000.0, none, none, none, [], []⟩], [], []⟩

theorem validation_isNormalForm_told :
    readProblem told = .value toldProblem ∧ readProblem (document toldProblem) = .value toldProblem ∧
    toldProblem.IsValidated ∧ ∃ j ∈ toldProblem.jobs, ∃ d ∈ j.demand, ¬0 ≤ d := by
  have accepted : readProblem told = .value toldProblem := rfl
  obtain ⟨_, _, _, _, _, _, _, _, _, _, problem, _⟩ := validation_isNormalForm told
  obtain ⟨again, validated⟩ := problem toldProblem accepted
  refine ⟨accepted, again, validated, _, List.mem_cons_self .., 0.0 / 0.0, ?_, by decide +kernel⟩
  exact List.mem_cons_of_mem _ (List.mem_cons_self ..)

end Leftover
