/-
# Models stay as they are

Every model of a plan, of a solution and of the settings is read again, as it is, from the document that is written for
it. For each of them there is one statement of what its fields are read from; the fields are then taken one by one.

* `readJob_iff`, `readVehicle_iff`, ... : what an accepted object says, field by field
* `isNormalForm_job`, `isNormalForm_vehicle`, ... : the model is read again from its document
-/
import Leftover.Proofs.Legs
import Leftover.Proofs.Lookup
import Leftover.Proofs.Readings
import Mathlib.Tactic.Simproc.ExistsAndEq

namespace Leftover

open Reading

variable {fields : Fields}

/-! ## Windows -/

theorem readWindowFields_iff {w : Window Float} :
    readWindowFields fields = .value w ↔
      fields.required "start" readClock = .value w.opens ∧
      fields.required "end" readClock = .value w.closes ∧ ¬w.closes < w.opens := by
  obtain ⟨opens, closes⟩ := w
  rw [readWindowFields, both_eq_value]
  constructor
  · rintro ⟨_, front, closes, ends, same⟩
    obtain ⟨opens, starts, rfl⟩ := map_eq_value.1 front
    cases same
    obtain ⟨v, found, given⟩ := Fields.required_eq_value.1 ends
    obtain ⟨t, read, checked⟩ := andThen_eq_value.1 given
    rw [starts] at checked
    dsimp only at checked
    split at checked
    · cases checked
    · next ordered =>
      cases checked
      exact ⟨starts, Fields.required_eq_value.2 ⟨v, found, read⟩, ordered⟩
  · rintro ⟨starts, ends, ordered⟩
    obtain ⟨v, found, read⟩ := Fields.required_eq_value.1 ends
    refine ⟨Window.mk opens, map_eq_value.2 ⟨opens, starts, rfl⟩, closes, ?_, rfl⟩
    apply Fields.required_eq_value.2
    refine ⟨v, found, andThen_eq_value.2 ⟨closes, read, ?_⟩⟩
    rw [starts]
    exact if_neg ordered

/-- However a window is given, it is read from fields. -/
theorem exists_of_readWindow {v : Json} {w : Window Float} (accepted : readWindow v = .value w) :
    ∃ fields, readWindowFields fields = .value w := by
  rw [readWindow.eq_def] at accepted
  split at accepted
  · exact ⟨_, accepted⟩
  · cases accepted
  · exact ⟨_, accepted⟩
  · cases accepted

theorem isNormalForm_window : IsNormalForm readWindow document := by
  intro v w accepted
  obtain ⟨fields, given⟩ := exists_of_readWindow accepted
  obtain ⟨opens, closes, ordered⟩ := readWindowFields_iff.1 given
  exact readWindowFields_iff.2 ⟨Fields.required_again isNormalForm_clock opens rfl,
    Fields.required_again isNormalForm_clock closes rfl, ordered⟩

/-! ## Matrices -/

theorem readCoordinates_iff {c : Coordinates Float} :
    readCoordinates (.record fields) = .value c ↔
      fields.required "lat" readMeasure = .value c.lat ∧ fields.required "lon" readMeasure = .value c.lon := by
  cases c
  simp only [readCoordinates, readFields, seq_eq_value, functor_eq_value, Coordinates.mk.injEq, existsAndEq, and_true]

theorem isNormalForm_coordinates : IsNormalForm readCoordinates document := by
  intro v c accepted
  obtain ⟨fields, rfl, -⟩ := readFields_eq_value.1 accepted
  obtain ⟨lat, lon⟩ := readCoordinates_iff.1 accepted
  exact readCoordinates_iff.2 ⟨Fields.required_again isNormalForm_measure lat rfl,
    Fields.required_again isNormalForm_measure lon rfl⟩

theorem isNormalForm_table : IsNormalForm readTable document :=
  isNormalForm_list (isNormalForm_list (isNormalForm_optional isNormalForm_measure fun _ => nofun))

theorem readMatrix_iff {m : Matrix Float} :
    readMatrix (.record fields) = .value m ↔
      fields.required "durations_minutes" readTable = .value m.durations ∧
      fields.required "distances_meters" readTable = .value m.distances ∧ m.IsSquare := by
  simp only [readMatrix, readFields, andThen_eq_value, seq_eq_value, functor_eq_value]
  constructor
  · rintro ⟨_, ⟨_, ⟨durations, first, rfl⟩, distances, second, rfl⟩, made⟩
    rw [matrixOfTables] at made
    split at made
    · next made' =>
      cases made
      obtain rfl := Matrix.eq_of_make made'
      exact ⟨first, second, Matrix.isSquare_of_make made'⟩
    · cases made
  · rintro ⟨first, second, square⟩
    refine ⟨(m.durations, m.distances), ⟨_, ⟨m.durations, first, rfl⟩, m.distances, second, rfl⟩, ?_⟩
    rw [matrixOfTables, square.make]

theorem isNormalForm_matrix : IsNormalForm readMatrix document := by
  intro v m accepted
  obtain ⟨fields, rfl, -⟩ := readFields_eq_value.1 accepted
  obtain ⟨durations, distances, square⟩ := readMatrix_iff.1 accepted
  exact readMatrix_iff.2 ⟨Fields.required_again isNormalForm_table durations rfl,
    Fields.required_again isNormalForm_table distances rfl, square⟩

/-! ## Jobs -/

theorem readNonNegative_zero : readNonNegative (document (0.0 : Float)) = .value 0.0 := by
  have kept : (0.0 : Float) ≤ 0.0 := by decide +kernel
  exact andThen_eq_value.2 ⟨0.0, rfl, if_pos kept⟩

theorem isNormalForm_demand : IsNormalForm readDemand document := by
  apply isNormalForm_andThen (isNormalForm_list isNormalForm_measure)
  intro amounts kept checked
  split at checked
  · cases checked
  · cases checked
    rfl

theorem readJob_iff {j : Job Float} :
    readJob (.record fields) = .value j ↔
      fields.required "id" readText = .value j.id ∧
      fields.required "location" readNat = .value j.location ∧
      fields.withDefault "coordinates" none (readOptional readCoordinates) = .value j.coordinates ∧
      fields.withDefault "duration" 0.0 readNonNegative = .value j.duration ∧
      fields.withDefault "skills" [] readSet = .value j.skills ∧
      fields.withDefault "demand" [] readDemand = .value j.demand ∧
      fields.withDefault "kind" .delivery (readName JobKind.all JobKind.name) = .value j.kind ∧
      fields.withDefault "time_windows" [] (readList readWindow) = .value j.windows ∧
      fields.withDefault "order" none (readOptional readWhole) = .value j.order ∧
      fields.withDefault "area_ids" [] readSet = .value j.areaIds ∧
      fields.withDefault "break_eligible" true readFlag = .value j.breakEligible := by
  cases j
  simp only [readJob, readFields, seq_eq_value, functor_eq_value, Job.mk.injEq, existsAndEq, and_true, and_assoc]

theorem isNormalForm_job : IsNormalForm readJob document := by
  intro v j accepted
  obtain ⟨fields, rfl, -⟩ := readFields_eq_value.1 accepted
  obtain ⟨id, location, coordinates, duration, skills, demand, kind, windows, order, areaIds, breakEligible⟩ :=
    readJob_iff.1 accepted
  apply readJob_iff.2
  refine ⟨?_, ?_, ?_, ?_, ?_, ?_, ?_, ?_, ?_, ?_, ?_⟩
  · exact Fields.required_again isNormalForm_text id rfl
  · exact Fields.required_again isNormalForm_nat location rfl
  · exact Fields.withDefault_again (isNormalForm_optional isNormalForm_coordinates fun _ => nofun) rfl coordinates rfl
  · exact Fields.withDefault_again isNormalForm_nonNegative readNonNegative_zero duration rfl
  · exact Fields.withDefault_again isNormalForm_set rfl skills rfl
  · exact Fields.withDefault_again isNormalForm_demand rfl demand rfl
  · exact Fields.withDefault_again (isNormalForm_name JobKind.all JobKind.name) rfl kind rfl
  · exact Fields.withDefault_again (isNormalForm_list isNormalForm_window) rfl windows rfl
  · exact Fields.withDefault_again (isNormalForm_optional isNormalForm_whole fun _ => nofun) rfl order rfl
  · exact Fields.withDefault_again isNormalForm_set rfl areaIds rfl
  · exact Fields.withDefault_again isNormalForm_flag rfl breakEligible rfl

/-! ## Vehicles -/

theorem readBreak_iff {b : Break Float} :
    readBreak (.record fields) = .value b ↔
      fields.required "time_window" readWindow = .value b.window ∧
      fields.required "duration" readNonNegative = .value b.duration := by
  cases b
  simp only [readBreak, readFields, seq_eq_value, functor_eq_value, Break.mk.injEq, existsAndEq, and_true]

theorem isNormalForm_break : IsNormalForm readBreak document := by
  intro v b accepted
  obtain ⟨fields, rfl, -⟩ := readFields_eq_value.1 accepted
  obtain ⟨window, duration⟩ := readBreak_iff.1 accepted
  exact readBreak_iff.2 ⟨Fields.required_again isNormalForm_window window rfl,
    Fields.required_again isNormalForm_nonNegative duration rfl⟩

theorem readDispatch_iff {d : Dispatch Float} :
    readDispatch (.record fields) = .value d ↔
      fields.withDefault "location" none (readOptional readNat) = .value d.location ∧
      fields.required "time_window" readWindow = .value d.window ∧
      fields.withDefault "duration" 0.0 readNonNegative = .value d.duration := by
  cases d
  simp only [readDispatch, readFields, seq_eq_value, functor_eq_value, Dispatch.mk.injEq, existsAndEq, and_true,
    and_assoc]

theorem isNormalForm_dispatch : IsNormalForm readDispatch document := by
  intro v d accepted
  obtain ⟨fields, rfl, -⟩ := readFields_eq_value.1 accepted
  obtain ⟨location, window, duration⟩ := readDispatch_iff.1 accepted
  apply readDispatch_iff.2
  refine ⟨?_, ?_, ?_⟩
  · exact Fields.withDefault_again (isNormalForm_optional isNormalForm_nat fun _ => nofun) rfl location rfl
  · exact Fields.required_again isNormalForm_window window rfl
  · exact Fields.withDefault_again isNormalForm_nonNegative readNonNegative_zero duration rfl

theorem readArea_iff {a : Area Float} :
    readArea (.record fields) = .value a ↔
      fields.required "id" readText = .value a.id ∧
      fields.withDefault "shape" [] (readList (readPair readMeasure)) = .value a.shape := by
  cases a
  simp only [readArea, readFields, seq_eq_value, functor_eq_value, Area.mk.injEq, existsAndEq, and_true]

theorem isNormalForm_area : IsNormalForm readArea document := by
  intro v a accepted
  obtain ⟨fields, rfl, -⟩ := readFields_eq_value.1 accepted
  obtain ⟨id, shape⟩ := readArea_iff.1 accepted
  exact readArea_iff.2 ⟨Fields.required_again isNormalForm_text id rfl,
    Fields.withDefault_again (isNormalForm_list (isNormalForm_pair isNormalForm_measure)) rfl shape rfl⟩

theorem readVehicle_iff {w : Vehicle Float} :
    readVehicle (.record fields) = .value w ↔
      fields.required "id" readText = .value w.id ∧
      fields.withDefault "profile" ("car" : Text) readText = .value w.profile ∧
      fields.withDefault "skills" [] readSet = .value w.skills ∧
      fields.withDefault "capacity" [] (readList readMeasure) = .value w.capacity ∧
      fields.required "shift" readWindow = .value w.shift ∧
      fields.required "start_location" readNat = .value w.startLocation ∧
      fields.withDefault "end_location" none (readOptional readNat) = .value w.endLocation ∧
      fields.withDefault "max_distance" none (readOptional readNonNegative) = .value w.maxDistance ∧
      fields.withDefault "max_duration" none (readOptional readNonNegative) = .value w.maxDuration ∧
      fields.withDefault "max_tour_size" none (readOptional readNat) = .value w.maxTourSize ∧
      fields.withDefault "dispatch" none (readOptional readDispatch) = .value w.dispatch ∧
      fields.withDefault "breaks" [] (readList readBreak) = .value w.breaks ∧
      fields.withDefault "allowed_areas" [] (readList readArea) = .value w.allowedAreas := by
  cases w
  simp only [readVehicle, readFields, seq_eq_value, functor_eq_value, Vehicle.mk.injEq, existsAndEq, and_true,
    and_assoc]

theorem isNormalForm_vehicle : IsNormalForm readVehicle document := by
  intro v w accepted
  obtain ⟨fields, rfl, -⟩ := readFields_eq_value.1 accepted
  obtain ⟨id, profile, skills, capacity, shift, startLocation, endLocation, maxDistance, maxDuration, maxTourSize,
    dispatch, breaks, allowedAreas⟩ := readVehicle_iff.1 accepted
  have isNormalForm_limit := isNormalForm_optional isNormalForm_nonNegative fun _ => nofun
  have isNormalForm_count := isNormalForm_optional isNormalForm_nat fun _ => nofun
  apply readVehicle_iff.2
  refine ⟨?_, ?_, ?_, ?_, ?_, ?_, ?_, ?_, ?_, ?_, ?_, ?_, ?_⟩
  · exact Fields.required_again isNormalForm_text id rfl
  · exact Fields.withDefault_again isNormalForm_text rfl profile rfl
  · exact Fields.withDefault_again isNormalForm_set rfl skills rfl
  · exact Fields.withDefault_again (isNormalForm_list isNormalForm_measure) rfl capacity rfl
  · exact Fields.required_again isNormalForm_window shift rfl
  · exact Fields.required_again isNormalForm_nat startLocation rfl
  · exact Fields.withDefault_again isNormalForm_count rfl endLocation rfl
  · exact Fields.withDefault_again isNormalForm_limit rfl maxDistance rfl
  · exact Fields.withDefault_again isNormalForm_limit rfl maxDuration rfl
  · exact Fields.withDefault_again isNormalForm_count rfl maxTourSize rfl
  · exact Fields.withDefault_again (isNormalForm_optional isNormalForm_dispatch fun _ => nofun) rfl dispatch rfl
  · exact Fields.withDefault_again (isNormalForm_list isNormalForm_break) rfl breaks rfl
  · exact Fields.withDefault_again (isNormalForm_list isNormalForm_area) rfl allowedAreas rfl

/-! ## Problems -/

theorem readRelation_iff {r : Relation} :
    readRelation (.record fields) = .value r ↔
      fields.withDefault "type" .any (readName RelationType.all RelationType.name) = .value r.type ∧
      fields.required "jobs" (readList readText) = .value r.jobs ∧
      fields.required "vehicle_id" readText = .value r.vehicleId := by
  cases r
  simp only [readRelation, readFields, seq_eq_value, functor_eq_value, Relation.mk.injEq, existsAndEq, and_true,
    and_assoc]

theorem isNormalForm_relation : IsNormalForm readRelation document := by
  intro v r accepted
  obtain ⟨fields, rfl, -⟩ := readFields_eq_value.1 accepted
  obtain ⟨type, jobs, vehicleId⟩ := readRelation_iff.1 accepted
  apply readRelation_iff.2
  refine ⟨?_, ?_, ?_⟩
  · exact Fields.withDefault_again (isNormalForm_name RelationType.all RelationType.name) rfl type rfl
  · exact Fields.required_again (isNormalForm_list isNormalForm_text) jobs rfl
  · exact Fields.required_again isNormalForm_text vehicleId rfl

theorem uniqueIds_eq_value {p q : Problem Float} :
    uniqueIds p = .value q ↔ p = q ∧ (q.jobs.map (·.id)).Nodup ∧ (q.fleet.map (·.id)).Nodup := by
  have distinct : ∀ ids : List Text, Problem.firstRepeated? [] ids = none ↔ ids.Nodup := by
    intro ids
    rw [Problem.firstRepeated?_eq_none]
    exact and_iff_left fun _ _ => List.not_mem_nil
  rw [← distinct, ← distinct]
  constructor
  · intro accepted
    rw [uniqueIds] at accepted
    split at accepted
    · cases accepted
    · cases accepted
    · next jobs fleet =>
      cases accepted
      exact ⟨rfl, jobs, fleet⟩
  · rintro ⟨rfl, jobs, fleet⟩
    rw [uniqueIds, jobs, fleet]

theorem readProblem_iff {p : Problem Float} :
    readProblem (.record fields) = .value p ↔
      fields.required "jobs" (readList readJob) = .value p.jobs ∧
      fields.required "fleet" (readList readVehicle) = .value p.fleet ∧
      fields.withDefault "relations" [] (readList readRelation) = .value p.relations ∧
      fields.withDefault "matrices" [] (readDictionary readMatrix) = .value p.matrices ∧
      (p.jobs.map (·.id)).Nodup ∧ (p.fleet.map (·.id)).Nodup := by
  cases p
  simp only [readProblem, readFields, andThen_eq_value, uniqueIds_eq_value, seq_eq_value, functor_eq_value,
    Problem.mk.injEq, existsAndEq, and_true, true_and, and_assoc]

theorem isNormalForm_problem : IsNormalForm readProblem document := by
  intro v p accepted
  obtain ⟨fields, rfl, -⟩ := readFields_eq_value.1 accepted
  obtain ⟨jobs, fleet, relations, matrices, distinct⟩ := readProblem_iff.1 accepted
  apply readProblem_iff.2
  refine ⟨?_, ?_, ?_, ?_, distinct⟩
  · exact Fields.required_again (isNormalForm_list isNormalForm_job) jobs rfl
  · exact Fields.required_again (isNormalForm_list isNormalForm_vehicle) fleet rfl
  · exact Fields.withDefault_again (isNormalForm_list isNormalForm_relation) rfl relations rfl
  · exact Fields.withDefault_again (isNormalForm_dictionary isNormalForm_matrix) rfl matrices rfl

/-! ## Solutions -/

theorem readStop_iff {s : Stop Float} :
    readStop (.record fields) = .value s ↔
      fields.required "job_id" readText = .value s.jobId ∧
      fields.withDefault "arrival" none (readOptional readMeasure) = .value s.arrival ∧
      fields.withDefault "departure" none (readOptional readMeasure) = .value s.departure ∧
      fields.withDefault "load" [] (readList readMeasure) = .value s.load ∧
      fields.withDefault "distance" none (readOptional readMeasure) = .value s.distance := by
  cases s
  simp only [readStop, readFields, seq_eq_value, functor_eq_value, Stop.mk.injEq, existsAndEq, and_true, and_assoc]

theorem isNormalForm_stop : IsNormalForm readStop document := by
  intro v s accepted
  obtain ⟨fields, rfl, -⟩ := readFields_eq_value.1 accepted
  obtain ⟨jobId, arrival, departure, load, distance⟩ := readStop_iff.1 accepted
  have isNormalForm_figure := isNormalForm_optional isNormalForm_measure fun _ => nofun
  apply readStop_iff.2
  refine ⟨?_, ?_, ?_, ?_, ?_⟩
  · exact Fields.required_again isNormalForm_text jobId rfl
  · exact Fields.withDefault_again isNormalForm_figure rfl arrival rfl
  · exact Fields.withDefault_again isNormalForm_figure rfl departure rfl
  · exact Fields.withDefault_again (isNormalForm_list isNormalForm_measure) rfl load rfl
  · exact Fields.withDefault_again isNormalForm_figure rfl distance rfl

theorem readRoute_iff {r : Route Float} :
    readRoute (.record fields) = .value r ↔
      fields.required "vehicle_id" readText = .value r.vehicleId ∧
      fields.withDefault "start_time" none (readOptional readClock) = .value r.startTime ∧
      fields.withDefault "stops" [] (readList readStop) = .value r.stops ∧
      fields.withDefault "distance" none (readOptional readMeasure) = .value r.distance ∧
      fields.withDefault "duration" none (readOptional readMeasure) = .value r.duration := by
  cases r
  simp only [readRoute, readFields, seq_eq_value, functor_eq_value, Route.mk.injEq, existsAndEq, and_true, and_assoc]

theorem isNormalForm_route : IsNormalForm readRoute document := by
  intro v r accepted
  obtain ⟨fields, rfl, -⟩ := readFields_eq_value.1 accepted
  obtain ⟨vehicleId, startTime, stops, distance, duration⟩ := readRoute_iff.1 accepted
  have isNormalForm_figure := isNormalForm_optional isNormalForm_measure fun _ => nofun
  apply readRoute_iff.2
  refine ⟨?_, ?_, ?_, ?_, ?_⟩
  · exact Fields.required_again isNormalForm_text vehicleId rfl
  · exact Fields.withDefault_again (isNormalForm_optional isNormalForm_clock fun _ => nofun) rfl startTime rfl
  · exact Fields.withDefault_again (isNormalForm_list isNormalForm_stop) rfl stops rfl
  · exact Fields.withDefault_again isNormalForm_figure rfl distance rfl
  · exact Fields.withDefault_again isNormalForm_figure rfl duration rfl

theorem readHint_iff {h : Hint Float} :
    readHint (.record fields) = .value h ↔
      fields.required "code" (readName Reason.all Reason.name) = .value h.code ∧
      fields.withDefault "vehicle_id" none (readOptional readText) = .value h.vehicleId ∧
      fields.withDefault "severity" none (readOptional readNonNegative) = .value h.severity := by
  cases h
  simp only [readHint, readFields, seq_eq_value, functor_eq_value, Hint.mk.injEq, existsAndEq, and_true, and_assoc]

theorem isNormalForm_hint : IsNormalForm readHint document := by
  intro v h accepted
  obtain ⟨fields, rfl, -⟩ := readFields_eq_value.1 accepted
  obtain ⟨code, vehicleId, severity⟩ := readHint_iff.1 accepted
  apply readHint_iff.2
  refine ⟨?_, ?_, ?_⟩
  · exact Fields.required_again (isNormalForm_name Reason.all Reason.name) code rfl
  · exact Fields.withDefault_again (isNormalForm_optional isNormalForm_text fun _ => nofun) rfl vehicleId rfl
  · exact Fields.withDefault_again (isNormalForm_optional isNormalForm_nonNegative fun _ => nofun) rfl severity rfl

theorem readSolution_iff {s : Solution Float} :
    readSolution (.record fields) = .value s ↔
      fields.withDefault "routes" [] (readList readRoute) = .value s.routes ∧
      fields.withDefault "unassigned" [] (readList readText) = .value s.unassigned ∧
      fields.withDefault "search_violations" [] (readDictionary (readList readHint)) = .value s.hints := by
  cases s
  simp only [readSolution, readFields, seq_eq_value, functor_eq_value, Solution.mk.injEq, existsAndEq, and_true,
    and_assoc]

theorem isNormalForm_solution : IsNormalForm readSolution document := by
  intro v s accepted
  obtain ⟨fields, rfl, -⟩ := readFields_eq_value.1 accepted
  obtain ⟨routes, unassigned, hints⟩ := readSolution_iff.1 accepted
  apply readSolution_iff.2
  refine ⟨?_, ?_, ?_⟩
  · exact Fields.withDefault_again (isNormalForm_list isNormalForm_route) rfl routes rfl
  · exact Fields.withDefault_again (isNormalForm_list isNormalForm_text) rfl unassigned rfl
  · exact Fields.withDefault_again (isNormalForm_dictionary (isNormalForm_list isNormalForm_hint)) rfl hints rfl

/-! ## Settings -/

theorem isNormalForm_workers : IsNormalForm readWorkers document := by
  apply isNormalForm_andThen isNormalForm_whole
  intro n kept checked
  split at checked
  · cases checked
  split at checked
  · cases checked
  · cases checked
    rfl

theorem isNormalForm_disabled : IsNormalForm readDisabled document := by
  apply isNormalForm_andThen (isNormalForm_list (isNormalForm_name Reason.all Reason.name))
  intro codes kept checked
  split at checked
  · cases checked
  · cases checked
    rfl

theorem isNormalForm_level : IsNormalForm readLevel document := by
  intro v s accepted
  obtain ⟨level, _, checked⟩ := andThen_eq_value.1 accepted
  split at checked
  · next known =>
    cases checked
    apply andThen_eq_value.2
    exact ⟨s, readString_ofString s, if_pos known⟩
  · cases checked

theorem readDiagnosisSettings_iff {s : DiagnosisSettings Float} :
    readDiagnosisSettings (.record fields) = .value s ↔
      fields.withDefault "exhaustive" false readFlag = .value s.exhaustive ∧
      fields.withDefault "tie_break" .nearestMiss (readName TieBreak.all TieBreak.name) = .value s.tieBreak ∧
      fields.withDefault "max_workers" 1 readWorkers = .value s.maxWorkers ∧
      fields.withDefault "time_limit_seconds" none (readOptional readPositive) = .value s.timeLimit ∧
      fields.withDefault "use_search_evidence" true readFlag = .value s.useHints ∧
      fields.withDefault "disabled_codes" [] readDisabled = .value s.disabled := by
  cases s
  simp only [readDiagnosisSettings, readDiagnosisFields, readFields, seq_eq_value, functor_eq_value,
    DiagnosisSettings.mk.injEq, existsAndEq, and_true, and_assoc]

theorem isNormalForm_diagnosisSettings : IsNormalForm readDiagnosisSettings document := by
  intro v s accepted
  obtain ⟨fields, rfl, -⟩ := readFields_eq_value.1 accepted
  obtain ⟨exhaustive, tieBreak, maxWorkers, timeLimit, useHints, disabled⟩ := readDiagnosisSettings_iff.1 accepted
  apply readDiagnosisSettings_iff.2
  refine ⟨?_, ?_, ?_, ?_, ?_, ?_⟩
  · exact Fields.withDefault_again isNormalForm_flag rfl exhaustive rfl
  · exact Fields.withDefault_again (isNormalForm_name TieBreak.all TieBreak.name) rfl tieBreak rfl
  · exact Fields.withDefault_again isNormalForm_workers rfl maxWorkers rfl
  · exact Fields.withDefault_again (isNormalForm_optional isNormalForm_positive fun _ => nofun) rfl timeLimit rfl
  · exact Fields.withDefault_again isNormalForm_flag rfl useHints rfl
  · exact Fields.withDefault_again isNormalForm_disabled rfl disabled rfl

theorem readLogSettings_iff {s : LogSettings} :
    readLogSettings (.record fields) = .value s ↔
      fields.withDefault "level" ({} : LogSettings).level readLevel = .value s.level ∧
      fields.withDefault "format" ({} : LogSettings).format readText = .value s.format := by
  cases s
  simp only [readLogSettings, readFields, seq_eq_value, functor_eq_value, LogSettings.mk.injEq, existsAndEq, and_true]

theorem isNormalForm_logSettings : IsNormalForm readLogSettings document := by
  intro v s accepted
  obtain ⟨fields, rfl, -⟩ := readFields_eq_value.1 accepted
  obtain ⟨level, format⟩ := readLogSettings_iff.1 accepted
  exact readLogSettings_iff.2 ⟨Fields.withDefault_again isNormalForm_level rfl level rfl,
    Fields.withDefault_again isNormalForm_text rfl format rfl⟩

theorem readProjectSettings_iff {s : ProjectSettings} :
    readProjectSettings (.record fields) = .value s ↔
      fields.withDefault "name" ({} : ProjectSettings).name readText = .value s.name ∧
      fields.withDefault "version" ({} : ProjectSettings).version readText = .value s.version := by
  cases s
  simp only [readProjectSettings, readFields, seq_eq_value, functor_eq_value, ProjectSettings.mk.injEq, existsAndEq,
    and_true]

theorem isNormalForm_projectSettings : IsNormalForm readProjectSettings document := by
  intro v s accepted
  obtain ⟨fields, rfl, -⟩ := readFields_eq_value.1 accepted
  obtain ⟨name, version⟩ := readProjectSettings_iff.1 accepted
  exact readProjectSettings_iff.2 ⟨Fields.withDefault_again isNormalForm_text rfl name rfl,
    Fields.withDefault_again isNormalForm_text rfl version rfl⟩

theorem readSettings_iff {s : Settings Float} :
    readSettings (.record fields) = .value s ↔
      fields.withDefault "project" {} readProjectSettings = .value s.project ∧
      fields.withDefault "diagnostics" {} readDiagnosisSettings = .value s.diagnosis ∧
      fields.withDefault "logging" {} readLogSettings = .value s.logging := by
  cases s
  simp only [readSettings, readSettingsFields, readFields, seq_eq_value, functor_eq_value, Settings.mk.injEq,
    existsAndEq, and_true, and_assoc]

theorem isNormalForm_settings : IsNormalForm readSettings document := by
  intro v s accepted
  obtain ⟨fields, rfl, -⟩ := readFields_eq_value.1 accepted
  obtain ⟨project, diagnosis, logging⟩ := readSettings_iff.1 accepted
  apply readSettings_iff.2
  refine ⟨?_, ?_, ?_⟩
  · exact Fields.withDefault_again isNormalForm_projectSettings rfl project rfl
  · exact Fields.withDefault_again isNormalForm_diagnosisSettings rfl diagnosis rfl
  · exact Fields.withDefault_again isNormalForm_logSettings rfl logging rfl

end Leftover
