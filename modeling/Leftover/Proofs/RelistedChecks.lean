/-
# Checks of things listed in another way

What a constraint says about an insertion does not depend on the order in which the relations of the problem are listed,
nor on that of the windows of a job or the breaks of a vehicle. So a survey finds the same.

* `Insertion.check_relations` : relations in any order
* `Relisting.check_insertion` : windows and breaks listed in another way
* `Attempt.SameAnswers.survey_eq` : attempts with the same answers to all checks
-/
import Leftover.Check.Catalog
import Leftover.Diagnosis.Survey
import Leftover.Proofs.Relisting
import Leftover.Proofs.WindowOrder

namespace Leftover

variable {α : Type} [Quantity α]

/-! ## Relations -/

/-- Relations are looked at one by one, and all of them count. -/
theorem Insertion.checkLocking_relations (i : Insertion α) {q : Problem α}
    (perm : q.relations.Perm i.problem.relations) : ({ i with problem := q } : Insertion α).checkLocking = i.checkLocking := by
  have listing : (q.relationsFor i.job.id).all i.keepsRelation = (i.problem.relationsFor i.job.id).all i.keepsRelation :=
    (perm.flatMap_right _).all_eq
  have joining : ∀ left right, (q.relationsOf i.vehicle.id).any (i.joins left right)
      = (i.problem.relationsOf i.vehicle.id).any (i.joins left right) :=
    fun left right => (perm.filter _).any_eq
  have splitting : ({ i with problem := q } : Insertion α).splitsNone = i.splitsNone := by
    have joins : ({ i with problem := q } : Insertion α).joins = i.joins := rfl
    unfold Insertion.splitsNone
    simp only [Insertion.vehicle, joins] at joining ⊢
    simp only [joining]
  have keeping : ({ i with problem := q } : Insertion α).keepsRelation = i.keepsRelation := rfl
  unfold Insertion.checkLocking
  rw [splitting, keeping, ← listing]

/-- No check depends on the order in which the relations are listed, or on anything else of the problem. -/
theorem Insertion.check_relations [Plane α] (i : Insertion α) {q : Problem α} (perm : q.relations.Perm i.problem.relations)
    (c : Reason) : ({ i with problem := q } : Insertion α).check c = i.check c := by
  cases c with
  | locking => exact i.checkLocking_relations perm
  | unexplained | skill | timeWindow | capacity | reachable | maxDistance | shiftTime | breaks | priority | area | dispatch
  | tourSize => rfl

/-! ## Windows and breaks -/

section

omit [Quantity α]

variable {β γ : Type} (f : β → γ)

theorem itemAt?_map (xs : List β) (position : Int) : itemAt? (xs.map f) position = (itemAt? xs position).map f := by
  unfold itemAt?
  rw [List.length_map]
  cases place? xs.length position with
  | none => rfl
  | some k => rw [Option.bind_some, Option.bind_some, List.getElem?_map]

theorem upTo_map (xs : List β) (position : Int) : upTo (xs.map f) position = (upTo xs position).map f := by
  rw [upTo, upTo, List.length_map, List.map_take]

theorem onward_map (xs : List β) (position : Int) : onward (xs.map f) position = (onward xs position).map f := by
  rw [onward, onward, List.length_map, List.map_drop]

end

namespace Relisting

/-- The same attempt on a route, with windows and breaks listed in the other order. -/
def insertion (r : Relisting α) (i : Insertion α) (t : RouteState α) : Insertion α :=
  ⟨r.job i.job, t, i.position, i.problem⟩

section

variable {r : Relisting α} {i : Insertion α} {t : RouteState α} (ties : r.StateTies t i.state)

include ties

theorem vehicle_insertion : (r.insertion i t).vehicle = r.vehicle i.vehicle := ties.vehicle

/-! ### The order of jobs -/

theorem keepsRelation_insertion (relation : Relation) :
    (r.insertion i t).keepsRelation relation = i.keepsRelation relation := by
  have places : ∀ jobId, (r.insertion i t).placeOf? jobId = i.placeOf? jobId := by
    intro jobId
    unfold Insertion.placeOf? RouteState.placeOf?
    show (lastOf? t.jobPlaces jobId).map _ = _
    rw [ties.jobPlaces_eq]
  have placed : (r.insertion i t).placedOr = i.placedOr := by
    funext jobId wanted
    rw [Insertion.placedOr, places, Insertion.placedOr]
  unfold Insertion.keepsRelation Insertion.keepsOrder Insertion.keepsNeighbours
  rw [placed, vehicle_insertion ties]
  rfl

/-- The jobs of the route stand where they stood. -/
theorem itemAt?_insertion (position : Int) :
    itemAt? (r.insertion i t).state.jobs position = (itemAt? i.state.jobs position).map r.job := by
  rw [insertion, ties.jobs, itemAt?_map]

theorem size_insertion : (r.insertion i t).state.size = i.state.size := ties.size_eq

theorem splitsNone_insertion : (r.insertion i t).splitsNone = i.splitsNone := by
  have position : (r.insertion i t).position = i.position := rfl
  unfold Insertion.splitsNone
  rw [itemAt?_insertion ties, itemAt?_insertion ties, size_insertion ties, vehicle_insertion ties, position]
  split
  · cases itemAt? i.state.jobs (i.position - 1) with
    | none => rfl
    | some left => cases itemAt? i.state.jobs i.position <;> rfl
  · rfl

theorem checkLocking_insertion : (r.insertion i t).checkLocking = i.checkLocking := by
  have kept : (r.insertion i t).keepsRelation = i.keepsRelation := funext (keepsRelation_insertion ties)
  unfold Insertion.checkLocking
  rw [splitsNone_insertion ties, kept]
  rfl

theorem checkPriority_insertion : (r.insertion i t).checkPriority = i.checkPriority := by
  have counts : ∀ jobs told, Insertion.countOrders (jobs.map r.job) told = Insertion.countOrders jobs told := by
    intro jobs told
    rw [Insertion.countOrders, List.countP_map]
    rfl
  have inversions : ∀ order, (r.insertion i t).inversions order = i.inversions order := by
    intro order
    unfold Insertion.inversions
    show Insertion.countOrders (upTo t.jobs i.position) _ + Insertion.countOrders (onward t.jobs i.position) _ = _
    rw [ties.jobs, upTo_map, onward_map, counts, counts]
  unfold Insertion.checkPriority
  simp only [inversions]
  rfl

/-! ### Paths, loads and dispatch -/

theorem checkSkill_insertion : (r.insertion i t).checkSkill = i.checkSkill := by
  rw [Insertion.checkSkill, vehicle_insertion ties]
  rfl

theorem checkReachable_insertion : (r.insertion i t).checkReachable = i.checkReachable := by
  have position : (r.insertion i t).position = i.position := rfl
  have before : (r.insertion i t).locationBefore = i.locationBefore := by
    unfold Insertion.locationBefore
    rw [itemAt?_insertion ties, position, insertion, ties.origin]
    cases itemAt? i.state.jobs (i.position - 1) <;> rfl
  have after : (r.insertion i t).locationAfter = i.locationAfter := by
    unfold Insertion.locationAfter
    rw [itemAt?_insertion ties, size_insertion ties, vehicle_insertion ties, position]
    cases itemAt? i.state.jobs i.position <;> rfl
  unfold Insertion.checkReachable
  rw [before, after, insertion, ties.matrix]
  rfl

theorem checkCapacity_insertion : (r.insertion i t).checkCapacity = i.checkCapacity := by
  unfold Insertion.checkCapacity RouteState.capacity
  show t.peakWith (r.job i.job) i.position >>= _ = _
  rw [ties.peakWith_eq, insertion, ties.vehicle]
  rfl

theorem checkArea_insertion [Plane α] : (r.insertion i t).checkArea = i.checkArea := by
  unfold Insertion.checkArea
  rw [vehicle_insertion ties]
  rfl

theorem checkTourSize_insertion : (r.insertion i t).checkTourSize = i.checkTourSize := by
  unfold Insertion.checkTourSize
  rw [size_insertion ties, vehicle_insertion ties]
  rfl

variable [SignlessZero α]

theorem checkDispatch_insertion : (r.insertion i t).checkDispatch = i.checkDispatch := by
  have windows : (r.insertion i t).job.windows = r.windows i.job := rfl
  have inTime : (r.insertion i t).checkAfterDispatch = i.checkAfterDispatch := by
    have latest := r.latest_ties i.job
    have none_at_all := r.isEmpty_windows i.job
    unfold Insertion.checkAfterDispatch
    rw [windows, insertion, ties.origin, ties.matrix]
    cases listed : r.windows i.job with
    | nil =>
      rw [listed, eq_comm, List.isEmpty_nil, List.isEmpty_iff] at none_at_all
      rw [none_at_all]
    | cons w rest =>
      rw [listed] at latest none_at_all
      cases listed' : i.job.windows with
      | nil => exact absurd none_at_all (by simp [listed'])
      | cons w' rest' =>
        rw [listed'] at latest
        have excess : ∀ minutes, Evidence.ofExcess
              (i.state.origin.time + minutes - Quantity.largest 0 ((w :: rest).map (·.closes)))
            = .ofExcess (i.state.origin.time + minutes - Quantity.largest 0 ((w' :: rest').map (·.closes))) :=
          fun minutes => ((Ties.refl _).sub latest).ofExcess_eq
        simp only [excess]
        rfl
  unfold Insertion.checkDispatch
  rw [inTime, vehicle_insertion ties, insertion, ties.origin]
  rfl

/-! ### Times, distances and breaks -/

/-- Evidence is the same where it is the same for schedules that are. -/
theorem onSchedule_insertion {judge' judge : Schedule α → Except Fault (Evidence α)}
    (same : ∀ there here, r.ScheduleTies there here → judge' there = judge here) :
    (r.insertion i t).onSchedule judge' = i.onSchedule judge := by
  refine (ties.insertion i.job i.position).bind_eq fun there here tie => ?_
  rw [tie.reachable, same there here tie]

theorem ownLateness_insertion {stop' stop : ScheduledStop α} (tie : r.StopTies stop' stop) :
    Ties ((r.insertion i t).ownLateness stop') (i.ownLateness stop) := by
  have windows : (r.insertion i t).job.windows = r.windows i.job := rfl
  rw [Insertion.ownLateness, Insertion.ownLateness, windows, r.isEmpty_windows, vehicle_insertion ties]
  split
  · exact tie.late
  · exact tie.late.larger (tie.start.sub (.refl _))

theorem addedLateness_insertion {stop' stop : ScheduledStop α} (tie : r.StopTies stop' stop) :
    Ties ((r.insertion i t).addedLateness stop') (i.addedLateness stop) := by
  have jobId : stop'.job.id = stop.job.id := by
    rw [tie.job]
    rfl
  rw [Insertion.addedLateness, Insertion.addedLateness, jobId]
  exact tie.late.sub (ties.lateOf stop.job.id)

theorem checkTimeWindow_insertion : (r.insertion i t).checkTimeWindow = i.checkTimeWindow := by
  refine onSchedule_insertion ties fun there here tie => ?_
  have position : (r.insertion i t).position = i.position := rfl
  have later := List.forall₂_drop i.position.toNat tie.stops
  rw [position]
  generalize there.stops.drop i.position.toNat = stops' at later
  generalize here.stops.drop i.position.toNat = stops at later
  cases later with
  | nil => rfl
  | cons own others =>
    have added := List.forall₂_map_left_iff.mpr (List.forall₂_map_right_iff.mpr
      (others.imp fun _ _ stop => addedLateness_insertion ties stop))
    exact congrArg _ ((ownLateness_insertion ties own).foldl_larger added).ofExcess_eq

theorem checkMaxDistance_insertion : (r.insertion i t).checkMaxDistance = i.checkMaxDistance := by
  have limits : (r.insertion i t).vehicle.maxDistance = i.vehicle.maxDistance := by
    rw [vehicle_insertion ties]
    rfl
  unfold Insertion.checkMaxDistance
  rw [limits]
  cases i.vehicle.maxDistance with
  | none => rfl
  | some limit =>
    refine onSchedule_insertion ties fun there here tie => ?_
    rw [tie.distance, insertion, ties.base.distance]

theorem checkShiftTime_insertion : (r.insertion i t).checkShiftTime = i.checkShiftTime := by
  refine onSchedule_insertion ties fun there here tie => ?_
  have ends : Ties ((r.insertion i t).addedShift there) (i.addedShift here) := by
    rw [Insertion.addedShift, Insertion.addedShift, vehicle_insertion ties]
    exact (tie.endTime.sub (.refl _)).addedOverrun (ties.base.endTime.sub (.refl _))
  have lasts : Ties there.duration here.duration := tie.endTime.sub (tie.startTime ▸ .refl _)
  have lasted : Ties t.base.duration i.state.base.duration := ties.base.endTime.sub (ties.base.startTime ▸ .refl _)
  have limits : (r.insertion i t).vehicle.maxDuration = i.vehicle.maxDuration := by
    rw [vehicle_insertion ties]
    rfl
  rw [limits]
  cases i.vehicle.maxDuration with
  | none => exact congrArg _ ends.ofExcess_eq
  | some limit =>
    have added := (lasts.sub (.refl limit)).addedOverrun (lasted.sub (.refl limit))
    exact congrArg _ (ends.larger added).ofExcess_eq

omit ties [SignlessZero α] in
/-- The overruns of the breaks that count, each judged beside the one it had before. -/
theorem filterMap_overruns (schedule : Schedule α) (breaks : List (Break α)) (before : Break α → α) :
    ((breaks.zip (breaks.map before)).filterMap fun pair => i.addedBreakOverrun schedule pair.1 pair.2)
      = breaks.filterMap fun b => i.addedBreakOverrun schedule b (before b) := by
  have paired : (breaks.map id).zip (breaks.map before) = _ := List.zip_map'
  rw [List.map_id] at paired
  rw [paired, List.filterMap_map]
  rfl

/-- Each break that counts has an overrun that ties. -/
theorem addedBreakOverruns_insertion {there here : Schedule α} (tie : r.ScheduleTies there here)
    (breaks : List (Break α)) :
    List.Forall₂ Ties
      (breaks.filterMap fun b => (r.insertion i t).addedBreakOverrun there b (breakOverrun t.base (r.vehicle i.vehicle) b))
      (breaks.filterMap fun b => i.addedBreakOverrun here b (breakOverrun i.state.base i.vehicle b)) := by
  refine List.rel_filterMap (R := Eq) (fun b _ same => ?_) (List.forall₂_eq_eq_eq ▸ rfl)
  subst same
  have before := breakOverrun_ties ties.base i.vehicle b
  rw [Insertion.addedBreakOverrun, Insertion.addedBreakOverrun, vehicle_insertion ties]
  simp only [(Ties.refl (0 : α)).lt_iff before]
  split
  · exact .none
  · exact .some (breakOverrun_ties tie i.vehicle b)

/-- Every break counts, and only the greatest overrun of all. -/
theorem checkBreaks_insertion : (r.insertion i t).checkBreaks = i.checkBreaks := by
  have breaks : (r.insertion i t).vehicle.breaks = r.breaks i.vehicle := by
    rw [vehicle_insertion ties]
    rfl
  have known : (r.insertion i t).state.breakOverruns
      = (r.breaks i.vehicle).map (breakOverrun t.base (r.vehicle i.vehicle)) := by
    show t.vehicle.breaks.map (breakOverrun t.base t.vehicle) = _
    rw [ties.vehicle]
    rfl
  have known' : i.state.breakOverruns = i.vehicle.breaks.map (breakOverrun i.state.base i.vehicle) := rfl
  unfold Insertion.checkBreaks
  rw [breaks, isEmpty_breaks]
  split
  · rfl
  · refine onSchedule_insertion ties fun there here tie => ?_
    rw [known, known', filterMap_overruns, filterMap_overruns]
    have each := (Ties.refl 0).foldl_larger (addedBreakOverruns_insertion ties tie (r.breaks i.vehicle))
    have perm := (r.breaks_perm i.vehicle).filterMap
      fun b => i.addedBreakOverrun here b (breakOverrun i.state.base i.vehicle b)
    exact congrArg _ (each.trans (foldl_larger_perm_ties perm 0)).ofExcess_eq

/-- No check depends on the order in which windows and breaks are listed. -/
theorem check_insertion [Plane α] (c : Reason) : (r.insertion i t).check c = i.check c := by
  cases c with
  | unexplained => rfl
  | skill => exact checkSkill_insertion ties
  | timeWindow => exact checkTimeWindow_insertion ties
  | capacity => exact checkCapacity_insertion ties
  | reachable => exact checkReachable_insertion ties
  | maxDistance => exact checkMaxDistance_insertion ties
  | shiftTime => exact checkShiftTime_insertion ties
  | breaks => exact checkBreaks_insertion ties
  | locking => exact checkLocking_insertion ties
  | priority => exact checkPriority_insertion ties
  | area => exact checkArea_insertion ties
  | dispatch => exact checkDispatch_insertion ties
  | tourSize => exact checkTourSize_insertion ties

end

end Relisting

/-! ## Surveys -/

variable [Plane α]

/-- Two attempts get the same answers from all checks, of which they make the same ones in the same way, and they are
about the same job and vehicle by name. -/
structure Attempt.SameAnswers (a b : Attempt α) : Prop where
  check_eq : ∀ (k : Nat) (c : Reason), (a.insertion k).check c = (b.insertion k).check c
  catalog_eq : a.catalog = b.catalog
  exhaustive_eq : a.exhaustive = b.exhaustive
  jobId_eq : a.job.id = b.job.id
  vehicleId_eq : a.state.vehicle.id = b.state.vehicle.id
  size_eq : a.state.size = b.state.size

namespace Attempt.SameAnswers

variable {a b : Attempt α} (same : a.SameAnswers b)

include same

theorem positions_eq : a.state.positions = b.state.positions := by
  rw [RouteState.positions, same.size_eq, RouteState.positions]

theorem consult_eq : a.consult = b.consult := by
  funext k c
  rw [consult, same.check_eq, same.jobId_eq, same.vehicleId_eq, consult]

theorem openAmong_eq (positions : List Nat) : a.openAmong positions = b.openAmong positions := by
  induction positions with
  | nil => rfl
  | cons k rest ih => rw [openAmong, ih, same.consult_eq, openAmong]

theorem openPositions_eq : a.openPositions = b.openPositions := by
  rw [openPositions, same.catalog_eq, same.positions_eq, same.openAmong_eq, openPositions]

theorem consultAll_eq (k : Nat) (reasons : List Reason) : a.consultAll k reasons = b.consultAll k reasons := by
  induction reasons with
  | nil => rfl
  | cons c rest ih => rw [consultAll, ih, same.consult_eq, consultAll]

theorem trialOf_eq (known : Known α) (hasty : Bool) (k : Nat) (reasons : List Reason) :
    a.trialOf known hasty k reasons = b.trialOf known hasty k reasons := by
  have recalled_eq : a.recalled = b.recalled := by
    funext known k c
    rw [recalled, same.consult_eq, recalled]
  induction reasons with
  | nil => rfl
  | cons c rest ih => rw [trialOf, ih, recalled_eq, trialOf]

theorem trialsAt_eq (known : Known α) (hasty : Bool) (positions : List Nat) :
    a.trialsAt known hasty positions = b.trialsAt known hasty positions := by
  induction positions with
  | nil => rfl
  | cons k rest ih => rw [trialsAt, ih, trial, same.catalog_eq, same.trialOf_eq, trialsAt, trial]

theorem trials_eq (known : Known α) (positions : List Nat) : a.trials known positions = b.trials known positions := by
  have full : ∀ k, a.trial known false k = b.trial known false k := by
    intro k
    rw [trial, same.catalog_eq, same.trialOf_eq, trial]
  simp only [trials, same.exhaustive_eq, same.trialsAt_eq, full]

theorem shown_eq (first : Nat) (rest : List Nat) : a.shown first rest = b.shown first rest := by
  simp only [shown, same.catalog_eq, same.consultAll_eq, same.trials_eq]

/-- Such attempts have the same outcome, with the same warnings. -/
theorem survey_eq : survey a = survey b := by
  simp only [survey, same.openPositions_eq, same.shown_eq, same.vehicleId_eq]

end Attempt.SameAnswers

end Leftover
