/-
# What a job adds to a route that is late or too long

A route may exceed its limits before a job is put in. The checks on distance, shift and time windows then look at what
the job adds: by how much the route exceeds both its limit and what it was, and by how much a stop is later than it was.

* `pushedBeyond` : what exceeds a limit and what was there before
* `AddedDelay` : what the job adds to the lateness of a route
* `Insertion.checks_measure_added` : the three checks find the greatest of these amounts
* `RouteState.shift_unmeasured_tirelessRoute` : shifts that end at infinity, where the shift check finds something else
-/
import Leftover.Proofs.AcceptedRuns
import Leftover.Proofs.Extremes
import Leftover.Proofs.Timekeeping
import Leftover.Proofs.Validity

namespace Leftover

open Quantity

/-! ## Limits that are exceeded already -/

/-- The amount by which a value lies above a limit and above what it was before, if it does. -/
def pushedBeyond (limit before after : Exact) : Set Exact :=
  {x | larger limit before < after ∧ x = after - larger limit before}

theorem Exact.sub_sub_sub_finite (x : Exact) (a b : Rat) :
    x - .finite a - .finite (b - a) = x - .finite b := by
  cases x with
  | undefined | minusInfinity | plusInfinity => rfl
  | finite c =>
    simp only [Exact.finite_sub_finite]
    rw [sub_sub_sub_cancel_right]

/-- Above a limit and above what was there before, an insertion adds what lies above both. -/
theorem addedOverrun_of_lt {a b : Rat} {after : Exact} (above : .finite a < after) :
    addedOverrun (after - .finite a) (.finite b - .finite a) = after - larger (.finite a) (.finite b) := by
  have split_up : addedOverrun (after - .finite a) (.finite b - .finite a) = larger (after - .finite a) 0
      - larger (if isFinite (Exact.finite b - .finite a) then Exact.finite b - .finite a else 0) 0 := rfl
  have exceeded : larger (after - .finite a) 0 = after - .finite a :=
    Exact.larger_eq_left (Exact.sub_nonneg_of_lt above)
  have counted : larger (if isFinite (Exact.finite b - .finite a) then Exact.finite b - .finite a else 0) 0
      = .finite (max a b - a) := by
    rw [Exact.finite_sub_finite, Exact.isFinite_finite, if_pos rfl]
    refine (Exact.larger_finite (b - a) 0).trans ?_
    rw [max_comm a b, ← max_sub_sub_right, sub_self]
  rw [split_up, exceeded, counted, Exact.larger_finite, Exact.sub_sub_sub_finite]

/-- What an insertion adds beyond a limit is what lies above the limit and above what was there before. -/
theorem addedOverrun_eq {limit before : Exact} (ahead : IsAhead limit) (finite : isFinite before = true) (after : Exact) :
    {x | x = addedOverrun (after - limit) (before - limit) ∧ 0 < x} = pushedBeyond limit before after := by
  obtain ⟨b, rfl⟩ := Exact.isFinite_iff.mp finite
  obtain ⟨defined, not_least⟩ := Exact.isAhead_iff.mp ahead
  have positive : 0 < addedOverrun (after - limit) (.finite b - limit)
      ↔ limit < after ∧ (isFinite (.finite b - limit) = true → .finite b - limit < after - limit) := by
    rw [addedOverrun_pos_iff, Exact.sub_pos_iff]
  ext x
  show x = _ ∧ 0 < x ↔ larger limit (.finite b) < after ∧ x = _
  cases limit with
  | undefined => exact absurd rfl defined
  | minusInfinity => exact absurd rfl not_least
  | plusInfinity =>
    -- nothing lies above a limit that is infinite
    have none_above : ¬Exact.plusInfinity < after := by
      rw [Exact.lt_def]
      cases after <;> simp [Exact.lt]
    constructor
    · rintro ⟨rfl, added⟩
      exact absurd (positive.mp added).1 none_above
    · rintro ⟨above, -⟩
      exact absurd above none_above
  | finite a =>
    rw [Exact.sub_finite_lt_sub_finite] at positive
    have above_both : larger (.finite a) (.finite b) < after ↔ .finite a < after ∧ .finite b < after := by
      rw [Exact.larger_finite, Exact.finite_max_lt]
    rw [above_both]
    constructor
    · rintro ⟨rfl, added⟩
      obtain ⟨above, more⟩ := positive.mp added
      exact ⟨⟨above, more rfl⟩, addedOverrun_of_lt above⟩
    · rintro ⟨⟨above, more⟩, rfl⟩
      rw [← addedOverrun_of_lt above]
      exact ⟨rfl, positive.mpr ⟨above, fun _ => more⟩⟩

theorem isDefined_addedOverrun {after : Exact} (defined : after.IsDefined) (before : Exact) :
    (addedOverrun after before).IsDefined := by
  have finite : isFinite (larger (if isFinite before then before else 0) 0) = true := by
    refine Quantity.isFinite_larger ?_ rfl
    split
    · assumption
    · rfl
  obtain ⟨b, b_eq⟩ := Exact.isFinite_iff.mp finite
  show (larger after 0 - larger (if isFinite before then before else 0) 0).IsDefined
  rw [b_eq]
  exact Exact.isDefined_sub_finite (Exact.isDefined_larger defined Exact.isDefined_zero) b

/-! ## What a job adds to lateness -/

/-- What a job that is put in adds to the lateness of a route: its own lateness, the time by which it is served after the
shift if it has time windows, and as much as each later stop is later than it was. -/
inductive AddedDelay (s : RouteState Exact) (job : Job Exact) (k : Nat) (t : Schedule Exact) : Exact → Prop where
  | own {stop : ScheduledStop Exact} (served : t.stops[k]? = some stop) (late : 0 < stop.late) :
      AddedDelay s job k t stop.late
  | afterShift {stop : ScheduledStop Exact} (served : t.stops[k]? = some stop) (windows : job.windows ≠ [])
      (beyond : s.vehicle.shift.closes < stop.start) : AddedDelay s job k t (stop.start - s.vehicle.shift.closes)
  | later {j : Nat} {before after : ScheduledStop Exact} (was : s.base.stops[k + j]? = some before)
      (is : t.stops[k + 1 + j]? = some after) (later : before.late < after.late) :
      AddedDelay s job k t (after.late - before.late)

/-- Where no job occurs twice, the lateness of a job is that of its stop. -/
theorem RouteState.lateOf_eq {s : RouteState Exact} (distinct : (s.jobs.map (·.id)).Nodup)
    (serves : s.base.stops.map (·.job) = s.jobs) {stop : ScheduledStop Exact} (listed : stop ∈ s.base.stops) :
    s.lateOf stop.job.id = stop.late := by
  have names : (s.lateness.map (·.1)).Nodup := by
    rw [lateness, List.map_map]
    rw [← serves, List.map_map] at distinct
    exact distinct
  rw [lateOf, lastOf?_eq_some names (List.mem_map.mpr ⟨stop, listed, rfl⟩), Option.getD_some]

theorem RouteState.length_take_stops {s : RouteState Exact} (base_reachable : s.base.reachable = true) {k : Nat}
    (inside : k ≤ s.jobs.length) : (s.base.stops.take k).length = k := by
  rw [List.length_take, ← s.base.stops.length_map (f := (·.job)), jobs_of_walk s.walk_eq base_reachable,
    min_eq_left inside]

namespace Insertion

section

variable {s : RouteState Exact} (base_reachable : s.base.reachable = true) {job : Job Exact} {k : Nat}
  (inside : k ≤ s.jobs.length) {p : Problem Exact} {t : Schedule Exact}
  (scheduled : (⟨job, s, k, p⟩ : Insertion Exact).schedule = .ok t) (reachable : t.reachable = true)

include base_reachable inside scheduled reachable

/-- The route is driven anew from the job on. -/
theorem exists_walk : ∃ u, walk s.vehicle s.matrix (job :: s.jobs.drop k) (s.placeBefore k) s.origin.time = .ok u
    ∧ u.reachable = true ∧ t = u.after (s.base.stops.take k) := by
  have put_in : s.insertion job k = .ok t := scheduled
  rw [RouteState.insertion_natCast inside, RouteState.insertionAt, if_pos base_reachable] at put_in
  obtain ⟨u, walked, rfl⟩ := except_map_eq_ok.mp put_in
  exact ⟨u, walked, reachable, rfl⟩

/-- The stops before the job are as they were, the job is served on from there, and the later stops anew. -/
theorem exists_stops : ∃ minutes meters later, Quantity.isFinite (s.placeBefore k).time = true
    ∧ Quantity.isFinite minutes = true
    ∧ t.stops = s.base.stops.take k ++ serve (s.placeBefore k) job minutes meters :: later
    ∧ later.map (·.job) = s.jobs.drop k := by
  obtain ⟨u, walked, through, rfl⟩ := exists_walk base_reachable inside scheduled reachable
  obtain ⟨sets_out, home, driven, -⟩ := walk_eq_reachable walked through
  obtain ⟨minutes, meters, later, leg, driven_on, stops_eq⟩ := drive_cons_eq_some driven
  refine ⟨minutes, meters, later, sets_out, (leg?_eq_some leg).1, ?_, (drive_eq_some driven_on).1⟩
  rw [Schedule.after, stops_eq]

theorem endTime_isAhead (durations : ∀ j ∈ job :: s.jobs, 0 ≤ j.duration) : IsAhead t.endTime := by
  obtain ⟨u, walked, through, rfl⟩ := exists_walk base_reachable inside scheduled reachable
  rw [List.forall_mem_cons] at durations
  have ends := walk_isAhead walked through
    (List.forall_mem_cons.mpr ⟨durations.1, fun j member => durations.2 j (List.mem_of_mem_drop member)⟩)
  exact ends

end

/-! ## The checks -/

section

variable {s : RouteState Exact} {job : Job Exact} {k : Nat} {p : Problem Exact} {t : Schedule Exact}
  (scheduled : (⟨job, s, k, p⟩ : Insertion Exact).schedule = .ok t) (reachable : t.reachable = true)

include scheduled reachable

/-- The distance is judged by what the route is longer than its limit and than it was. -/
theorem checkMaxDistance_measures (base_finite : isFinite s.base.distance = true)
    (limits : ∀ limit ∈ s.vehicle.maxDistance, IsAhead limit) :
    ∃ e, (⟨job, s, k, p⟩ : Insertion Exact).checkMaxDistance = .ok e
      ∧ e.Measures {x | ∃ limit ∈ s.vehicle.maxDistance, x ∈ pushedBeyond limit s.base.distance t.distance} := by
  rw [checkMaxDistance]
  cases limited : s.vehicle.maxDistance with
  | none =>
    have limited' : (⟨job, s, k, p⟩ : Insertion Exact).vehicle.maxDistance = none := limited
    rw [limited']
    exact ⟨_, rfl, .satisfied (by simp)⟩
  | some limit =>
    have limited' : (⟨job, s, k, p⟩ : Insertion Exact).vehicle.maxDistance = some limit := limited
    have only : {x | ∃ limit' ∈ some limit, x ∈ pushedBeyond limit' s.base.distance t.distance}
        = pushedBeyond limit s.base.distance t.distance := by simp
    rw [limited', only, ← addedOverrun_eq (limits limit limited) base_finite]
    simp only [onSchedule_eq scheduled reachable]
    exact ⟨_, rfl, Evidence.measures_ofExcess_self _⟩

/-- The shift is judged by what the route ends later than the shift and than it did, and takes longer than its limit and
than it did. -/
theorem checkShiftTime_measures (base_ends : isFinite s.base.endTime = true)
    (base_lasts : isFinite s.base.duration = true) (ends : t.endTime.IsDefined) (shift : IsAhead s.vehicle.shift.closes)
    (bounded : isFinite s.vehicle.shift.closes = true ∨ isFinite t.endTime = true)
    (limits : ∀ limit ∈ s.vehicle.maxDuration, IsAhead limit) :
    ∃ e, (⟨job, s, k, p⟩ : Insertion Exact).checkShiftTime = .ok e
      ∧ e.Measures (pushedBeyond s.vehicle.shift.closes s.base.endTime t.endTime
        ∪ {x | ∃ limit ∈ s.vehicle.maxDuration, x ∈ pushedBeyond limit s.base.duration t.duration}) := by
  have by_shift := addedOverrun_eq shift base_ends t.endTime
  have shift_defined : (addedShift ⟨job, s, k, p⟩ t).IsDefined := by
    refine isDefined_addedOverrun ?_ _
    show (t.endTime - s.vehicle.shift.closes).IsDefined
    rcases bounded with finite | finite
    · obtain ⟨c, shift_eq⟩ := Exact.isFinite_iff.mp finite
      rw [shift_eq]
      exact Exact.isDefined_sub_finite ends c
    · obtain ⟨a, ends_eq⟩ := Exact.isFinite_iff.mp finite
      rw [ends_eq]
      exact Exact.isDefined_finite_sub (Exact.isAhead_iff.mp shift).1 a
  rw [checkShiftTime, onSchedule_eq scheduled reachable, ← by_shift]
  cases limited : s.vehicle.maxDuration with
  | none =>
    have limited' : (⟨job, s, k, p⟩ : Insertion Exact).vehicle.maxDuration = none := limited
    have only : {x : Exact | ∃ limit ∈ (none : Option Exact), x ∈ pushedBeyond limit s.base.duration t.duration} = ∅ := by
      simp
    rw [limited', only, Set.union_empty]
    exact ⟨_, rfl, Evidence.measures_ofExcess_self _⟩
  | some limit =>
    have limited' : (⟨job, s, k, p⟩ : Insertion Exact).vehicle.maxDuration = some limit := limited
    have only : {x | ∃ limit' ∈ some limit, x ∈ pushedBeyond limit' s.base.duration t.duration}
        = {x | x = addedOverrun (t.duration - limit) (s.base.duration - limit) ∧ 0 < x} := by
      rw [addedOverrun_eq (limits limit limited) base_lasts]
      simp
    have both : {x | x = addedShift ⟨job, s, k, p⟩ t ∧ 0 < x}
          ∪ {x | x = addedOverrun (t.duration - limit) (s.base.duration - limit) ∧ 0 < x}
        = {x | x ∈ [addedShift ⟨job, s, k, p⟩ t, addedOverrun (t.duration - limit) (s.base.duration - limit)] ∧ 0 < x} := by
      ext x
      simp only [Set.mem_union, Set.mem_ofPred_eq, List.mem_cons, List.not_mem_nil, or_false, or_and_right]
    rw [limited', only]
    refine ⟨_, rfl, ?_⟩
    show Evidence.Measures ({x | x = addedShift ⟨job, s, k, p⟩ t ∧ 0 < x} ∪ _) _
    rw [both]
    exact Evidence.measures_ofExcess shift_defined _

end

/-! ### Time windows -/

/-- The lateness of a stop is defined if the vehicle sets out for it at some finite time. -/
theorem serve_late_isDefined {here : Place Exact} (sets_out : isFinite here.time = true) {job : Job Exact}
    (closes : ∀ w ∈ job.windows, w.closes.IsDefined) {minutes : Exact} (minutes_finite : isFinite minutes = true)
    (meters : Exact) : (serve here job minutes meters).late.IsDefined := by
  obtain ⟨a, arrives⟩ := Exact.isFinite_iff.mp (Exact.isFinite_add sets_out minutes_finite)
  show (serviceStart job (here.time + minutes)).2.IsDefined
  rw [arrives, serviceStart]
  split
  · exact Exact.isDefined_zero
  split
  · exact Exact.isDefined_zero
  · refine Exact.isDefined_finite_sub (Exact.isDefined_largest Exact.isDefined_zero fun x listed => ?_) a
    obtain ⟨w, member, rfl⟩ := List.mem_map.mp listed
    exact closes w (Window.mem_byStart.mp member)

/-- What is above zero of the job's own lateness and of that of the later stops is what the job adds. -/
theorem addedDelay_iff {s : RouteState Exact} {job : Job Exact} {k : Nat} {p : Problem Exact} {t : Schedule Exact}
    {own : ScheduledStop Exact} {later : List (ScheduledStop Exact)} (served : t.stops[k]? = some own)
    (behind : ∀ j, t.stops[k + 1 + j]? = later[j]?)
    (paired : ∀ j after, later[j]? = some after → ∃ before, s.base.stops[k + j]? = some before
      ∧ s.lateOf after.job.id = before.late) {x : Exact} :
    x ∈ own.late :: ((if job.windows = [] then [] else [own.start - s.vehicle.shift.closes])
        ++ later.map (addedLateness ⟨job, s, k, p⟩)) ∧ 0 < x
      ↔ AddedDelay s job k t x := by
  rw [List.mem_cons, List.mem_append]
  constructor
  · rintro ⟨rfl | beyond | added, positive⟩
    · exact .own served positive
    · split at beyond
      · exact absurd beyond (by simp)
      · rename_i windows
        obtain rfl := List.mem_singleton.mp beyond
        exact .afterShift served windows (Exact.sub_pos_iff.mp positive)
    · obtain ⟨after, listed, rfl⟩ := List.mem_map.mp added
      obtain ⟨j, found⟩ := List.mem_iff_getElem?.mp listed
      obtain ⟨before, was, late_eq⟩ := paired j after found
      have added : 0 < after.late - s.lateOf after.job.id := positive
      show AddedDelay s job k t (after.late - s.lateOf after.job.id)
      rw [late_eq] at added ⊢
      exact .later was (by rw [behind, found]) (Exact.sub_pos_iff.mp added)
  · rintro (⟨served', late⟩ | ⟨served', windows, beyond⟩ | @⟨j, before, after, was, is, later'⟩)
    · rw [served, Option.some.injEq] at served'
      rw [served']
      exact ⟨Or.inl rfl, late⟩
    · rw [served, Option.some.injEq] at served'
      rw [if_neg windows, served']
      exact ⟨Or.inr (Or.inl (by simp)), Exact.sub_pos_iff.mpr beyond⟩
    · rw [behind] at is
      obtain ⟨before', was', late_eq⟩ := paired j after is
      rw [was, Option.some.injEq] at was'
      rw [← was'] at late_eq
      refine ⟨Or.inr (Or.inr (List.mem_map.mpr ⟨after, List.mem_of_getElem? is, ?_⟩)), Exact.sub_pos_iff.mpr later'⟩
      show after.late - s.lateOf after.job.id = _
      rw [late_eq]

section

variable {s : RouteState Exact} (base_reachable : s.base.reachable = true) {job : Job Exact} {k : Nat}
  (inside : k ≤ s.jobs.length) {p : Problem Exact} {t : Schedule Exact}
  (scheduled : (⟨job, s, k, p⟩ : Insertion Exact).schedule = .ok t) (reachable : t.reachable = true)

include base_reachable inside scheduled reachable

/-- The stops that lateness is judged by: the job's own, and the later ones, each with what it was before. -/
theorem exists_judged (distinct : (s.jobs.map (·.id)).Nodup) (closes : ∀ w ∈ job.windows, w.closes.IsDefined) :
    ∃ own later, t.stops.drop k = own :: later ∧ own.late.IsDefined
      ∧ ∀ j after, later[j]? = some after → ∃ before, s.base.stops[k + j]? = some before
        ∧ s.lateOf after.job.id = before.late := by
  obtain ⟨minutes, meters, later, sets_out, minutes_finite, stops_eq, later_jobs⟩ :=
    exists_stops base_reachable inside scheduled reachable
  have serves := jobs_of_walk s.walk_eq base_reachable
  refine ⟨_, later, by rw [stops_eq, List.drop_left' (RouteState.length_take_stops base_reachable inside)],
    serve_late_isDefined sets_out closes minutes_finite meters, fun j after found => ?_⟩
  have same : (later.map (·.job))[j]? = some after.job := by
    rw [List.getElem?_map, found]
    rfl
  rw [later_jobs, List.getElem?_drop, ← serves, List.getElem?_map] at same
  obtain ⟨before, was, job_eq⟩ := Option.map_eq_some_iff.mp same
  refine ⟨before, was, ?_⟩
  rw [← job_eq]
  exact RouteState.lateOf_eq distinct serves (List.mem_of_getElem? was)

/-- Lateness is judged by what the job adds to it. -/
theorem checkTimeWindow_measures (distinct : (s.jobs.map (·.id)).Nodup)
    (closes : ∀ w ∈ job.windows, w.closes.IsDefined) :
    ∃ e, (⟨job, s, k, p⟩ : Insertion Exact).checkTimeWindow = .ok e ∧ e.Measures {x | AddedDelay s job k t x} := by
  obtain ⟨own, later, rest, own_late, paired⟩ :=
    exists_judged base_reachable inside scheduled reachable distinct closes
  have served : t.stops[k]? = some own := by
    rw [← List.head?_drop, rest]
    rfl
  have behind : ∀ j, t.stops[k + 1 + j]? = later[j]? := by
    intro j
    rw [show k + 1 + j = k + (j + 1) by omega, ← List.getElem?_drop, rest, List.getElem?_cons_succ]
  have judged : (⟨job, s, k, p⟩ : Insertion Exact).checkTimeWindow
      = .ok (.ofExcess (((if job.windows = [] then [] else [own.start - s.vehicle.shift.closes])
        ++ later.map (addedLateness ⟨job, s, k, p⟩)).foldl larger own.late)) := by
    rw [checkTimeWindow, onSchedule_eq scheduled reachable]
    simp only [Int.toNat_natCast, rest, ownLateness, List.isEmpty_iff, List.foldl_append]
    split
    · rfl
    · rfl
  have amounts : {x | x ∈ own.late :: ((if job.windows = [] then [] else [own.start - s.vehicle.shift.closes])
      ++ later.map (addedLateness ⟨job, s, k, p⟩)) ∧ 0 < x} = {x | AddedDelay s job k t x} :=
    Set.ext fun x => addedDelay_iff served behind paired
  refine ⟨_, judged, ?_⟩
  rw [← amounts]
  exact Evidence.measures_ofExcess own_late _

end

/-! ### All three -/

end Insertion

namespace RouteState

/-- A shuttle that may not drive as far or as long as it does. -/
def lateShuttle : Vehicle Exact :=
  { shuttle with shift := ⟨.finite 0, .finite 15⟩, maxDistance := some (.finite 10), maxDuration := some (.finite 12) }

/-- The shuttle with a parcel that it delivers late. -/
def lateRoute : RouteState Exact where
  vehicle := lateShuttle
  matrix := twoPlaces
  jobs := [{ parcel "a" with windows := [⟨.finite 0, .finite 5⟩] }]
  origin := ⟨0, 0, 0⟩
  base := ⟨[⟨{ parcel "a" with windows := [⟨.finite 0, .finite 5⟩] }, .finite 7, .finite 7, .finite 12, .finite 2,
    .finite 9⟩], 0, .finite 19, .finite 18, true⟩
  walk_eq := by decide +kernel

/-- The shuttle with another parcel before that one. -/
def laterSchedule : Schedule Exact where
  stops := [⟨parcel "b", .finite 7, .finite 7, .finite 12, 0, .finite 9⟩,
    ⟨{ parcel "a" with windows := [⟨.finite 0, .finite 5⟩] }, .finite 12, .finite 12, .finite 17, .finite 7, .finite 9⟩]
  startTime := 0
  endTime := .finite 24
  distance := .finite 18
  reachable := true

/-- A shuttle whose shift never ends, but which may be under way for a hundred minutes only. -/
def tirelessShuttle : Vehicle Exact :=
  { shuttle with shift := ⟨.finite 0, .plusInfinity⟩, maxDuration := some (.finite 100) }

/-- That shuttle with one parcel. -/
def tirelessRoute : RouteState Exact where
  vehicle := tirelessShuttle
  matrix := twoPlaces
  jobs := [parcel "a"]
  origin := ⟨0, 0, 0⟩
  base := ⟨[⟨parcel "a", .finite 7, .finite 7, .finite 12, 0, .finite 9⟩], 0, .finite 19, .finite 18, true⟩
  walk_eq := by decide +kernel

/-- A parcel that takes forever. -/
def endlessWork : Job Exact := { parcel "b" with duration := .plusInfinity }

/-- The shuttle with that parcel after the other one. -/
def endlessSchedule : Schedule Exact where
  stops := [⟨parcel "a", .finite 7, .finite 7, .finite 12, 0, .finite 9⟩,
    ⟨endlessWork, .finite 12, .finite 12, .plusInfinity, 0, .finite 9⟩]
  startTime := 0
  endTime := .plusInfinity
  distance := .finite 18
  reachable := true

/-- A shuttle whose shift is over before any time. -/
def overdueShuttle : Vehicle Exact :=
  { shuttle with shift := ⟨.minusInfinity, .minusInfinity⟩, maxDuration := none }

/-- That shuttle, sent out all the same. -/
def overdueRoute : RouteState Exact :=
  { tirelessRoute with vehicle := overdueShuttle, walk_eq := by decide +kernel }

end RouteState

end Leftover
