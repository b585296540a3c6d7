/-
# Where a break is taken

What a break costs at some place of a route is worked out by pushing the delay through the stops that follow, until
waiting has taken it up. Driving the rest of the route anew after the break gives the same: a delay that is left is what
the new times are behind the old ones, and once none is left no stop is later than it was.

* `pushDelay_eq`, `walk_delayed` : a delay pushed through stops, and the stops driven anew
* `Schedule.HasGap`, `BreakCost` : where a break can be taken, and what it costs there
* `breakOverrun_isLeast` : the least of these costs
-/
import Leftover.Proofs.AcceptedRuns
import Leftover.Proofs.LaterStarts
import Leftover.Proofs.Paths
import Leftover.Proofs.Validity

namespace Leftover

/-! ## Beyond the end of the shift -/

section

variable {v : Vehicle Exact} (shift : Quantity.isFinite v.shift.closes = true)

include shift

theorem shiftExcess_isFinite {time : Exact} (h : Quantity.isFinite time = true) :
    Quantity.isFinite (shiftExcess v time) = true :=
  Quantity.isFinite_larger rfl (Exact.isFinite_sub h shift)

/-- A later end lies no less beyond the shift. -/
theorem shiftExcess_le {time time' : Exact} (h : time ≤ time') : shiftExcess v time ≤ shiftExcess v time' := by
  obtain ⟨closes, closes_eq⟩ := Exact.isFinite_iff.mp shift
  rw [shiftExcess, shiftExcess, closes_eq]
  exact Exact.larger_le_larger (Exact.le_refl Exact.isDefined_zero) (Exact.sub_finite_le_sub_finite h closes)

end

/-! ## Delays -/

/-- The same place, later. -/
def Place.delayed (here : Place Exact) (delay : Exact) : Place Exact := { here with time := here.time + delay }

/-- What is left of a delay: a later time is behind by that much, or not behind at all. -/
structure Behind (delay time time' : Exact) : Prop where
  finite : Quantity.isFinite delay = true
  left : 0 < delay → time' = time + delay
  none_left : delay ≤ 0 → time' ≤ time

theorem add_nonpos_le {time delay : Exact} (time_finite : Quantity.isFinite time = true)
    (delay_finite : Quantity.isFinite delay = true) (none_left : delay ≤ 0) : time + delay ≤ time := by
  obtain ⟨a, rfl⟩ := Exact.isFinite_iff.mp time_finite
  obtain ⟨d, rfl⟩ := Exact.isFinite_iff.mp delay_finite
  rw [Exact.finite_le_zero] at none_left
  rw [Exact.finite_add_finite, Exact.finite_le_finite]
  linarith

theorem Exact.add_sub_of_isFinite {x y : Exact} (hx : Quantity.isFinite x = true) (hy : Quantity.isFinite y = true) :
    x + (y - x) = y := by
  obtain ⟨a, rfl⟩ := Exact.isFinite_iff.mp hx
  obtain ⟨b, rfl⟩ := Exact.isFinite_iff.mp hy
  rw [Exact.finite_sub_finite, Exact.finite_add_finite, add_sub_cancel]

theorem behind_add {time delay : Exact} (time_finite : Quantity.isFinite time = true)
    (delay_finite : Quantity.isFinite delay = true) : Behind delay time (time + delay) :=
  ⟨delay_finite, fun _ => rfl, add_nonpos_le time_finite delay_finite⟩

/-- A stop that is reached later by a delay is left later by what the windows leave of the delay. -/
theorem serve_delayed {here : Place Exact} (sets_out : Quantity.isFinite here.time = true) {job : Job Exact}
    (finite : job.IsFinite) {minutes : Exact} (minutes_finite : Quantity.isFinite minutes = true) (meters : Exact)
    {delay : Exact} (delay_finite : Quantity.isFinite delay = true) :
    (serve (here.delayed delay) job minutes meters).arrival = (serve here job minutes meters).arrival + delay
      ∧ (serve (here.delayed delay) job minutes meters).place = (serve here job minutes meters).place.delayed
        ((serve (here.delayed delay) job minutes meters).start - (serve here job minutes meters).start) := by
  obtain ⟨a, time_eq⟩ := Exact.isFinite_iff.mp sets_out
  obtain ⟨d, rfl⟩ := Exact.isFinite_iff.mp delay_finite
  obtain ⟨t, rfl⟩ := Exact.isFinite_iff.mp minutes_finite
  obtain ⟨duration, duration_eq⟩ := Exact.isFinite_iff.mp finite.duration
  have sets_out' : Quantity.isFinite (here.delayed (.finite d)).time = true := Exact.isFinite_add sets_out rfl
  obtain ⟨start, start_eq⟩ := Exact.isFinite_iff.mp (serve_hasTimes sets_out finite minutes_finite meters).start
  obtain ⟨start', start_eq'⟩ := Exact.isFinite_iff.mp (serve_hasTimes sets_out' finite minutes_finite meters).start
  constructor
  · show here.time + .finite d + .finite t = here.time + .finite t + .finite d
    rw [time_eq]
    simp only [Exact.finite_add_finite]
    rw [add_right_comm]
  · have leaves : (serve (here.delayed (.finite d)) job (.finite t) meters).start + job.duration
        = (serve here job (.finite t) meters).start + job.duration
          + ((serve (here.delayed (.finite d)) job (.finite t) meters).start
            - (serve here job (.finite t) meters).start) := by
      rw [start_eq, start_eq', duration_eq]
      simp only [Exact.finite_add_finite, Exact.finite_sub_finite]
      congr 1
      ring
    exact congrArg (fun time => Place.mk job.location time (here.distance + meters)) leaves

/-! ## Delays through stops -/

/-- Where no delay is left, nothing is pushed any further. -/
theorem pushDelay_of_nonpos {α : Type} [Quantity α] {delay : α} (none_left : delay ≤ 0) (worst : α)
    (stops : List (ScheduledStop α)) : pushDelay worst delay stops = (worst, delay) := by
  cases stops with
  | nil => rfl
  | cons stop rest => rw [pushDelay, if_pos none_left]

/-- How much later each of some stops is than before. -/
def addedLateness (new old : List (ScheduledStop Exact)) : List Exact :=
  List.zipWith (fun after before => after.late - before.late) new old

theorem mem_addedLateness {new old : List (ScheduledStop Exact)} {x : Exact} :
    x ∈ addedLateness new old ↔ ∃ (j : Nat) (before after : ScheduledStop Exact),
      old[j]? = some before ∧ new[j]? = some after ∧ x = after.late - before.late := by
  simp only [addedLateness, List.mem_iff_getElem?, List.getElem?_zipWith_eq_some]
  constructor
  · rintro ⟨j, after, before, is, was, rfl⟩
    exact ⟨j, before, after, was, is, rfl⟩
  · rintro ⟨j, before, after, was, is, rfl⟩
    exact ⟨j, after, before, is, was, rfl⟩

theorem addedLateness_isFinite {new old : List (ScheduledStop Exact)} (new_timed : ∀ stop ∈ new, stop.HasTimes)
    (old_timed : ∀ stop ∈ old, stop.HasTimes) : ∀ x ∈ addedLateness new old, Quantity.isFinite x = true := by
  intro x listed
  obtain ⟨j, before, after, was, is, rfl⟩ := mem_addedLateness.mp listed
  exact Exact.isFinite_sub (new_timed after (List.mem_of_getElem? is)).late (old_timed before (List.mem_of_getElem? was)).late

/-- Stops that are nowhere later than before add no lateness. -/
theorem addedLateness_nonpos {new old : List (ScheduledStop Exact)}
    (earlier : List.Forall₂ ScheduledStop.NotAfter new old) (timed : ∀ stop ∈ old, stop.HasTimes) :
    ∀ x ∈ addedLateness new old, x ≤ 0 := by
  induction earlier with
  | nil => simp [addedLateness]
  | @cons a b new' old' first _ ih =>
    rw [List.forall_mem_cons] at timed
    obtain ⟨late, late_eq⟩ := Exact.isFinite_iff.mp timed.1.late
    rw [addedLateness, List.zipWith_cons_cons, List.forall_mem_cons]
    refine ⟨?_, ih timed.2⟩
    rw [late_eq, Exact.sub_finite_nonpos, ← late_eq]
    exact first.late

section

variable {m : Matrix Exact} {here last : Place Exact} {jobs : List (Job Exact)} {stops : List (ScheduledStop Exact)}
  (driven : drive m here jobs = .ok (stops, some last)) (sets_out : Quantity.isFinite here.time = true)
  (finite : ∀ job ∈ jobs, job.IsFinite) (ordered : ∀ job ∈ jobs, ∀ w ∈ job.windows, w.opens ≤ w.closes)
  {worst delay : Exact} (nonneg : 0 ≤ worst) (delay_finite : Quantity.isFinite delay = true)

include driven sets_out finite ordered nonneg delay_finite

/-- A drive that does not set out later is nowhere later, and no delay is pushed through its stops. -/
theorem pushDelay_eq_of_nonpos (none_left : delay ≤ 0) :
    ∃ stops' last', drive m (here.delayed delay) jobs = .ok (stops', some last') ∧ last'.location = last.location
      ∧ (pushDelay worst delay stops).1 = (addedLateness stops' stops).foldl Quantity.larger worst
      ∧ Behind (pushDelay worst delay stops).2 last.time last'.time := by
  have no_later : (here.delayed delay).NotAfter here := ⟨rfl, add_nonpos_le sets_out delay_finite none_left, rfl⟩
  obtain ⟨stops', last', driven', same⟩ := drive_of_location_eq driven no_later.location
  obtain ⟨⟨stops₁, last₁⟩, driven₁, earlier, end_earlier⟩ := drive_le no_later driven' finite ordered
  obtain ⟨rfl, rfl⟩ := Prod.mk.inj (Except.ok.inj (driven₁.symm.trans driven))
  rw [pushDelay_of_nonpos none_left]
  refine ⟨stops', last', driven', same, (Exact.foldl_larger_eq_self fun x listed => ?_).symm, ?_⟩
  · exact Exact.le_trans (addedLateness_nonpos earlier (drive_hasTimes driven sets_out finite).1 x listed) nonneg
  · cases end_earlier with
    | some end_earlier =>
      refine ⟨delay_finite, fun positive => ?_, fun _ => end_earlier.time⟩
      exact absurd (Exact.lt_of_lt_of_le positive none_left) (Exact.lt_irrefl 0)

/-- Pushing a delay through the stops of a drive comes to the same as driving anew, with the delay, from where the drive
sets out. -/
theorem pushDelay_eq :
    ∃ stops' last', drive m (here.delayed delay) jobs = .ok (stops', some last') ∧ last'.location = last.location
      ∧ (pushDelay worst delay stops).1 = (addedLateness stops' stops).foldl Quantity.larger worst
      ∧ Behind (pushDelay worst delay stops).2 last.time last'.time := by
  induction jobs generalizing here stops worst delay with
  | nil =>
    simp only [drive_nil, Except.ok.injEq, Prod.mk.injEq, Option.some.injEq] at driven
    obtain ⟨rfl, rfl⟩ := driven
    exact ⟨[], _, rfl, rfl, rfl, behind_add sets_out delay_finite⟩
  | cons job rest ih =>
    by_cases none_left : delay ≤ 0
    · exact pushDelay_eq_of_nonpos driven sets_out finite ordered nonneg delay_finite none_left
    obtain ⟨minutes, meters, later, leg, driven_on, rfl⟩ := drive_cons_eq_some driven
    rw [List.forall_mem_cons] at finite ordered
    have minutes_finite := (leg?_eq_some leg).1
    have leg' : leg? m (here.delayed delay).location job.location = .ok (some (minutes, meters)) := leg
    obtain ⟨arrives, leaves⟩ := serve_delayed sets_out finite.1 minutes_finite meters delay_finite
    have served := serve_hasTimes sets_out finite.1 minutes_finite meters
    have sets_out' : Quantity.isFinite (here.delayed delay).time = true := Exact.isFinite_add sets_out delay_finite
    have served' := serve_hasTimes sets_out' finite.1 minutes_finite meters
    -- the rest is driven from the stop as it is left now, which is behind by what is left of the delay
    obtain ⟨stops', last', driven', same, late, behind⟩ := ih driven_on served.departure finite.2 ordered.2
      (Exact.le_larger (y := (serve (here.delayed delay) job minutes meters).late - (serve here job minutes meters).late)
        nonneg)
      (Exact.isFinite_sub served'.start served.start)
    have pushed : pushDelay worst delay (serve here job minutes meters :: later)
        = pushDelay
          (Quantity.larger worst
            ((serve (here.delayed delay) job minutes meters).late - (serve here job minutes meters).late))
          ((serve (here.delayed delay) job minutes meters).start - (serve here job minutes meters).start) later := by
      rw [pushDelay, if_neg none_left, ← arrives]
      rfl
    refine ⟨serve (here.delayed delay) job minutes meters :: stops', last', ?_, same, ?_, ?_⟩
    · rw [drive_cons_of_some rest leg', leaves, driven']
      rfl
    · rw [pushed, late]
      rfl
    · rw [pushed]
      exact behind

end

/-! ## The rest of a route, driven anew -/

/-- The vehicle still arrives, behind by what was left of the delay. -/
theorem Behind.arrive? {v : Vehicle Exact} {m : Matrix Exact} {delay : Exact} {last last' home : Place Exact}
    (behind : Behind delay last.time last'.time) (same : last'.location = last.location)
    (last_finite : Quantity.isFinite last.time = true) (arrived : v.arrive? m last = .ok (some home)) :
    ∃ home', v.arrive? m last' = .ok (some home') ∧ Behind delay home.time home'.time := by
  rcases arrive?_eq_some arrived with ⟨isOpen, rfl⟩ | ⟨goal, minutes, meters, ends, leg, rfl⟩
  · exact ⟨last', arrive?_of_none m last' isOpen, behind⟩
  · obtain ⟨t, rfl⟩ := Exact.isFinite_iff.mp (leg?_eq_some leg).1
    obtain ⟨a, last_eq⟩ := Exact.isFinite_iff.mp last_finite
    obtain ⟨d, rfl⟩ := Exact.isFinite_iff.mp behind.finite
    rw [← same] at leg
    refine ⟨_, arrive?_of_leg ends leg, rfl, fun positive => ?_, fun none_left => ?_⟩
    · show last'.time + .finite t = last.time + .finite t + .finite d
      rw [behind.left positive, last_eq]
      simp only [Exact.finite_add_finite]
      rw [add_right_comm]
    · exact Exact.add_finite_le_add_finite (behind.none_left none_left) t

/-- A walk that sets out later passes its stops as a delay is pushed through them, and ends behind by what is left. -/
theorem walk_delayed {v : Vehicle Exact} {m : Matrix Exact} {jobs : List (Job Exact)} {here : Place Exact}
    {startTime : Exact} {s : Schedule Exact} (walked : walk v m jobs here startTime = .ok s) (reachable : s.reachable = true)
    (finite : ∀ job ∈ jobs, job.IsFinite) (ordered : ∀ job ∈ jobs, ∀ w ∈ job.windows, w.opens ≤ w.closes)
    {worst delay : Exact} (nonneg : 0 ≤ worst) (delay_finite : Quantity.isFinite delay = true) :
    ∃ t, walk v m jobs (here.delayed delay) startTime = .ok t ∧ t.reachable = true
      ∧ (pushDelay worst delay s.stops).1 = (addedLateness t.stops s.stops).foldl Quantity.larger worst
      ∧ Behind (pushDelay worst delay s.stops).2 s.endTime t.endTime := by
  obtain ⟨sets_out, home, driven, arrived, ends⟩ := walk_eq_reachable walked reachable
  have sets_out' : Quantity.isFinite (here.delayed delay).time = true := Exact.isFinite_add sets_out delay_finite
  obtain ⟨stops', last', driven', same, late, behind⟩ := pushDelay_eq driven sets_out finite ordered nonneg delay_finite
  obtain ⟨home', arrived', behind_home⟩ := behind.arrive? same (drive_hasTimes driven sets_out finite).2 arrived
  refine ⟨⟨stops', startTime, home'.time, home'.distance, true⟩, ?_, rfl, late, ?_⟩
  · rw [walk_of_isFinite sets_out', driven', except_ok_bind, closeRoute, arrived', except_map_ok]
  · rw [ends]
    exact behind_home

/-- A delay that is left when the vehicle arrives, and no other, lies beyond the shift. -/
theorem Behind.larger_shiftExcess {v : Vehicle Exact} (shift : Quantity.isFinite v.shift.closes = true)
    {delay worst time time' : Exact} (behind : Behind delay time time') (finite : Quantity.isFinite time = true)
    (nonneg : 0 ≤ worst) :
    Quantity.larger (if 0 < delay then Quantity.larger worst (shiftExcess v (time + delay) - shiftExcess v time) else worst) 0
      = Quantity.larger worst (shiftExcess v time' - shiftExcess v time) := by
  by_cases left : 0 < delay
  · rw [if_pos left, ← behind.left left, Exact.larger_eq_left (Exact.le_larger nonneg)]
  · rw [if_neg left, Exact.larger_eq_left nonneg]
    have none_left := (Exact.not_lt Exact.isDefined_zero (Exact.isDefined_of_isFinite behind.finite)).mp left
    obtain ⟨excess, excess_eq⟩ := Exact.isFinite_iff.mp (shiftExcess_isFinite shift finite)
    have no_more := shiftExcess_le shift (behind.none_left none_left)
    rw [excess_eq, ← Exact.sub_finite_nonpos, ← excess_eq] at no_more
    exact (Exact.larger_eq_left (Exact.le_trans no_more nonneg)).symm

/-! ## What a break costs -/

/-- What the stops of a route from one on are set back by when they are driven anew, as in another schedule: nothing at
least, as much as each of them is later than it was, and as much more as the route lies beyond the shift. -/
inductive Setback (v : Vehicle Exact) (s : Schedule Exact) (i : Nat) (t : Schedule Exact) : Exact → Prop where
  | nothing : Setback v s i t 0
  | late {j : Nat} {before after : ScheduledStop Exact} (was : s.stops[i + j]? = some before)
      (is : t.stops[j]? = some after) : Setback v s i t (after.late - before.late)
  | shift : Setback v s i t (shiftExcess v t.endTime - shiftExcess v s.endTime)

theorem setback_iff_mem (v : Vehicle Exact) (s t : Schedule Exact) (i : Nat) (x : Exact) :
    Setback v s i t x ↔ x ∈ (0 : Exact) :: (addedLateness t.stops (s.stops.drop i)
      ++ [shiftExcess v t.endTime - shiftExcess v s.endTime]) := by
  simp only [List.mem_cons, List.mem_append, mem_addedLateness, List.getElem?_drop, List.not_mem_nil, or_false]
  constructor
  · rintro (_ | ⟨was, is⟩ | _)
    · exact Or.inl rfl
    · exact Or.inr (Or.inl ⟨_, _, _, was, is, rfl⟩)
    · exact Or.inr (Or.inr rfl)
  · rintro (rfl | ⟨j, before, after, was, is, rfl⟩ | rfl)
    · exact .nothing
    · exact .late was is
    · exact .shift

theorem isGreatest_setback {v : Vehicle Exact} (shift : Quantity.isFinite v.shift.closes = true) {s t : Schedule Exact}
    {i : Nat} (was : (∀ stop ∈ s.stops.drop i, stop.HasTimes) ∧ Quantity.isFinite s.endTime = true)
    (is : (∀ stop ∈ t.stops, stop.HasTimes) ∧ Quantity.isFinite t.endTime = true) :
    IsGreatest {y | Setback v s i t y} ((addedLateness t.stops (s.stops.drop i)
      ++ [shiftExcess v t.endTime - shiftExcess v s.endTime]).foldl Quantity.larger 0) := by
  simp only [setback_iff_mem]
  refine OrderedQuantity.isGreatest_foldl_larger fun x listed =>
    Exact.isUndefined_eq_false.mpr (Exact.isDefined_of_isFinite ?_)
  rw [List.mem_cons, List.mem_append, List.mem_singleton] at listed
  rcases listed with rfl | listed | rfl
  · rfl
  · exact addedLateness_isFinite is.1 was.1 x listed
  · exact Exact.isFinite_sub (shiftExcess_isFinite shift is.2) (shiftExcess_isFinite shift was.2)

/-- What a break costs that is taken before one of the stops of a route: how far it misses its window, or the greatest
setback of the rest of the route, driven anew from where the vehicle is to when the break is over. -/
inductive BreakCost (v : Vehicle Exact) (m : Matrix Exact) (b : Break Exact) (jobs : List (Job Exact)) (s : Schedule Exact)
    (there : Place Exact) (i : Nat) : Exact → Prop where
  | missed (too_late : b.window.closes < Quantity.larger there.time b.window.opens) :
      BreakCost v m b jobs s there i (Quantity.larger there.time b.window.opens - b.window.closes)
  | taken {t : Schedule Exact} {x : Exact} (in_time : ¬b.window.closes < Quantity.larger there.time b.window.opens)
      (anew : walk v m (jobs.drop i)
        ⟨there.location, Quantity.larger there.time b.window.opens + b.duration, there.distance⟩ s.startTime = .ok t)
      (reachable : t.reachable = true) (serves : t.stops.map (·.job) = jobs.drop i)
      (greatest : IsGreatest {y | Setback v s i t y} x) : BreakCost v m b jobs s there i x

/-! ## Gaps -/

/-- Before which stops of a route a break can be taken: before the first one, and after each that allows it. -/
inductive Schedule.HasGap (s : Schedule Exact) : Nat → Prop where
  | start : s.HasGap 0
  | after {k : Nat} {stop : ScheduledStop Exact} (there : s.stops[k]? = some stop)
      (eligible : stop.job.breakEligible = true) : s.HasGap (k + 1)

theorem mem_gapsAfter {stops : List (ScheduledStop Exact)} {leaves : Exact} {rest : List (ScheduledStop Exact)} :
    (leaves, rest) ∈ gapsAfter stops ↔ ∃ k stop, stops[k]? = some stop ∧ stop.job.breakEligible = true
      ∧ leaves = stop.departure ∧ rest = stops.drop (k + 1) := by
  induction stops with
  | nil => simp [gapsAfter]
  | cons first others ih =>
    have listed : (leaves, rest) ∈ gapsAfter (first :: others) ↔
        (first.job.breakEligible = true ∧ leaves = first.departure ∧ rest = others)
          ∨ (leaves, rest) ∈ gapsAfter others := by
      rw [gapsAfter]
      split
      · rename_i eligible
        rw [List.mem_cons, Prod.mk.injEq]
        simp only [eligible, true_and]
      · rename_i not_eligible
        simp only [not_eligible, false_and, false_or, Bool.false_eq_true]
    rw [listed, ih]
    constructor
    · rintro (⟨eligible, rfl, rfl⟩ | ⟨k, stop, there, eligible, rfl, rfl⟩)
      · exact ⟨0, first, rfl, eligible, rfl, rfl⟩
      · exact ⟨k + 1, stop, there, eligible, rfl, rfl⟩
    · rintro ⟨k, stop, there, eligible, rfl, rfl⟩
      cases k with
      | zero =>
        obtain rfl := Option.some.inj there
        exact Or.inl ⟨eligible, rfl, rfl⟩
      | succ k => exact Or.inr ⟨k, stop, there, eligible, rfl, rfl⟩

theorem placeAfter_take_succ {α : Type} (here : Place α) {stops : List (ScheduledStop α)} {k : Nat}
    {stop : ScheduledStop α} (there : stops[k]? = some stop) : placeAfter here (stops.take (k + 1)) = stop.place := by
  rw [placeAfter_eq_getLast?, List.take_add_one, there, Option.toList_some, List.getLast?_concat]
  rfl

/-- The overruns of a break on the way are those at the gaps of a route. -/
theorem mem_overrunsOnTheWay {s : Schedule Exact} {v : Vehicle Exact} {b : Break Exact} {here : Place Exact}
    (begins : s.startTime = here.time) {x : Exact} :
    x ∈ overrunsOnTheWay s v b ↔
      ∃ i, s.HasGap i ∧ x = overrunBefore s v b (placeAfter here (s.stops.take i)).time (s.stops.drop i) := by
  rw [overrunsOnTheWay, List.map_cons, List.mem_cons, List.mem_map]
  constructor
  · rintro (rfl | ⟨⟨leaves, rest⟩, listed, rfl⟩)
    · refine ⟨0, .start, ?_⟩
      rw [begins]
      rfl
    · obtain ⟨k, stop, there, eligible, rfl, rfl⟩ := mem_gapsAfter.mp listed
      refine ⟨k + 1, .after there eligible, ?_⟩
      rw [placeAfter_take_succ here there]
      rfl
  · rintro ⟨i, gap, rfl⟩
    cases gap with
    | start =>
      rw [begins]
      exact Or.inl rfl
    | @after k stop there eligible =>
      refine Or.inr ⟨_, mem_gapsAfter.mpr ⟨k, stop, there, eligible, rfl, rfl⟩, ?_⟩
      rw [placeAfter_take_succ here there]
      rfl

/-! ## The best placement -/

section

variable {v : Vehicle Exact} {m : Matrix Exact} {jobs : List (Job Exact)} {here : Place Exact} {s : Schedule Exact}
  (walked : walk v m jobs here here.time = .ok s) (reachable : s.reachable = true)
  (finite : ∀ job ∈ jobs, job.IsFinite) (ordered : ∀ job ∈ jobs, ∀ w ∈ job.windows, w.opens ≤ w.closes)
  (shift : Quantity.isFinite v.shift.closes = true) {b : Break Exact} (opens : Quantity.isFinite b.window.opens = true)
  (closes : Quantity.isFinite b.window.closes = true) (lasts : Quantity.isFinite b.duration = true)

include walked reachable finite ordered shift opens lasts

/-- The overrun of a break is what it costs, at every place of a route. -/
theorem breakCost_overrunBefore (i : Nat) :
    BreakCost v m b jobs s (placeAfter here (s.stops.take i)) i
      (overrunBefore s v b (placeAfter here (s.stops.take i)).time (s.stops.drop i)) := by
  have finite_on : ∀ job ∈ jobs.drop i, job.IsFinite := fun job member => finite job (List.mem_of_mem_drop member)
  have leaves : Quantity.isFinite (placeAfter here (s.stops.take i)).time = true := by
    obtain ⟨sets_out, home, driven, -⟩ := walk_eq_reachable walked reachable
    exact (drive_hasTimes (drive_take driven i) sets_out fun job member => finite job (List.mem_of_mem_take member)).2
  have rest := walk_drop walked reachable leaves
  generalize placeAfter here (s.stops.take i) = there at leaves rest ⊢
  by_cases too_late : b.window.closes < Quantity.larger there.time b.window.opens
  · rw [overrunBefore, if_pos too_late]
    exact .missed too_late
  have resumes := Exact.isFinite_add (Quantity.isFinite_larger leaves opens) lasts
  have zero : (0 : Exact) ≤ 0 := Exact.le_refl Exact.isDefined_zero
  obtain ⟨t, anew, through, late, behind⟩ := walk_delayed rest reachable finite_on
    (fun job member => ordered job (List.mem_of_mem_drop member)) zero (Exact.isFinite_sub resumes leaves)
  rw [Place.delayed, Exact.add_sub_of_isFinite leaves resumes, ← startTime_of_walk walked reachable] at anew
  have was : (∀ stop ∈ s.stops.drop i, stop.HasTimes) ∧ Quantity.isFinite s.endTime = true :=
    walk_hasTimes rest reachable finite_on
  have greatest : overrunBefore s v b there.time (s.stops.drop i)
      = (addedLateness t.stops (s.stops.drop i)
        ++ [shiftExcess v t.endTime - shiftExcess v s.endTime]).foldl Quantity.larger 0 := by
    rw [overrunBefore, if_neg too_late, List.foldl_append, ← late]
    exact behind.larger_shiftExcess shift was.2 (le_pushDelay zero _ _)
  refine .taken too_late anew through (jobs_of_walk anew through) ?_
  rw [greatest]
  exact isGreatest_setback shift was (walk_hasTimes anew through finite_on)

end

section

variable {v : Vehicle Exact} {s : Schedule Exact} {b : Break Exact} (shift : Quantity.isFinite v.shift.closes = true)
  (ends : Quantity.isFinite s.endTime = true) (opens : Quantity.isFinite b.window.opens = true)
  (closes : Quantity.isFinite b.window.closes = true) (lasts : Quantity.isFinite b.duration = true)

include shift ends opens closes lasts

/-- The overruns that the one at the end of a route is the largest of. -/
theorem overrunsAtEnd_isFinite : ∀ x ∈ [0, Quantity.larger s.endTime b.window.opens - b.window.closes,
    shiftExcess v (Quantity.larger s.endTime b.window.opens + b.duration) - shiftExcess v s.endTime],
    Quantity.isFinite x = true := by
  have begins := Quantity.isFinite_larger ends opens
  have later := shiftExcess_isFinite shift (Exact.isFinite_add begins lasts)
  simp only [List.forall_mem_cons]
  exact ⟨rfl, Exact.isFinite_sub begins closes, Exact.isFinite_sub later (shiftExcess_isFinite shift ends), by simp⟩

/-- What a break costs that is taken when the vehicle has arrived: nothing at least, how far it misses its window, and
as much more as the route lies beyond the shift. -/
theorem overrunAtEnd_isGreatest :
    IsGreatest {0, Quantity.larger s.endTime b.window.opens - b.window.closes,
        shiftExcess v (Quantity.larger s.endTime b.window.opens + b.duration) - shiftExcess v s.endTime}
      (overrunAtEnd s v b) := by
  have greatest := OrderedQuantity.isGreatest_foldl_larger fun x listed => Exact.isUndefined_eq_false.mpr
    (Exact.isDefined_of_isFinite (overrunsAtEnd_isFinite shift ends opens closes lasts x listed))
  simp only [List.mem_cons, List.not_mem_nil, or_false] at greatest
  exact greatest

end

/-- The overrun of a break that is due on a route is the least of its overruns on the way and at the end. -/
theorem isLeast_insert_overrunsOnTheWay {s : Schedule Exact} (reachable : s.reachable = true) {v : Vehicle Exact}
    {b : Break Exact} (due : ¬s.endTime < b.window.opens) (at_end : Quantity.isFinite (overrunAtEnd s v b) = true) :
    IsLeast (insert (overrunAtEnd s v b) {x | x ∈ overrunsOnTheWay s v b}) (breakOverrun s v b) := by
  have defined : ∀ x ∈ Quantity.infinity :: (overrunsOnTheWay s v b ++ [overrunAtEnd s v b]), Exact.IsDefined x := by
    intro x listed
    rw [List.mem_cons, List.mem_append, List.mem_singleton] at listed
    rcases listed with rfl | listed | rfl
    · simp [Exact.IsDefined, Quantity.infinity]
    · obtain ⟨⟨leaves, rest⟩, -, rfl⟩ := List.mem_map.mp listed
      exact (Exact.isDefined_of_le (overrunBefore_nonneg s v b leaves rest)).2
    · exact Exact.isDefined_of_isFinite at_end
  have chosen : breakOverrun s v b
      = (overrunsOnTheWay s v b ++ [overrunAtEnd s v b]).foldl Quantity.smaller Quantity.infinity := by
    rw [breakOverrun, reachable, decide_eq_false due, List.foldl_append]
    rfl
  obtain ⟨member, below⟩ := Exact.isLeast_foldl_smaller defined
  rw [← chosen] at member below
  have below_end : breakOverrun s v b ≤ overrunAtEnd s v b := below (by simp)
  constructor
  · -- the infinite overrun that the search sets out from is not the least, as the one at the end is finite
    have member : breakOverrun s v b ∈ Quantity.infinity :: (overrunsOnTheWay s v b ++ [overrunAtEnd s v b]) := member
    rw [List.mem_cons, List.mem_append, List.mem_singleton] at member
    rcases member with infinite | listed | same
    · obtain ⟨e, e_eq⟩ := Exact.isFinite_iff.mp at_end
      rw [infinite, e_eq] at below_end
      exact absurd below_end (by simp [Exact.le_def, Exact.le, Exact.lt, Quantity.infinity])
    · exact Or.inr listed
    · exact Or.inl same
  · rintro z (rfl | listed)
    · exact below_end
    · exact below (List.mem_cons_of_mem _ (List.mem_append_left _ listed))

/-- The overrun of a break is the least of what it costs at the gaps of a route, the rest of the route driven anew after
the break, and at its end. A break that is not due before the route is over costs nothing. -/
theorem breakOverrun_isLeast {v : Vehicle Exact} {m : Matrix Exact} {jobs : List (Job Exact)} {here : Place Exact}
    {s : Schedule Exact} (walked : walk v m jobs here here.time = .ok s) (reachable : s.reachable = true)
    (finite : ∀ job ∈ jobs, job.IsFinite) (ordered : ∀ job ∈ jobs, ∀ w ∈ job.windows, w.opens ≤ w.closes)
    (shift : Quantity.isFinite v.shift.closes = true) {b : Break Exact} (opens : Quantity.isFinite b.window.opens = true)
    (closes : Quantity.isFinite b.window.closes = true) (lasts : Quantity.isFinite b.duration = true) :
    (s.endTime < b.window.opens → breakOverrun s v b = 0)
      ∧ (¬s.endTime < b.window.opens → ∃ (cost : Nat → Exact) (at_end : Exact),
        (∀ i, s.HasGap i → BreakCost v m b jobs s (placeAfter here (s.stops.take i)) i (cost i))
          ∧ IsGreatest {0, Quantity.larger s.endTime b.window.opens - b.window.closes,
              shiftExcess v (Quantity.larger s.endTime b.window.opens + b.duration) - shiftExcess v s.endTime} at_end
          ∧ IsLeast (insert at_end {x | ∃ i, s.HasGap i ∧ x = cost i}) (breakOverrun s v b)) := by
  constructor
  · intro ended
    rw [breakOverrun, reachable, decide_eq_true ended]
    rfl
  · intro due
    have begins := startTime_of_walk walked reachable
    have ends := (walk_hasTimes walked reachable finite).2
    have at_end := overrunAtEnd_isGreatest shift ends opens closes lasts
    refine ⟨fun i => overrunBefore s v b (placeAfter here (s.stops.take i)).time (s.stops.drop i), overrunAtEnd s v b,
      fun i _ => breakCost_overrunBefore walked reachable finite ordered shift opens lasts i, at_end, ?_⟩
    have at_end_finite := overrunsAtEnd_isFinite shift ends opens closes lasts _ (by simpa using at_end.1)
    have least := isLeast_insert_overrunsOnTheWay reachable due at_end_finite
    simpa only [mem_overrunsOnTheWay begins] using least

open RouteState in
theorem breakOverrun_isLeast_shuttle :
    ¬shuttleRoute.base.endTime < .finite 8 ∧ ∃ (cost : Nat → Exact) (at_end : Exact),
      (∀ i, shuttleRoute.base.HasGap i → BreakCost shuttle twoPlaces ⟨⟨.finite 8, .finite 9⟩, .finite 287⟩ [parcel "a"]
        shuttleRoute.base (placeAfter ⟨0, 0, 0⟩ (shuttleRoute.base.stops.take i)) i (cost i))
        ∧ IsLeast (insert at_end {x | ∃ i, shuttleRoute.base.HasGap i ∧ x = cost i}) (.finite 2) := by
  have overrun : breakOverrun shuttleRoute.base shuttleRoute.vehicle ⟨⟨.finite 8, .finite 9⟩, .finite 287⟩ = .finite 2 := by
    decide +kernel
  have due : ¬shuttleRoute.base.endTime < .finite 8 := by decide
  obtain ⟨cost, at_end, costs, -, least⟩ := (breakOverrun_isLeast (b := ⟨⟨.finite 8, .finite 9⟩, .finite 287⟩)
    shuttleRoute.walk_eq rfl (by simp [shuttleRoute, isFinite_parcel]) (by simp [shuttleRoute, parcel]) rfl rfl rfl
    rfl).2 due
  rw [overrun] at least
  exact ⟨due, cost, at_end, costs, least⟩

end Leftover
