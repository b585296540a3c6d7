/-
# Limits that are exceeded

An audit goes through the routes one after the other and finds just those limits of their vehicles that are set and that
a total exceeds: meters, minutes and stops, in this order. A total is the reported one, or else that of the route as it is
worked out, which is the route that an evaluator holds for the vehicle. A route that is worked out to have no path has
endless totals, and exceeds every finite limit on a total that is not reported.

* `Route.Total` : a total as it is reported or worked out
* `Vehicle.Finds` : the violation of a limit, if there is one
* `limitViolations_eq_ok_iff` : what an audit finds
* `limitViolations_exact` : the same, beside an evaluator, and on routes without a path
-/
import Leftover.Proofs.Audits
import Leftover.Proofs.Doubles
import Leftover.Proofs.ExactOrder

namespace Leftover

/-! ## Infinity -/

/-- A type of numbers in which infinity is more than any finite one, and stays infinity when a finite one is taken
away. -/
class Endless (α : Type) [Quantity α] : Prop where
  lt_infinity (x : α) : Quantity.isFinite x = true → x < Quantity.infinity
  infinity_sub (x : α) : Quantity.isFinite x = true → Quantity.infinity - x = (Quantity.infinity : α)

instance : Endless Exact where
  lt_infinity x finite := by
    obtain ⟨a, rfl⟩ := Exact.isFinite_iff.mp finite
    rfl
  infinity_sub x finite := by
    obtain ⟨a, rfl⟩ := Exact.isFinite_iff.mp finite
    rfl

instance : Endless Float where
  lt_infinity _ := float_lt_infinity
  infinity_sub _ := float_infinity_sub

variable {α : Type} [Quantity α] {p : Problem α} {v : Vehicle α} {r : Route α}

/-! ## Totals -/

/-- A total of a route: as it is told, or else the figure of its schedule as the route is worked out. -/
inductive Route.Total (p : Problem α) (v : Vehicle α) (r : Route α) (figure : Schedule α → α) : Option α → α → Prop where
  | reported (x : α) : Total p v r figure (some x) x
  | worked_out {state : RouteState α} (worked : r.WorksOutTo p v state) : Total p v r figure none (figure state.base)

theorem Route.Total.of_none {figure : Schedule α → α} {x : α} (total : r.Total p v figure none x) :
    ∃ state, r.WorksOutTo p v state ∧ x = figure state.base := by
  cases total with
  | worked_out worked => exact ⟨_, worked, rfl⟩

theorem Route.Total.of_some {figure : Schedule α → α} {x y : α} (total : r.Total p v figure (some y) x) : x = y := by
  cases total with
  | reported => rfl

/-- A total is the told one, or that of the route as it is worked out, whichever way it is found. -/
theorem Route.WorksOutTo.total {state : RouteState α} (worked : r.WorksOutTo p v state) (figure : Schedule α → α)
    (told : Option α) : r.Total p v figure told (told.getD (figure state.base)) := by
  cases told with
  | none => exact .worked_out worked
  | some x => exact .reported x

theorem Route.Total.eq_getD {state : RouteState α} (worked : r.WorksOutTo p v state) {figure : Schedule α → α}
    {told : Option α} {x : α} (total : r.Total p v figure told x) : x = told.getD (figure state.base) := by
  cases total with
  | reported => rfl
  | worked_out worked' =>
    obtain rfl := worked.unique worked'
    rfl

/-- The meters and the minutes of a route are its totals. -/
theorem routeTotals_eq_ok {distance duration : α} :
    routeTotals p v r = .ok (distance, duration)
      ↔ r.Total p v Schedule.distance r.distance distance ∧ r.Total p v Schedule.duration r.duration duration := by
  -- where one of them is not told the route is worked out, and the other one is looked up only if it is not told either
  have worked_out : (do
      let jobs ← r.jobIds.mapM p.job
      let m ← p.matrixFor v
      let state ← RouteState.build v m jobs r.startTime
      return (r.distance.getD state.base.distance, r.duration.getD state.base.duration)) = .ok (distance, duration)
      ↔ ∃ state, r.WorksOutTo p v state ∧ r.distance.getD state.base.distance = distance
        ∧ r.duration.getD state.base.duration = duration := by
    simp only [except_bind_eq_ok, except_pure, Except.ok.injEq, Prod.mk.injEq]
    constructor
    · rintro ⟨jobs, served, m, matrix, state, built, totals⟩
      exact ⟨state, ⟨jobs, m, served, matrix, built⟩, totals⟩
    · rintro ⟨state, ⟨jobs, m, served, matrix, built⟩, totals⟩
      exact ⟨jobs, served, m, matrix, state, built, totals⟩
  unfold routeTotals
  split
  · rename_i told told' distance_told duration_told
    rw [distance_told, duration_told, Except.ok.injEq, Prod.mk.injEq]
    constructor
    · rintro ⟨rfl, rfl⟩
      exact ⟨.reported _, .reported _⟩
    · rintro ⟨total, total'⟩
      exact ⟨total.of_some.symm, total'.of_some.symm⟩
  · rename_i not_both
    rw [worked_out]
    constructor
    · rintro ⟨state, worked, rfl, rfl⟩
      exact ⟨worked.total _ _, worked.total _ _⟩
    · rintro ⟨total, total'⟩
      have worked : ∃ state, r.WorksOutTo p v state := by
        cases told : r.distance with
        | none =>
          rw [told] at total
          obtain ⟨state, worked, -⟩ := total.of_none
          exact ⟨state, worked⟩
        | some x =>
          cases told' : r.duration with
          | none =>
            rw [told'] at total'
            obtain ⟨state, worked, -⟩ := total'.of_none
            exact ⟨state, worked⟩
          | some y => exact absurd told' (not_both x y told)
      obtain ⟨state, worked⟩ := worked
      exact ⟨state, worked, (total.eq_getD worked).symm, (total'.eq_getD worked).symm⟩

/-! ## Violations -/

/-- What is found for a limit of a vehicle: a violation with the bound and the total just when the limit is set and the
total is strictly above it. -/
def Vehicle.Finds {β : Type} [LT β] (v : Vehicle α) (limit : Limit) (figure : β → α) (bound : Option β) (total : β)
    (found : Option (LimitViolation α)) : Prop :=
  ∀ violation, found = some violation
    ↔ ∃ most, bound = some most ∧ most < total ∧ violation = ⟨v.id, limit, figure most, figure total⟩

omit [Quantity α] in
theorem Vehicle.Finds.unique {β : Type} [LT β] {limit : Limit} {figure : β → α} {bound : Option β} {total : β}
    {found found' : Option (LimitViolation α)} (finds : v.Finds limit figure bound total found)
    (finds' : v.Finds limit figure bound total found') : found = found' := by
  refine Option.ext fun violation => ?_
  rw [finds violation, finds' violation]

omit [Quantity α] in
/-- A bound is set against a total. -/
theorem exists_found {β : Type} [LT β] [DecidableLT β] (v : Vehicle α) (limit : Limit) (figure : β → α) (bound : Option β)
    (total : β) :
    ∃ found, (bound.elim [] fun most => if most < total then [⟨v.id, limit, figure most, figure total⟩] else [])
      = found.toList ∧ v.Finds limit figure bound total found := by
  cases bound with
  | none => exact ⟨none, rfl, fun violation => by simp⟩
  | some most =>
    by_cases exceeds : most < total
    · refine ⟨some ⟨v.id, limit, figure most, figure total⟩, by simp [exceeds], fun violation => ?_⟩
      simp [exceeds, eq_comm]
    · exact ⟨none, by simp [exceeds], fun violation => by simp [exceeds]⟩

/-- The meters or minutes of a route are set against their limit. -/
theorem exists_exceeding (v : Vehicle α) (limit : Limit) (bound : Option α) (total : α) :
    ∃ found, exceeding v limit bound total = found.toList ∧ v.Finds limit id bound total found := by
  obtain ⟨found, found_eq, finds⟩ := exists_found v limit id bound total
  refine ⟨found, ?_, finds⟩
  rw [← found_eq]
  cases bound <;> rfl

/-- The stops of a route are set against their limit. -/
theorem exists_exceedingSize (v : Vehicle α) (stops : Nat) :
    ∃ found, exceedingSize v stops = found.toList ∧ v.Finds .tourSize Quantity.ofNat v.maxTourSize stops found := by
  obtain ⟨found, found_eq, finds⟩ := exists_found v .tourSize Quantity.ofNat v.maxTourSize stops
  refine ⟨found, ?_, finds⟩
  rw [← found_eq, exceedingSize]
  cases v.maxTourSize <;> rfl

/-- What an audit finds on a route: the violations of the limits on meters, minutes and stops, in this order. -/
def Route.IsAudited (p : Problem α) (r : Route α) (violations : List (LimitViolation α)) : Prop :=
  ∃ v distance duration far long large, p.vehicle r.vehicleId = .ok v
    ∧ r.Total p v Schedule.distance r.distance distance ∧ r.Total p v Schedule.duration r.duration duration
    ∧ v.Finds .distance id v.maxDistance distance far ∧ v.Finds .shiftTime id v.maxDuration duration long
    ∧ v.Finds .tourSize Quantity.ofNat v.maxTourSize r.stops.length large
    ∧ violations = far.toList ++ long.toList ++ large.toList

theorem routeViolations_eq_ok {violations : List (LimitViolation α)} :
    routeViolations p r = .ok violations ↔ r.IsAudited p violations := by
  simp only [routeViolations, except_bind_eq_ok, except_pure, Except.ok.injEq]
  constructor
  · rintro ⟨v, driver, ⟨distance, duration⟩, totals, rfl⟩
    obtain ⟨total, total'⟩ := routeTotals_eq_ok.mp totals
    obtain ⟨far, far_eq, finds_far⟩ := exists_exceeding v .distance v.maxDistance distance
    obtain ⟨long, long_eq, finds_long⟩ := exists_exceeding v .shiftTime v.maxDuration duration
    obtain ⟨large, large_eq, finds_large⟩ := exists_exceedingSize v r.stops.length
    refine ⟨v, distance, duration, far, long, large, driver, total, total', finds_far, finds_long, finds_large, ?_⟩
    rw [far_eq, long_eq, large_eq]
  · rintro ⟨v, distance, duration, far, long, large, driver, total, total', finds_far, finds_long, finds_large, rfl⟩
    obtain ⟨far', far_eq, finds_far'⟩ := exists_exceeding v .distance v.maxDistance distance
    obtain ⟨long', long_eq, finds_long'⟩ := exists_exceeding v .shiftTime v.maxDuration duration
    obtain ⟨large', large_eq, finds_large'⟩ := exists_exceedingSize v r.stops.length
    refine ⟨v, driver, (distance, duration), routeTotals_eq_ok.mpr ⟨total, total'⟩, ?_⟩
    rw [far_eq, long_eq, large_eq, finds_far.unique finds_far', finds_long.unique finds_long',
      finds_large.unique finds_large']

/-! ## The audit of a solution -/

/-- An audit goes through if one of each route does, and finds what these find, route by route. -/
theorem limitViolations_eq_ok_iff {s : Solution α} {violations : List (LimitViolation α)} :
    limitViolations p s = .ok violations
      ↔ ∃ lists, List.Forall₂ (fun r found => r.IsAudited p found) s.routes lists ∧ violations = lists.flatten := by
  simp only [limitViolations, except_bind_eq_ok, except_mapM_eq_ok, routeViolations_eq_ok, except_pure, Except.ok.injEq]
  simp only [eq_comm]

/-- What is found on a route is found by the audit. -/
theorem exists_audit_of_mem {s : Solution α} {violations : List (LimitViolation α)}
    (audited : limitViolations p s = .ok violations) (listed : r ∈ s.routes) :
    ∃ found, r.IsAudited p found ∧ ∀ violation ∈ found, violation ∈ violations := by
  obtain ⟨lists, audits, rfl⟩ := limitViolations_eq_ok_iff.mp audited
  obtain ⟨found, member, audit⟩ := exists_of_forall₂ audits listed
  exact ⟨found, audit, fun violation inside => List.mem_flatten.mpr ⟨found, member, inside⟩⟩

section

variable [Endless α]

/-- Where a route has no path but begins at a finite time, its meters and minutes are endless. -/
theorem endless_of_unreachable {state : RouteState α} (unreachable : state.base.reachable = false)
    (begins : Quantity.isFinite state.origin.time = true) :
    state.base.distance = Quantity.infinity ∧ state.base.duration = Quantity.infinity := by
  have cut_off := walk_eq_unreachable state.walk_eq unreachable
  rw [cut_off]
  exact ⟨rfl, Endless.infinity_sub _ begins⟩

/-- An endless total is above any finite limit. -/
theorem found_of_endless {limit : Limit} {bound : Option α} {most total : α} {found : Option (LimitViolation α)}
    (finds : v.Finds limit id bound total found) (is_set : bound = some most) (finite : Quantity.isFinite most = true)
    (endless : total = Quantity.infinity) : found = some ⟨v.id, limit, most, Quantity.infinity⟩ := by
  subst endless
  exact (finds _).mpr ⟨most, is_set, Endless.lt_infinity most finite, rfl⟩

/-- An audit that goes through finds on the routes of a solution, one after the other, just the limits on meters, minutes
and stops that are set and exceeded. A total that is not reported is that of the route as it is worked out; if an evaluator
can be built on the solution, that route is the one that it holds for the vehicle, and no other. A route that has no path as
it is worked out, but begins at a finite time, exceeds every finite limit on a total that is not reported. -/
theorem limitViolations_exact {s : Solution α} {violations : List (LimitViolation α)}
    (audited : limitViolations p s = .ok violations) :
    (∃ lists, List.Forall₂ (fun r found => r.IsAudited p found) s.routes lists ∧ violations = lists.flatten)
      ∧ (∀ catalog settings e, (Evaluator.build p s catalog settings).outcome = .ok e → ∀ r ∈ s.routes,
        ∃ v, p.vehicle r.vehicleId = .ok v ∧ ∃ state ∈ e.states, r.WorksOutTo p v state
          ∧ ∀ other ∈ e.states, other.vehicle = v → other = state)
      ∧ ∀ r ∈ s.routes, ∀ v state, p.vehicle r.vehicleId = .ok v → r.WorksOutTo p v state →
        state.base.reachable = false → Quantity.isFinite state.origin.time = true →
        (∀ most, r.distance = none → v.maxDistance = some most → Quantity.isFinite most = true →
          ⟨v.id, .distance, most, Quantity.infinity⟩ ∈ violations)
        ∧ ∀ most, r.duration = none → v.maxDuration = some most → Quantity.isFinite most = true →
          ⟨v.id, .shiftTime, most, Quantity.infinity⟩ ∈ violations := by
  refine ⟨limitViolations_eq_ok_iff.mp audited, fun catalog settings e built r listed => ?_, ?_⟩
  · exact Evaluator.exists_workedOut built listed
  intro r listed v state driver worked unreachable begins
  obtain ⟨found, audit, among⟩ := exists_audit_of_mem audited listed
  obtain ⟨v', distance, duration, far, long, large, driver', total, total', finds_far, finds_long, -, rfl⟩ := audit
  obtain rfl := Except.ok.inj (driver.symm.trans driver')
  obtain ⟨endless, endless'⟩ := endless_of_unreachable unreachable begins
  refine ⟨fun most untold bound finite => ?_, fun most untold bound finite => ?_⟩
  · have distance_eq : distance = Quantity.infinity := by
      rw [total.eq_getD worked, untold, Option.getD_none, endless]
    exact among _ (by simp [found_of_endless finds_far bound finite distance_eq])
  · have duration_eq : duration = Quantity.infinity := by
      rw [total'.eq_getD worked, untold, Option.getD_none, endless']
    exact among _ (by simp [found_of_endless finds_long bound finite duration_eq])

end

/-! ### The shuttle without a path -/

/-- Two places, the second of which cannot be reached from the first. -/
def brokenPlaces : Matrix Exact where
  durations := [[some (.finite 0), none], [some (.finite 7), some (.finite 0)]]
  distances := [[some (.finite 0), none], [some (.finite 9), some (.finite 0)]]

/-- The plan of the shuttle with these places. -/
def brokenPlan : Problem Exact := { shuttlePlan with matrices := [("car", brokenPlaces)] }

/-- The route of the shuttle to the second place. -/
def brokenRoute : RouteState Exact where
  vehicle := RouteState.shuttle
  matrix := brokenPlaces
  jobs := [RouteState.parcel "a"]
  origin := ⟨0, 0, 0⟩
  base := .cutOff [] 0
  walk_eq := by decide +kernel

/-- The evaluator of the solution in that plan, with all checks. -/
def brokenEvaluator : Evaluator Exact :=
  { shuttleEvaluator with problem := brokenPlan, states := [brokenRoute] }

theorem build_brokenEvaluator :
    (Evaluator.build brokenPlan shuttleSolution (.without []) {}).outcome = .ok brokenEvaluator := by
  have served : (["a"] : List Text).mapM brokenPlan.job = .ok [RouteState.parcel "a"] := by decide +kernel
  have matrix : brokenPlan.matrixFor RouteState.shuttle = .ok brokenPlaces := by decide +kernel
  have route : routeOf brokenPlan shuttleSolution RouteState.shuttle = .ok brokenRoute := by
    rw [routeOf_eq_ok, currentRoute_eq_ok]
    exact ⟨⟨_, _, served, matrix, RouteState.build_eq_of_walk rfl brokenRoute.walk_eq⟩,
      fun reachable => absurd reachable (by decide)⟩
  rw [Evaluator.build_eq_ok]
  exact ⟨by decide +kernel, [brokenRoute], prepare_eq_ok.mpr (.cons route .nil), rfl⟩

theorem limitViolations_exact_broken :
    limitViolations brokenPlan shuttleSolution
        = .ok [⟨"shuttle", .distance, .finite 90, .plusInfinity⟩, ⟨"shuttle", .shiftTime, .finite 480, .plusInfinity⟩]
      ∧ (∃ state ∈ brokenEvaluator.states, Route.WorksOutTo brokenPlan RouteState.shuttle
          ⟨"shuttle", none, [.bare "a"], none, none⟩ state ∧ state.base.reachable = false)
      ∧ (⟨"shuttle", .shiftTime, .finite 480, Quantity.infinity⟩ : LimitViolation Exact)
        ∈ [⟨"shuttle", .distance, .finite 90, .plusInfinity⟩, ⟨"shuttle", .shiftTime, .finite 480, .plusInfinity⟩] := by
  have audited : limitViolations brokenPlan shuttleSolution
      = .ok [⟨"shuttle", .distance, .finite 90, .plusInfinity⟩, ⟨"shuttle", .shiftTime, .finite 480, .plusInfinity⟩] := by
    decide +kernel
  have driver : brokenPlan.vehicle "shuttle" = .ok RouteState.shuttle := by decide +kernel
  obtain ⟨-, held, endless⟩ := limitViolations_exact audited
  obtain ⟨v, driver', state, listed, worked, -⟩ := held _ _ _ build_brokenEvaluator _ List.mem_cons_self
  obtain rfl := Except.ok.inj (driver.symm.trans driver')
  obtain rfl := List.mem_singleton.mp listed
  refine ⟨audited, ⟨brokenRoute, List.mem_cons_self, worked, rfl⟩, ?_⟩
  exact (endless _ List.mem_cons_self _ _ driver worked rfl rfl).2 _ rfl rfl rfl

end Leftover
