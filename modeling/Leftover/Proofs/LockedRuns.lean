/-
# Locks over runs of insertions

Relations lock jobs to a vehicle and to an order. Where the check of relations lets a job into a route, no lock is
broken, and so none is after any number of such jobs. The check turns no other job away, unless a relation is strict or
lists a job twice.

* `Problem.Locks` : no job of another vehicle, and the members of each ordered relation in its order
* `Insertion.locks_of_checkLocking`, `Insertion.checkLocking_of_locks` : one insertion, both ways
* `LockedRun` : any number of insertions that the check lets in
* `RouteState.locks_of_lockedRun` : what they leave behind
-/
import Leftover.Proofs.Relations

namespace Leftover

variable {α : Type}

/-- No job on a route is locked to another vehicle than this one, and the members of each of its relations that tells
an order stand in that order. -/
structure Problem.Locks (p : Problem α) (vehicleId : Text) (ids : List Text) : Prop where
  own : ∀ id ∈ ids, ∀ r ∈ p.relations, id ∈ r.jobs → r.vehicleId = vehicleId
  ordered : ∀ r ∈ p.relationsOf vehicleId, r.type ≠ .any → r.Orders ids

instance (p : Problem α) (vehicleId : Text) (ids : List Text) : Decidable (p.Locks vehicleId ids) :=
  decidable_of_iff
    ((∀ id ∈ ids, ∀ r ∈ p.relations, id ∈ r.jobs → r.vehicleId = vehicleId)
      ∧ ∀ r ∈ p.relationsOf vehicleId, r.type ≠ .any → r.Orders ids)
    ⟨fun h => ⟨h.1, h.2⟩, fun h => ⟨h.own, h.ordered⟩⟩

/-- In a relation without repeats, the members listed after a job have later places. -/
theorem Insertion.idxOf_lt_of_mem_after {r : Relation} {id b : Text} (once : r.jobs.Nodup)
    (member : b ∈ (around r id).2) : r.jobs.idxOf id < r.jobs.idxOf b := by
  have listed : b ∈ r.jobs := List.mem_of_mem_drop member
  have later : b ∉ r.jobs.take (r.jobs.idxOf id + 1) :=
    fun early => List.disjoint_take_drop once (Nat.le_refl _) early member
  rw [List.mem_take_iff_idxOf_lt listed] at later
  omega

variable [Quantity α]

/-! ## One insertion -/

namespace Insertion

variable {i : Insertion α}

/-- A relation that lists the job is one of the vehicle, if it is kept. -/
theorem vehicleId_of_keepsRelation {r : Relation} (kept : i.keepsRelation r = true) :
    r.vehicleId = i.vehicle.id := by
  simp only [keepsRelation, Bool.and_eq_true, decide_eq_true_eq] at kept
  exact kept.1

theorem keepsOrder_of_keepsRelation {r : Relation} (ordering : r.type ≠ .any) (kept : i.keepsRelation r = true) :
    i.keepsOrder (around r i.job.id).1 (around r i.job.id).2 = true := by
  rw [keepsRelation, Bool.and_eq_true] at kept
  cases told : r.type with
  | any => exact absurd told ordering
  | sequence =>
    rw [told] at kept
    exact kept.2
  | strict =>
    rw [told] at kept
    exact (Bool.and_eq_true _ _ ▸ kept.2).1

section

variable (distinct : i.state.ids.Nodup) {k : Nat} (here : i.position = k)

include distinct here

/-- No lock is broken where the check of relations lets a new job in. -/
theorem locks_of_checkLocking (new : i.job.id ∉ i.state.ids) (locks : i.problem.Locks i.vehicle.id i.state.ids)
    (kept : i.checkLocking = .ok .satisfied) :
    i.problem.Locks i.vehicle.id ((insertAt i.state.jobs k i.job).map (·.id)) := by
  obtain ⟨own, -⟩ := kept_of_checkLocking kept
  rw [map_id_insertAt]
  rw [← List.take_append_drop k i.state.ids] at new locks
  constructor
  · intro id member r present listed
    rcases List.mem_append.mp member with old | member
    · exact locks.own id (List.mem_append_left _ old) r present listed
    · rcases List.mem_cons.mp member with rfl | old
      · exact vehicleId_of_keepsRelation (own r (Problem.mem_relationsFor.mpr ⟨present, listed⟩))
      · exact locks.own id (List.mem_append_right _ old) r present listed
  · intro r locked ordering
    have present : r ∈ i.problem.relations := (List.mem_filter.mp locked).1
    have sides : i.job.id ∈ r.jobs → (∀ a ∈ (around r i.job.id).1, a ∉ i.state.ids.drop k)
        ∧ ∀ b ∈ (around r i.job.id).2, b ∉ i.state.ids.take k := fun listed =>
      (keepsOrder_eq_true distinct here).mp
        (keepsOrder_of_keepsRelation ordering (own r (Problem.mem_relationsFor.mpr ⟨present, listed⟩)))
    refine (locks.ordered r locked ordering).insert new ?_ ?_
    · intro listed a ha ra lt
      exact (sides listed).1 a (mem_before ra lt) ha
    · intro listed b hb rb lt
      exact (sides listed).2 b (mem_after rb lt) hb

/-- Where no relation is strict or lists a job twice, the check lets each job in that breaks no lock. -/
theorem checkLocking_of_locks (loose : ∀ r ∈ i.problem.relations, r.type ≠ .strict)
    (once : ∀ r ∈ i.problem.relations, r.jobs.Nodup)
    (locks : i.problem.Locks i.vehicle.id ((insertAt i.state.jobs k i.job).map (·.id))) :
    i.checkLocking = .ok .satisfied := by
  rw [map_id_insertAt] at locks
  have member : i.job.id ∈ i.state.ids.take k ++ i.job.id :: i.state.ids.drop k := by simp
  have own : ∀ r ∈ i.problem.relationsFor i.job.id, i.keepsRelation r = true := by
    intro r related
    obtain ⟨present, listed⟩ := Problem.mem_relationsFor.mp related
    have vehicle_eq : r.vehicleId = i.vehicle.id := locks.own _ member r present listed
    have locked : r ∈ i.problem.relationsOf i.vehicle.id := List.mem_filter.mpr ⟨present, by simp [vehicle_eq]⟩
    rw [keepsRelation, Bool.and_eq_true, decide_eq_true_eq]
    refine ⟨vehicle_eq, ?_⟩
    cases told : r.type with
    | any => rfl
    | strict => exact absurd told (loose r present)
    | sequence =>
      have ordered := locks.ordered r locked (by rw [told]; decide)
      obtain ⟨before, after⟩ := (Relation.orders_insert_iff.mp ordered).2 listed
      refine (keepsOrder_eq_true distinct here).mpr ⟨fun a ha behind => ?_, fun b hb front => ?_⟩
      · have listed_a : a ∈ r.jobs := List.mem_of_mem_take ha
        have lt := (List.mem_take_iff_idxOf_lt listed_a).mp ha
        have := after a behind listed_a
        omega
      · have lt := idxOf_lt_of_mem_after (once r present) hb
        have := before b front (List.mem_of_mem_drop hb)
        omega
  have splits : i.splitsNone = true := by
    have none_joined : ∀ left right, (i.problem.relationsOf i.vehicle.id).any (i.joins left right) = false := by
      intro left right
      rw [List.any_eq_false]
      intro r locked joined
      have present : r ∈ i.problem.relations := (List.mem_filter.mp locked).1
      simp only [joins, Bool.and_eq_true, decide_eq_true_eq] at joined
      exact loose r present joined.1.1.1.1
    unfold splitsNone
    split
    · split
      · rw [none_joined]
        rfl
      · rfl
    · rfl
  rw [checkLocking, List.all_eq_true.mpr own, splits]
  rfl

end

end Insertion

/-! ## Runs -/

/-- A route after any number of insertions of new jobs, each let in by the check of relations on the route as it is by
then. -/
inductive LockedRun (p : Problem α) (s : RouteState α) : RouteState α → Prop
  | start : LockedRun p s s
  | insert {t u : RouteState α} {job : Job α} {k : Nat} (run : LockedRun p s t) (new : job.id ∉ t.ids)
    (kept : (⟨job, t, k, p⟩ : Insertion α).checkLocking = .ok .satisfied) (vehicle_eq : u.vehicle = t.vehicle)
    (jobs_eq : u.jobs = insertAt t.jobs k job) : LockedRun p s u

namespace RouteState

theorem vehicle_of_lockedRun {p : Problem α} {s t : RouteState α} (run : LockedRun p s t) :
    t.vehicle = s.vehicle := by
  induction run with
  | start => rfl
  | insert run new kept vehicle_eq jobs_eq ih => exact vehicle_eq.trans ih

theorem nodup_of_lockedRun {p : Problem α} {s t : RouteState α} (distinct : s.ids.Nodup) (run : LockedRun p s t) :
    t.ids.Nodup := by
  induction run with
  | start => exact distinct
  | @insert t u job k run new kept vehicle_eq jobs_eq ih =>
    rw [ids, jobs_eq]
    exact Insertion.nodup_insertAt (i := ⟨job, t, k, p⟩) ih new

/-- On a route of distinct jobs that breaks no lock, none is broken after the insertion of a new job where the check of
relations lets it in, and none after any number of such insertions. Where no relation is strict and none lists a job
twice, a lock is broken after each insertion that the check turns away. -/
theorem locks_of_lockedRun {p : Problem α} {s : RouteState α} (distinct : s.ids.Nodup) :
    (p.Locks s.vehicle.id s.ids → ∀ (job : Job α) (k : Nat), job.id ∉ s.ids →
        (⟨job, s, k, p⟩ : Insertion α).checkLocking = .ok .satisfied →
        p.Locks s.vehicle.id ((insertAt s.jobs k job).map (·.id)))
      ∧ (p.Locks s.vehicle.id s.ids → ∀ t, LockedRun p s t → p.Locks s.vehicle.id t.ids)
      ∧ ((∀ r ∈ p.relations, r.type ≠ .strict) → (∀ r ∈ p.relations, r.jobs.Nodup) → ∀ (job : Job α) (k : Nat),
        job.id ∉ s.ids → (⟨job, s, k, p⟩ : Insertion α).checkLocking ≠ .ok .satisfied →
        ¬p.Locks s.vehicle.id ((insertAt s.jobs k job).map (·.id))) := by
  refine ⟨?_, ?_, ?_⟩
  · intro locks job k new kept
    exact Insertion.locks_of_checkLocking (i := ⟨job, s, k, p⟩) distinct rfl new locks kept
  · intro locks t run
    induction run with
    | start => exact locks
    | @insert t u job k run new kept vehicle_eq jobs_eq ih =>
      -- the route that the next job is put into is one of the same vehicle that breaks no lock
      rw [← vehicle_of_lockedRun run] at ih ⊢
      rw [ids, jobs_eq]
      exact Insertion.locks_of_checkLocking (i := ⟨job, t, k, p⟩) (nodup_of_lockedRun distinct run) rfl new ih kept
  · intro loose once job k new rejected locks
    exact rejected (Insertion.checkLocking_of_locks (i := ⟨job, s, k, p⟩) distinct rfl loose once locks)

/-! ### Three parcels in a line -/

/-- The relation that three parcels are served one after the other, with or without others in between. -/
def line : Relation := ⟨.sequence, ["a", "b", "c"], "shuttle"⟩

/-- The plan of the shuttle with that line, and another parcel that a truck has to deliver. -/
def linePlan : Problem Exact where
  jobs := [parcel "a", parcel "b", parcel "c", parcel "d"]
  fleet := [shuttle]
  relations := [line, ⟨.any, ["d"], "truck"⟩]
  matrices := [("car", twoPlaces)]

theorem locks_of_lockedRun_line :
    linePlan.Locks shuttle.id shuttleRoute.ids
      ∧ LockedRun linePlan shuttleRoute Insertion.rowRoute ∧ linePlan.Locks shuttle.id Insertion.rowRoute.ids
      ∧ (⟨parcel "b", Insertion.rowRoute, (1 : Nat), linePlan⟩ : Insertion Exact).checkLocking = .ok .satisfied
      ∧ linePlan.Locks shuttle.id ["a", "b", "c"]
      ∧ (⟨parcel "b", Insertion.rowRoute, (2 : Nat), linePlan⟩ : Insertion Exact).checkLocking = .ok (.violated none)
      ∧ ¬linePlan.Locks shuttle.id ["a", "c", "b"] := by
  have distinct : shuttleRoute.ids.Nodup := by decide +kernel
  have distinct' : Insertion.rowRoute.ids.Nodup := by decide +kernel
  have locks : linePlan.Locks shuttle.id shuttleRoute.ids := by decide +kernel
  have new_first : (parcel "c").id ∉ shuttleRoute.ids := by decide +kernel
  have kept_first : (⟨parcel "c", shuttleRoute, (1 : Nat), linePlan⟩ : Insertion Exact).checkLocking
      = .ok .satisfied := by decide +kernel
  have run : LockedRun linePlan shuttleRoute Insertion.rowRoute := .insert .start new_first kept_first rfl rfl
  have new : (parcel "b").id ∉ Insertion.rowRoute.ids := by decide +kernel
  have kept : (⟨parcel "b", Insertion.rowRoute, (1 : Nat), linePlan⟩ : Insertion Exact).checkLocking
      = .ok .satisfied := by decide +kernel
  have rejected : (⟨parcel "b", Insertion.rowRoute, (2 : Nat), linePlan⟩ : Insertion Exact).checkLocking
      = .ok (.violated none) := by decide +kernel
  have locks' := (locks_of_lockedRun distinct).2.1 locks _ run
  obtain ⟨step, -, converse⟩ := locks_of_lockedRun (p := linePlan) distinct'
  refine ⟨locks, run, locks', kept, step locks' _ 1 new kept, rejected, ?_⟩
  exact converse (by decide) (by decide +kernel) (parcel "b") 2 new (by rw [rejected]; simp)

end RouteState

end Leftover
