/-
# Looking things up

Values given for names, and the jobs of a problem under their ids.

* `lookup_filterMap`, `lastOf?_eq_some`, `lastOf?_rel` : the value for a name
* `find?_key_eq_some`, `find?_key_perm`, `forall₂_of_map_key_eq` : items with keys of their own
* `lastOf?_places`, `placeIn_some`, `eq_of_placeIn_eq` : the place of a name
* `Problem.firstRepeated?_eq_none` : the check that ids do not repeat
* `Problem.job_eq_ok`, `Problem.jobPlace_pairwise` : a job is found under its id, and its place tells the order
-/
import Leftover.Plan.Problem
import Mathlib.Data.List.Nodup
import Mathlib.Data.List.Perm.Subperm

namespace Leftover

/-! ## Values under names -/

/-- A value looked up among values that are given for some names. -/
theorem lookup_filterMap {κ β : Type} [BEq κ] [LawfulBEq κ] [DecidableEq κ] (value? : κ → Option β) (names : List κ)
    (name : κ) :
    (names.filterMap fun n => (value? n).map fun b => (n, b)).lookup name
      = if name ∈ names then value? name else none := by
  induction names with
  | nil => rfl
  | cons n rest ih =>
    by_cases same : name = n
    · subst same
      cases given : value? name with
      | some b => simp [given]
      | none => simp [given, ih]
    · cases given : value? n with
      | some b => simp [given, ih, List.lookup_cons, beq_eq_false_iff_ne.mpr same, same]
      | none => simp [given, ih, same]

/-- Among items with distinct keys an item is found under its key. -/
theorem find?_key_eq_some {β κ : Type} [DecidableEq κ] {key : β → κ} {items : List β} (distinct : (items.map key).Nodup)
    {b : β} (member : b ∈ items) : items.find? (key · = key b) = some b := by
  have present : (items.find? (key · = key b)).isSome := by
    rw [List.find?_isSome]
    exact ⟨b, member, by simp⟩
  obtain ⟨b', found⟩ := Option.isSome_iff_exists.mp present
  have same_key : key b' = key b := by simpa using List.find?_some found
  have same : b' = b := List.inj_on_of_nodup_map distinct (List.mem_of_find?_eq_some found) member same_key
  rw [found, same]

/-- Among items with distinct keys the same one is found under a key in any order of the items. -/
theorem find?_key_perm {β κ : Type} [DecidableEq κ] {key : β → κ} {xs ys : List β} (perm : xs.Perm ys)
    (distinct : (xs.map key).Nodup) (k : κ) : xs.find? (key · = k) = ys.find? (key · = k) := by
  have distinct' : (ys.map key).Nodup := (perm.map key).nodup_iff.mp distinct
  cases found : xs.find? (key · = k) with
  | none =>
    have absent := List.find?_eq_none.mp found
    exact (List.find?_eq_none.mpr fun b hb => absent b (perm.mem_iff.mpr hb)).symm
  | some b =>
    have same_key : key b = k := by simpa using List.find?_some found
    rw [← same_key, find?_key_eq_some distinct' (perm.mem_iff.mp (List.mem_of_find?_eq_some found))]

/-- Items with the same distinct keys in the same order are related one by one, if each is related to some item with its
key. -/
theorem forall₂_of_map_key_eq {β κ : Type} {R : β → β → Prop} {key : β → κ} {xs ys : List β}
    (keys : xs.map key = ys.map key) (distinct : (ys.map key).Nodup)
    (each : ∀ x ∈ xs, ∃ y ∈ ys, key y = key x ∧ R x y) : List.Forall₂ R xs ys := by
  induction xs generalizing ys with
  | nil =>
    rw [List.map_nil, eq_comm, List.map_eq_nil_iff] at keys
    rw [keys]
    exact .nil
  | cons x xs ih =>
    cases ys with
    | nil => exact absurd keys (by simp)
    | cons y ys =>
      rw [List.map_cons, List.map_cons, List.cons.injEq] at keys
      rw [List.map_cons, List.nodup_cons] at distinct
      obtain ⟨first, later⟩ := keys
      refine .cons ?_ (ih later distinct.2 fun x' member => ?_)
      · obtain ⟨y', member, same, related⟩ := each x List.mem_cons_self
        rcases List.mem_cons.mp member with rfl | member
        · exact related
        · exact absurd (List.mem_map.mpr ⟨y', member, same.trans first⟩) distinct.1
      · obtain ⟨y', member', same, related⟩ := each x' (List.mem_cons_of_mem _ member)
        rcases List.mem_cons.mp member' with rfl | member'
        · exact absurd (later ▸ List.mem_map.mpr ⟨x', member, same.symm⟩) distinct.1
        · exact ⟨y', member', same, related⟩

/-- Among items with distinct keys no other item has the key of an item. -/
theorem filter_key_eq_singleton {β κ : Type} [DecidableEq κ] {key : β → κ} {items : List β}
    (distinct : (items.map key).Nodup) {b : β} (member : b ∈ items) : items.filter (key · = key b) = [b] := by
  have only : (items.filter (key · = key b)).Perm [b] := by
    rw [List.perm_ext_iff_of_nodup (distinct.of_map.filter _) (List.nodup_singleton b)]
    intro b'
    rw [List.mem_filter, List.mem_singleton, decide_eq_true_iff]
    constructor
    · rintro ⟨member', same_key⟩
      exact List.inj_on_of_nodup_map distinct member' member same_key
    · rintro rfl
      exact ⟨member, rfl⟩
  exact List.perm_singleton.mp only

/-- The value given last for a name is the one given for it, if no name is given twice. -/
theorem lastOf?_eq_some {β : Type} {entries : List (Text × β)} (distinct : (entries.map (·.1)).Nodup) {name : Text}
    {b : β} (member : (name, b) ∈ entries) : lastOf? entries name = some b := by
  -- the search goes backwards
  have backwards : (entries.reverse.map (·.1)).Nodup := by
    rw [List.map_reverse, List.nodup_reverse]
    exact distinct
  rw [lastOf?, find?_key_eq_some backwards (List.mem_reverse.mpr member)]
  rfl

/-- Related values that are given for the same names, one after the other, are found under a name side by side. -/
theorem lastOf?_rel {β γ : Type} {R : β → γ → Prop} {entries : List (Text × β)} {entries' : List (Text × γ)}
    (each : List.Forall₂ (fun x y => x.1 = y.1 ∧ R x.2 y.2) entries entries') (name : Text) :
    Option.Rel R (lastOf? entries name) (lastOf? entries' name) := by
  -- the search goes backwards
  have backwards := List.rel_reverse each
  rw [lastOf?, lastOf?]
  generalize entries.reverse = items at backwards
  generalize entries'.reverse = items' at backwards
  induction backwards with
  | nil => exact .none
  | @cons x y _ _ first _ ih =>
    rw [List.find?_cons, List.find?_cons, first.1]
    split
    · exact .some first.2
    · exact ih

/-- A value that is found was given for the name. -/
theorem mem_of_lastOf? {β : Type} {entries : List (Text × β)} {name : Text} {b : β}
    (found : lastOf? entries name = some b) : (name, b) ∈ entries := by
  obtain ⟨entry, given, rfl⟩ := Option.map_eq_some_iff.mp found
  have named : entry.1 = name := by simpa using List.find?_some given
  rw [← named]
  exact List.mem_reverse.mp (List.mem_of_find?_eq_some given)

/-- The place found for a name is where it stands in the list of names. -/
theorem lastOf?_places {β : Type} {key : β → Text} {items : List β} (distinct : (items.map key).Nodup) {name : Text}
    {k : Nat} : lastOf? (items.zipIdx.map fun entry => (key entry.1, entry.2)) name = some k
      ↔ (items.map key)[k]? = some name := by
  have names : (items.zipIdx.map fun entry => (key entry.1, entry.2)).map (·.1) = items.map key := by
    rw [List.map_map]
    show items.zipIdx.map (key ∘ Prod.fst) = _
    rw [← List.map_map, List.zipIdx_map_fst]
  rw [List.getElem?_map, Option.map_eq_some_iff]
  constructor
  · intro found
    obtain ⟨⟨item, place⟩, listed, same⟩ := List.mem_map.mp (mem_of_lastOf? found)
    obtain ⟨rfl, rfl⟩ := Prod.mk.inj same
    exact ⟨item, List.mem_zipIdx_iff_getElem?.mp listed, rfl⟩
  · rintro ⟨item, stands, rfl⟩
    apply lastOf?_eq_some (by rw [names]; exact distinct)
    exact List.mem_map.mpr ⟨(item, k), List.mem_zipIdx_iff_getElem?.mpr stands, rfl⟩

/-- The place of a name in a list without repeats. -/
theorem placeIn_some {names : List Text} (distinct : names.Nodup) {name : Text} {k : Nat}
    (stands : names[k]? = some name) : placeIn names (some name) = k := by
  have entries : (names.zipIdx.map fun entry => (id entry.1, entry.2)) = names.zipIdx := List.map_id _
  have found : lastOf? names.zipIdx name = some k := by
    rw [← entries, lastOf?_places (by rw [List.map_id]; exact distinct), List.map_id]
    exact stands
  rw [placeIn, Option.bind_some, found]
  rfl

/-- Names in a list have places before that of no name. -/
theorem placeIn_lt {names : List Text} (distinct : names.Nodup) {name : Text} (member : name ∈ names) :
    placeIn names (some name) < placeIn names none := by
  obtain ⟨k, stands⟩ := List.mem_iff_getElem?.mp member
  have inside : k < names.length := (List.getElem?_eq_some_iff.mp stands).1
  have all : names.length ≤ (nameSet names).length :=
    (List.subperm_of_subset distinct fun name listed => mem_nameSet.mpr listed).length_le
  rw [placeIn_some distinct stands]
  exact Nat.lt_of_lt_of_le inside all

/-- Names in a list without repeats, and no name, are told apart by their places. -/
theorem eq_of_placeIn_eq {names : List Text} (distinct : names.Nodup) {a b : Option Text} (ha : ∀ name ∈ a, name ∈ names)
    (hb : ∀ name ∈ b, name ∈ names) (same : placeIn names a = placeIn names b) : a = b := by
  match a, b with
  | none, none => rfl
  | none, some b =>
    have := placeIn_lt distinct (hb b rfl)
    omega
  | some a, none =>
    have := placeIn_lt distinct (ha a rfl)
    omega
  | some a, some b =>
    obtain ⟨k, stands⟩ := List.mem_iff_getElem?.mp (ha a rfl)
    obtain ⟨k', stands'⟩ := List.mem_iff_getElem?.mp (hb b rfl)
    rw [placeIn_some distinct stands, placeIn_some distinct stands'] at same
    rw [same, stands'] at stands
    exact stands.symm

namespace Problem

/-! ## Ids -/

/-- No id is found to occur a second time if and only if the ids are distinct, and none of them was seen before. -/
theorem firstRepeated?_eq_none {seen ids : List Text} :
    firstRepeated? seen ids = none ↔ ids.Nodup ∧ ∀ id ∈ ids, id ∉ seen := by
  induction ids generalizing seen with
  | nil => simp [firstRepeated?]
  | cons id rest ih =>
    rw [firstRepeated?]
    by_cases known : id ∈ seen
    · simp [known]
    · rw [if_neg (by simpa using known), ih, List.nodup_cons]
      constructor
      · rintro ⟨distinct, fresh⟩
        refine ⟨⟨fun again => fresh id again (by simp), distinct⟩, ?_⟩
        intro other member
        rcases List.mem_cons.mp member with rfl | member
        · exact known
        · exact fun old => fresh other member (List.mem_cons_of_mem _ old)
      · rintro ⟨⟨once, distinct⟩, fresh⟩
        refine ⟨distinct, fun other member old => ?_⟩
        rcases List.mem_cons.mp old with rfl | old
        · exact once member
        · exact fresh other (List.mem_cons_of_mem _ member) old

variable {α : Type} {p : Problem α}

/-- What is found under an id is a job with that id. -/
theorem of_job_eq_ok {id : Text} {j : Job α} (found : p.job id = .ok j) : j ∈ p.jobs ∧ j.id = id := by
  rw [job, job?] at found
  split at found
  · rename_i j' present
    obtain rfl := Except.ok.inj found
    exact ⟨List.mem_of_find?_eq_some present, by simpa using List.find?_some present⟩
  · exact absurd found (by simp)

/-- Jobs that are found under their ids are found one after the other. -/
theorem mapM_job {jobs : List (Job α)} (found : ∀ j ∈ jobs, p.job j.id = .ok j) :
    (jobs.map (·.id)).mapM p.job = .ok jobs := by
  induction jobs with
  | nil => rfl
  | cons j rest ih =>
    rw [List.forall_mem_cons] at found
    rw [List.map_cons, List.mapM_cons, found.1, ih found.2]
    rfl

/-- What is found under an id is a vehicle of the fleet with that id. -/
theorem of_vehicle_eq_ok {id : Text} {v : Vehicle α} (found : p.vehicle id = .ok v) : v ∈ p.fleet ∧ v.id = id := by
  rw [vehicle, vehicle?] at found
  split at found
  · rename_i v' present
    obtain rfl := Except.ok.inj found
    exact ⟨List.mem_of_find?_eq_some present, by simpa using List.find?_some present⟩
  · exact absurd found (by simp)

/-- A job is found under just those ids that jobs have. -/
theorem exists_job_iff {id : Text} : (∃ j, p.job id = .ok j) ↔ id ∈ p.jobs.map (·.id) := by
  rw [job, job?, List.mem_map]
  cases present : p.jobs.find? (·.id = id) with
  | none => simpa using present
  | some j => exact iff_of_true ⟨j, rfl⟩ ⟨j, List.mem_of_find?_eq_some present, by simpa using List.find?_some present⟩

/-- A vehicle is found under just those ids that vehicles have. -/
theorem exists_vehicle_iff {id : Text} : (∃ v, p.vehicle id = .ok v) ↔ id ∈ p.fleetIds := by
  rw [vehicle, vehicle?, fleetIds, List.mem_map]
  cases present : p.fleet.find? (·.id = id) with
  | none => simpa using present
  | some v => exact iff_of_true ⟨v, rfl⟩ ⟨v, List.mem_of_find?_eq_some present, by simpa using List.find?_some present⟩

/-- A vehicle has a matrix if its profile has one. -/
theorem exists_matrixFor_iff {v : Vehicle α} : (∃ m, p.matrixFor v = .ok m) ↔ v.profile ∈ p.matrices.map (·.1) := by
  rw [matrixFor, List.mem_map]
  cases present : p.matrices.find? (·.1 = v.profile) with
  | none =>
    refine iff_of_false (by simp) ?_
    rintro ⟨entry, member, same⟩
    exact absurd same (by simpa using List.find?_eq_none.mp present entry member)
  | some entry => exact iff_of_true ⟨entry.2, rfl⟩ ⟨entry, List.mem_of_find?_eq_some present, by simpa using List.find?_some present⟩

theorem of_matrixFor_eq_ok {v : Vehicle α} {m : Matrix α} (found : p.matrixFor v = .ok m) :
    ∃ entry ∈ p.matrices, entry.2 = m := by
  rw [matrixFor] at found
  split at found
  · rename_i profile m' present
    obtain rfl := Except.ok.inj found
    exact ⟨(profile, m'), List.mem_of_find?_eq_some present, rfl⟩
  · exact absurd found (by simp)

theorem matrixFor_eq_error {v : Vehicle α} {fault : Fault} :
    p.matrixFor v = .error fault ↔ v.profile ∉ p.matrices.map (·.1) ∧ fault = .noMatrix v.profile v.id := by
  rw [← exists_matrixFor_iff, matrixFor]
  cases p.matrices.find? (·.1 = v.profile) with
  | none => simp [eq_comm]
  | some entry => simp

theorem job_eq_error {id : Text} {fault : Fault} :
    p.job id = .error fault ↔ id ∉ p.jobs.map (·.id) ∧ fault = .unknownJob id := by
  rw [← exists_job_iff, job]
  cases p.job? id with
  | none => simp [eq_comm]
  | some j => simp

theorem vehicle_eq_error {id : Text} {fault : Fault} :
    p.vehicle id = .error fault ↔ id ∉ p.fleetIds ∧ fault = .unknownVehicle id := by
  rw [← exists_vehicle_iff, vehicle]
  cases p.vehicle? id with
  | none => simp [eq_comm]
  | some v => simp

section

variable (distinct : (p.jobs.map (·.id)).Nodup)

include distinct

/-- A job is found under its id. -/
theorem job_eq_ok {j : Job α} (member : j ∈ p.jobs) : p.job j.id = .ok j := by
  rw [job, job?, find?_key_eq_some distinct member]

/-- The place of a job is where its id stands in the list of jobs. -/
theorem jobPlace_eq {k : Nat} {j : Job α} (stands : p.jobs[k]? = some j) : p.jobPlace j.id = k := by
  have found : lastOf? (p.jobs.zipIdx.map fun entry => (entry.1.id, entry.2)) j.id = some k := by
    rw [lastOf?_places distinct, List.getElem?_map, stands]
    rfl
  rw [jobPlace, found]
  rfl

/-- Different jobs have different places. -/
theorem eq_of_jobPlace_eq {id id' : Text} (member : id ∈ p.jobs.map (·.id)) (member' : id' ∈ p.jobs.map (·.id))
    (same : p.jobPlace id = p.jobPlace id') : id = id' := by
  obtain ⟨j, listed, rfl⟩ := List.mem_map.mp member
  obtain ⟨j', listed', rfl⟩ := List.mem_map.mp member'
  obtain ⟨k, stands⟩ := List.mem_iff_getElem?.mp listed
  obtain ⟨k', stands'⟩ := List.mem_iff_getElem?.mp listed'
  rw [jobPlace_eq distinct stands, jobPlace_eq distinct stands'] at same
  rw [same, stands'] at stands
  rw [Option.some.inj stands]

/-- Later jobs have later places. -/
theorem jobPlace_pairwise : (p.jobs.map (·.id)).Pairwise fun id id' => p.jobPlace id < p.jobPlace id' := by
  rw [List.pairwise_map, List.pairwise_iff_getElem]
  intro i k inside inside' before
  rw [jobPlace_eq distinct (List.getElem?_eq_getElem inside), jobPlace_eq distinct (List.getElem?_eq_getElem inside')]
  exact before

end

end Problem

end Leftover
