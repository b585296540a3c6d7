/-
# The legs of a route

A schedule is flagged reachable just when all its legs have finite minutes. That a leg has finite meters as well, which
a path needs, is not asked for: the meters only decide whether the length of the route is finite.

* `Vehicle.legs` : the legs of a route from a location on
* `walk_reachable_iff` : what the flag of a schedule says about the legs
* `walk_reachable_iff_ferry` : a leg without a path in a schedule that is flagged reachable
-/
import Leftover.Proofs.Paths
import Leftover.Proofs.Scale

namespace Leftover

/-! ## Legs within a matrix -/

section

variable {α : Type}

/-- The legs of a vehicle that drives from a location through jobs, and on to the end of its route if that has one. -/
def Vehicle.legs (v : Vehicle α) : Nat → List (Job α) → List (Nat × Nat)
  | here, [] => v.endLocation.toList.map fun goal => (here, goal)
  | here, job :: rest => (here, job.location) :: v.legs job.location rest

/-- The legs of a route within a matrix lie within it. -/
theorem Vehicle.legs_inside {v : Vehicle α} {size here : Nat} {jobs : List (Job α)} (inside : here < size)
    (jobs_inside : ∀ job ∈ jobs, job.location < size) (end_inside : ∀ goal ∈ v.endLocation, goal < size) :
    ∀ leg ∈ v.legs here jobs, leg.1 < size ∧ leg.2 < size := by
  induction jobs generalizing here with
  | nil =>
    intro leg member
    obtain ⟨goal, ends, rfl⟩ := List.mem_map.mp member
    exact ⟨inside, end_inside goal (Option.mem_toList.mp ends)⟩
  | cons job rest ih =>
    rw [List.forall_mem_cons] at jobs_inside
    rw [Vehicle.legs, List.forall_mem_cons]
    exact ⟨⟨inside, jobs_inside.1⟩, ih jobs_inside.1 jobs_inside.2⟩

namespace Matrix

/-- Both tables of a matrix are square and of its size. -/
structure IsSquare (m : Matrix α) : Prop where
  sizes : m.distances.length = m.size
  rows : ∀ row ∈ m.durations ++ m.distances, row.length = m.size

theorem isSquare_of_make {durations distances : List (List (Option α))} {m : Matrix α}
    (made : make durations distances = .ok m) : m.IsSquare := by
  unfold make at made
  split at made
  · exact absurd made (by simp)
  · rename_i same
    rw [ne_eq, Decidable.not_not] at same
    split at made
    · exact absurd made (by simp)
    · rename_i regular
      obtain rfl := Except.ok.inj made
      rw [List.find?_eq_none] at regular
      refine ⟨same.symm, fun row member => ?_⟩
      have length := regular row member
      rw [decide_eq_true_eq, Decidable.not_not] at length
      exact length

theorem eq_of_make {durations distances : List (List (Option α))} {m : Matrix α}
    (made : make durations distances = .ok m) : m = ⟨durations, distances⟩ := by
  unfold make at made
  split at made
  · cases made
  split at made
  · cases made
  · cases made
    rfl

/-- The tables of a square matrix are accepted. -/
theorem IsSquare.make {m : Matrix α} (square : m.IsSquare) : make m.durations m.distances = .ok m := by
  have same : ¬m.durations.length ≠ m.distances.length := fun other => other square.sizes.symm
  have regular : (m.durations ++ m.distances).find? (fun row => row.length ≠ m.durations.length) = none := by
    rw [List.find?_eq_none]
    intro row member
    rw [decide_eq_true_eq, Decidable.not_not]
    exact square.rows row member
  rw [Matrix.make, if_neg same, regular]

variable [Quantity α]

theorem isKnown_ok (x : α) : isKnown (.ok x) = Quantity.isFinite x := rfl

/-- A square table has a figure for each leg within it. -/
theorem exists_entry {table : List (List (Option α))} {size i j : Nat} (length : table.length = size)
    (rows : ∀ row ∈ table, row.length = size) (hi : i < size) (hj : j < size) : ∃ x, entry table i j = .ok x := by
  subst length
  have hj : j < table[i].length := by
    rw [rows _ (List.getElem_mem hi)]
    exact hj
  refine ⟨figure table[i][j], ?_⟩
  rw [entry, cell, List.getElem?_eq_getElem hi]
  simp only [List.getElem?_eq_getElem hj]
  rfl

/-- Within the matrix a leg has figures, and it is driven if its minutes are finite. -/
theorem IsSquare.leg {m : Matrix α} (square : m.IsSquare) {i j : Nat} (hi : i < m.size) (hj : j < m.size) :
    ∃ minutes meters, m.duration i j = .ok minutes ∧ m.distance i j = .ok meters
      ∧ leg? m i j = .ok (if Quantity.isFinite minutes then some (minutes, meters) else none) := by
  have ⟨minutes, timed⟩ := exists_entry rfl (fun row member => square.rows row (List.mem_append_left _ member)) hi hj
  have ⟨meters, metered⟩ :=
    exists_entry square.sizes (fun row member => square.rows row (List.mem_append_right _ member)) hi hj
  refine ⟨minutes, meters, timed, metered, ?_⟩
  unfold leg?
  rw [duration, timed, except_ok_bind]
  split
  · rw [distance, metered]
    rfl
  · rfl

/-- A leg that can be reached lies within the matrix. -/
theorem inside_of_isReachable {m : Matrix α} {i j : Nat} (h : m.isReachable i j = true) :
    i < m.size ∧ j < m.size := by
  simp only [isReachable, Bool.and_eq_true, decide_eq_true_eq] at h
  exact h.1.1

/-- Within the matrix a leg is reachable if its minutes and its meters are known. -/
theorem isReachable_eq_true {m : Matrix α} {i j : Nat} (hi : i < m.size) (hj : j < m.size) :
    m.isReachable i j = true ↔ isKnown (m.duration i j) = true ∧ isKnown (m.distance i j) = true := by
  simp [isReachable, hi, hj]

end Matrix

/-- A schedule with the first stop of a drive in front. -/
theorem close_drive_cons [Quantity α] {m : Matrix α} (v : Vehicle α) {here : Place α} {job : Job α} (rest : List (Job α))
    (startTime : α) {minutes meters : α} (leg : leg? m here.location job.location = .ok (some (minutes, meters))) :
    (drive m here (job :: rest) >>= fun r => closeRoute v m startTime r.1 r.2)
      = (drive m (serve here job minutes meters).place rest >>= fun r => closeRoute v m startTime r.1 r.2).map
        (Schedule.after [serve here job minutes meters]) := by
  rw [drive_cons_of_some rest leg]
  cases drive m (serve here job minutes meters).place rest with
  | error fault => rfl
  | ok r => exact closeRoute_append v m startTime [_] r.1 r.2

end

/-! ## Walks within a matrix -/

section

variable {α : Type} [Quantity α] {m : Matrix α}

/-- What the legs say about a drive and an arrival: they get through if all minutes are known. Where meters can be added
without loss, they are finite in the end if those of all legs are known. -/
theorem close_drive_legs {v : Vehicle α} (square : m.IsSquare) (startTime : α) (here : Place α) {jobs : List (Job α)}
    (inside : ∀ leg ∈ v.legs here.location jobs, leg.1 < m.size ∧ leg.2 < m.size) :
    ∃ s, (drive m here jobs >>= fun r => closeRoute v m startTime r.1 r.2) = .ok s
      ∧ (s.reachable = true ↔ ∀ leg ∈ v.legs here.location jobs, Matrix.isKnown (m.duration leg.1 leg.2) = true)
      ∧ (Lossless α → s.reachable = true → (Quantity.isFinite s.distance = true ↔ Quantity.isFinite here.distance = true
        ∧ ∀ leg ∈ v.legs here.location jobs, Matrix.isKnown (m.distance leg.1 leg.2) = true)) := by
  induction jobs generalizing here with
  | nil =>
    rw [drive_nil, except_ok_bind]
    simp only [closeRoute]
    cases ends : v.endLocation with
    | none =>
      rw [arrive?_of_none m here ends]
      exact ⟨_, rfl, by simp [Vehicle.legs, ends], by simp [Vehicle.legs, ends]⟩
    | some goal =>
      have last_leg : v.legs here.location [] = [(here.location, goal)] := by simp [Vehicle.legs, ends]
      rw [last_leg, List.forall_mem_singleton] at inside
      obtain ⟨minutes, meters, timed, metered, leg⟩ := square.leg inside.1 inside.2
      simp only [last_leg, List.forall_mem_singleton, timed, metered, Matrix.isKnown_ok]
      cases finite : Quantity.isFinite minutes with
      | true =>
        rw [finite, if_pos rfl] at leg
        rw [arrive?_of_leg ends leg]
        exact ⟨_, rfl, by simp, fun lossless _ => lossless.isFinite_add_iff _ _⟩
      | false =>
        rw [finite] at leg
        have cut : v.arrive? m here = .ok none := by
          simp only [Vehicle.arrive?, ends, leg, except_ok_bind]
          rfl
        rw [cut]
        exact ⟨.cutOff [] startTime, rfl, by simp [Schedule.cutOff], by simp [Schedule.cutOff]⟩
  | cons job rest ih =>
    rw [Vehicle.legs, List.forall_mem_cons] at inside
    obtain ⟨minutes, meters, timed, metered, leg⟩ := square.leg inside.1.1 inside.1.2
    simp only [Vehicle.legs, List.forall_mem_cons, timed, metered, Matrix.isKnown_ok]
    cases finite : Quantity.isFinite minutes with
    | true =>
      rw [finite, if_pos rfl] at leg
      rw [close_drive_cons v rest startTime leg]
      obtain ⟨s, travelled, through, length⟩ := ih (serve here job minutes meters).place inside.2
      rw [travelled]
      refine ⟨s.after [serve here job minutes meters], rfl, ?_, ?_⟩
      · show s.reachable = true ↔ _
        rw [through]
        exact ⟨fun known => ⟨rfl, known⟩, And.right⟩
      · intro lossless reachable
        -- the meters at the job are those before it and those of the leg
        have so_far : Quantity.isFinite (serve here job minutes meters).place.distance = true
            ↔ Quantity.isFinite here.distance = true ∧ Quantity.isFinite meters = true := lossless.isFinite_add_iff _ _
        show Quantity.isFinite s.distance = true ↔ _
        rw [length lossless reachable, so_far, and_assoc]
        rfl
    | false =>
      rw [finite] at leg
      rw [drive_cons_of_none rest leg]
      exact ⟨.cutOff [] startTime, rfl, by simp [Schedule.cutOff], by simp [Schedule.cutOff]⟩

/-- Within a matrix, the schedule of a walk that sets out at some finite time is flagged reachable just when all legs
have finite minutes. That is when all of them are reachable, if each leg that has finite minutes has finite meters too.
Where meters can be added without loss, all legs are reachable just when the schedule is flagged so and its length is
finite. -/
theorem walk_reachable_iff {durations distances : List (List (Option α))}
    (made : Matrix.make durations distances = .ok m) (v : Vehicle α) {here : Place α} {jobs : List (Job α)}
    (here_inside : here.location < m.size) (jobs_inside : ∀ job ∈ jobs, job.location < m.size)
    (end_inside : ∀ goal ∈ v.endLocation, goal < m.size) (setsOut : Quantity.isFinite here.time = true)
    (startTime : α) :
    ∃ s, walk v m jobs here startTime = .ok s
      ∧ (s.reachable = true ↔ ∀ leg ∈ v.legs here.location jobs, Matrix.isKnown (m.duration leg.1 leg.2) = true)
      ∧ ((∀ leg ∈ v.legs here.location jobs, Matrix.isKnown (m.duration leg.1 leg.2) = true →
          Matrix.isKnown (m.distance leg.1 leg.2) = true) →
        (s.reachable = true ↔ ∀ leg ∈ v.legs here.location jobs, m.isReachable leg.1 leg.2 = true))
      ∧ (Lossless α → Quantity.isFinite here.distance = true →
        ((∀ leg ∈ v.legs here.location jobs, m.isReachable leg.1 leg.2 = true)
          ↔ s.reachable = true ∧ Quantity.isFinite s.distance = true)) := by
  have inside := Vehicle.legs_inside here_inside jobs_inside end_inside
  have paths : (∀ leg ∈ v.legs here.location jobs, m.isReachable leg.1 leg.2 = true)
      ↔ (∀ leg ∈ v.legs here.location jobs, Matrix.isKnown (m.duration leg.1 leg.2) = true)
        ∧ ∀ leg ∈ v.legs here.location jobs, Matrix.isKnown (m.distance leg.1 leg.2) = true := by
    rw [← forall₂_and]
    refine forall₂_congr fun leg member => ?_
    exact Matrix.isReachable_eq_true (inside leg member).1 (inside leg member).2
  obtain ⟨s, travelled, through, length⟩ :=
    close_drive_legs (Matrix.isSquare_of_make made) startTime here inside
  refine ⟨s, ?_, through, ?_, ?_⟩
  · rw [walk_of_isFinite setsOut, travelled]
  · intro metered
    rw [paths, through]
    exact ⟨fun timed => ⟨timed, fun leg member => metered leg member (timed leg member)⟩, And.left⟩
  · intro lossless begins
    rw [paths, ← through]
    constructor
    · rintro ⟨reachable, known⟩
      exact ⟨reachable, (length lossless reachable).mpr ⟨begins, known⟩⟩
    · rintro ⟨reachable, finite⟩
      exact ⟨reachable, ((length lossless reachable).mp finite).2⟩

end

/-! ### A ferry -/

namespace RouteState

/-- Two places with a ferry between them: the meters of the way out are not known. -/
def ferry : Matrix Exact where
  durations := [[some (.finite 0), some (.finite 7)], [some (.finite 7), some (.finite 0)]]
  distances := [[some (.finite 0), none], [some (.finite 9), some (.finite 0)]]

theorem walk_reachable_iff_ferry :
    (∃ s, walk shuttle ferry [parcel "a"] ⟨0, 0, 0⟩ 0 = .ok s ∧ s.reachable = true ∧ s.distance = .plusInfinity
      ∧ (0, 1) ∈ shuttle.legs 0 [parcel "a"] ∧ ferry.isReachable 0 1 = false)
      ∧ ∃ s, walk shuttle twoPlaces [parcel "a"] ⟨0, 0, 0⟩ 0 = .ok s ∧ s.reachable = true
        ∧ Quantity.isFinite s.distance = true := by
  have jobs_inside : ∀ job ∈ [parcel "a"], job.location < 2 := by simp [parcel]
  have end_inside : ∀ goal ∈ shuttle.endLocation, goal < 2 := by decide
  have setsOut : Quantity.isFinite (⟨0, 0, 0⟩ : Place Exact).time = true := rfl
  constructor
  · have made : Matrix.make ferry.durations ferry.distances = .ok ferry := by decide +kernel
    have here_inside : (⟨0, 0, 0⟩ : Place Exact).location < ferry.size := by decide
    obtain ⟨s, walked, through, -, length⟩ := walk_reachable_iff made shuttle here_inside jobs_inside end_inside setsOut 0
    have reachable : s.reachable = true := through.mpr (by decide +kernel)
    have walked' : walk shuttle ferry [parcel "a"] ⟨0, 0, 0⟩ 0
      = .ok ⟨[⟨parcel "a", .finite 7, .finite 7, .finite 12, 0, .plusInfinity⟩], 0, .finite 19, .plusInfinity, true⟩ := by
      decide +kernel
    have same := Except.ok.inj (walked.symm.trans walked')
    exact ⟨s, walked, reachable, by rw [same], by decide, by decide +kernel⟩
  · have made : Matrix.make twoPlaces.durations twoPlaces.distances = .ok twoPlaces := by decide +kernel
    have here_inside : (⟨0, 0, 0⟩ : Place Exact).location < twoPlaces.size := by decide
    obtain ⟨s, walked, -, -, length⟩ := walk_reachable_iff made shuttle here_inside jobs_inside end_inside setsOut 0
    have known : ∀ leg ∈ shuttle.legs 0 [parcel "a"], twoPlaces.isReachable leg.1 leg.2 = true := by decide +kernel
    obtain ⟨reachable, finite⟩ := (length inferInstance rfl).mp known
    exact ⟨s, walked, reachable, finite⟩

end RouteState

end Leftover
