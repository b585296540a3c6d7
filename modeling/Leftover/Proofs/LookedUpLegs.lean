/-
# Legs that are looked up

A walk looks up one leg after the other, up to the first one without a duration. It fails just when one of these leads
out of the matrix; what the legs after it are like does not matter.

* `Matrix.Covers` : the legs that are looked up lie within the matrix
* `exists_walk_iff` : when a route can be walked
* `Vehicle.Approaches`, `exists_origin_iff` : when it has a place where it begins
-/
import Leftover.Proofs.Legs

namespace Leftover

variable {α : Type} [Quantity α]

/-! ## Legs within a matrix -/

/-- Of some legs each lies within the matrix, up to and including the first one without a duration. -/
def Matrix.Covers (m : Matrix α) (legs : List (Nat × Nat)) : Prop :=
  ∀ before leg after, legs = before ++ leg :: after →
    (∀ earlier ∈ before, isKnown (m.duration earlier.1 earlier.2) = true) → leg.1 < m.size ∧ leg.2 < m.size

namespace Matrix

variable {m : Matrix α}

theorem covers_nil : m.Covers [] := by
  intro before leg after split
  exact absurd split (by simp)

theorem covers_cons {leg : Nat × Nat} {rest : List (Nat × Nat)} :
    m.Covers (leg :: rest) ↔ (leg.1 < m.size ∧ leg.2 < m.size)
      ∧ (isKnown (m.duration leg.1 leg.2) = true → m.Covers rest) := by
  constructor
  · intro covers
    refine ⟨covers [] leg rest rfl (by simp), ?_⟩
    rintro known before later after rfl earlier
    exact covers (leg :: before) later after rfl (List.forall_mem_cons.mpr ⟨known, earlier⟩)
  · rintro ⟨inside, covers⟩ before later after split earlier
    cases before with
    | nil =>
      obtain ⟨rfl, rfl⟩ := List.cons.inj split
      exact inside
    | cons first before =>
      obtain ⟨rfl, rfl⟩ := List.cons.inj split
      rw [List.forall_mem_cons] at earlier
      exact covers earlier.1 before later after rfl earlier.2

/-- A table has an entry at a place only if the place lies in it. -/
theorem inside_of_entry {table : List (List (Option α))} {size i j : Nat} (length : table.length = size)
    (rows : ∀ row ∈ table, row.length = size) {x : α} (found : entry table i j = .ok x) : i < size ∧ j < size := by
  obtain ⟨x', found, -⟩ := except_map_eq_ok.mp found
  rw [cell] at found
  split at found
  · exact absurd found (by simp)
  · rename_i row at_i
    split at found
    · exact absurd found (by simp)
    · rename_i x'' at_j
      obtain ⟨hi, rfl⟩ := List.getElem?_eq_some_iff.mp at_i
      obtain ⟨hj, -⟩ := List.getElem?_eq_some_iff.mp at_j
      rw [rows _ (List.getElem_mem hi)] at hj
      exact ⟨length ▸ hi, hj⟩

/-- A leg can be looked up if it lies within the matrix. -/
theorem IsSquare.exists_duration_iff (square : m.IsSquare) {i j : Nat} :
    (∃ minutes, m.duration i j = .ok minutes) ↔ i < m.size ∧ j < m.size := by
  have rows : ∀ row ∈ m.durations, row.length = m.size := fun row member => square.rows row (List.mem_append_left _ member)
  constructor
  · rintro ⟨minutes, found⟩
    exact inside_of_entry rfl rows found
  · rintro ⟨hi, hj⟩
    exact exists_entry rfl rows hi hj

theorem IsSquare.exists_leg_iff (square : m.IsSquare) {i j : Nat} :
    (∃ found, leg? m i j = .ok found) ↔ i < m.size ∧ j < m.size := by
  constructor
  · rintro ⟨found, leg⟩
    obtain ⟨minutes, timed, -⟩ := except_bind_eq_ok.mp leg
    exact square.exists_duration_iff.mp ⟨minutes, timed⟩
  · rintro ⟨hi, hj⟩
    obtain ⟨minutes, meters, -, -, leg⟩ := square.leg hi hj
    exact ⟨_, leg⟩

/-- A leg that is looked up is driven if it has a duration. -/
theorem isKnown_of_leg {i j : Nat} {found : Option (α × α)} (leg : leg? m i j = .ok found) :
    isKnown (m.duration i j) = found.isSome := by
  obtain ⟨minutes, timed, leg⟩ := except_bind_eq_ok.mp leg
  rw [timed, isKnown_ok]
  split at leg
  · rename_i finite
    obtain ⟨meters, -, leg⟩ := except_bind_eq_ok.mp leg
    obtain rfl := Except.ok.inj leg
    exact finite
  · rename_i endless
    obtain rfl := Except.ok.inj leg
    exact Bool.not_eq_true _ ▸ endless

end Matrix

/-! ## Walks -/

section

variable {m : Matrix α} {v : Vehicle α}

/-- The last leg of a route is looked up if there is one. -/
theorem exists_close_iff (square : m.IsSquare) (startTime : α) (stops : List (ScheduledStop α)) (here : Place α) :
    (∃ s, closeRoute v m startTime stops (some here) = .ok s) ↔ m.Covers (v.legs here.location []) := by
  rw [Vehicle.legs, closeRoute]
  cases ends : v.endLocation with
  | none =>
    rw [arrive?_of_none m here ends]
    exact iff_of_true ⟨_, rfl⟩ Matrix.covers_nil
  | some goal =>
    show _ ↔ m.Covers [(here.location, goal)]
    have arrival : v.arrive? m here = (leg? m here.location goal).map fun found => found.map fun figures =>
        ⟨goal, here.time + figures.1, here.distance + figures.2⟩ := by
      simp only [Vehicle.arrive?, ends]
      cases leg? m here.location goal with
      | error fault => rfl
      | ok found => cases found <;> rfl
    rw [Matrix.covers_cons, ← square.exists_leg_iff, arrival]
    cases leg? m here.location goal with
    | error fault => simp
    | ok found => exact iff_of_true ⟨_, rfl⟩ ⟨⟨found, rfl⟩, fun _ => Matrix.covers_nil⟩

/-- A drive and an arrival look up no more legs than those up to the first one without a duration. -/
theorem exists_close_drive_iff (square : m.IsSquare) (startTime : α) (here : Place α) (jobs : List (Job α)) :
    (∃ s, (drive m here jobs >>= fun r => closeRoute v m startTime r.1 r.2) = .ok s)
      ↔ m.Covers (v.legs here.location jobs) := by
  induction jobs generalizing here with
  | nil => exact exists_close_iff square startTime [] here
  | cons job rest ih =>
    rw [Vehicle.legs, Matrix.covers_cons, ← square.exists_leg_iff]
    cases leg : leg? m here.location job.location with
    | error fault =>
      rw [drive_cons_of_error rest leg]
      simp
    | ok found =>
      rw [Matrix.isKnown_of_leg leg]
      cases found with
      | none =>
        rw [drive_cons_of_none rest leg]
        exact iff_of_true ⟨_, rfl⟩ ⟨⟨none, rfl⟩, fun known => absurd known (by simp)⟩
      | some figures =>
        rw [close_drive_cons v rest startTime leg]
        have onward := ih (serve here job figures.1 figures.2).place
        constructor
        · rintro ⟨s, walked⟩
          obtain ⟨s', walked, -⟩ := except_map_eq_ok.mp walked
          exact ⟨⟨_, rfl⟩, fun _ => onward.mp ⟨s', walked⟩⟩
        · rintro ⟨-, covers⟩
          obtain ⟨s, walked⟩ := onward.mpr (covers rfl)
          rw [walked]
          exact ⟨_, rfl⟩

/-- A walk that sets out looks up no more legs than those up to the first one without a duration. -/
theorem exists_walk_iff (square : m.IsSquare) (jobs : List (Job α)) (here : Place α) (startTime : α) :
    (∃ s, walk v m jobs here startTime = .ok s)
      ↔ (Quantity.isFinite here.time = true → m.Covers (v.legs here.location jobs)) := by
  cases setsOut : Quantity.isFinite here.time with
  | false =>
    rw [walk_of_not_isFinite setsOut]
    exact iff_of_true ⟨_, rfl⟩ fun finite => absurd finite (by simp)
  | true =>
    rw [walk_of_isFinite setsOut, exists_close_drive_iff square]
    exact ⟨fun covers _ => covers, fun covers => covers rfl⟩

/-- The leg from the start of a vehicle to its dispatch lies within the matrix, unless it is dispatched at its start. -/
def Vehicle.Approaches (v : Vehicle α) (m : Matrix α) : Prop :=
  ∀ d ∈ v.dispatch, ∀ location ∈ d.location, location ≠ v.startLocation → v.startLocation < m.size ∧ location < m.size

theorem exists_approach_iff (square : m.IsSquare) (location : Nat) :
    (∃ figures, v.approach m location = .ok figures)
      ↔ (location ≠ v.startLocation → v.startLocation < m.size ∧ location < m.size) := by
  rw [Vehicle.approach]
  by_cases there : location = v.startLocation
  · rw [if_pos there]
    exact iff_of_true ⟨_, rfl⟩ fun away => absurd there away
  · rw [if_neg there]
    constructor
    · rintro ⟨figures, found⟩ _
      obtain ⟨minutes, timed, -⟩ := except_bind_eq_ok.mp found
      exact square.exists_duration_iff.mp ⟨minutes, timed⟩
    · intro inside
      obtain ⟨minutes, meters, timed, metered, -⟩ := square.leg (inside there).1 (inside there).2
      rw [timed, metered]
      exact ⟨_, rfl⟩

/-- A route has a place where it begins if the way to its dispatch can be looked up. -/
theorem exists_origin_iff (square : m.IsSquare) (startTime : Option α) :
    (∃ start, v.origin m startTime = .ok start) ↔ v.Approaches m := by
  rw [Vehicle.origin, Vehicle.Approaches]
  cases v.dispatch with
  | none => exact iff_of_true ⟨_, rfl⟩ (by simp)
  | some d =>
    have approach := exists_approach_iff (v := v) square (d.location.getD v.startLocation)
    have away : (∀ d' ∈ some d, ∀ location ∈ d'.location, location ≠ v.startLocation →
          v.startLocation < m.size ∧ location < m.size)
        ↔ (d.location.getD v.startLocation ≠ v.startLocation →
          v.startLocation < m.size ∧ d.location.getD v.startLocation < m.size) := by
      simp only [Option.mem_def, Option.some.injEq, forall_eq']
      cases given : d.location with
      | none => simp
      | some location => simp
    rw [away, ← approach]
    constructor
    · rintro ⟨start, begun⟩
      obtain ⟨figures, found, -⟩ := except_bind_eq_ok.mp begun
      exact ⟨figures, found⟩
    · rintro ⟨figures, found⟩
      simp only [found, except_ok_bind]
      exact ⟨_, rfl⟩

theorem origin_eq_error {startTime : Option α} {fault : Fault} (failed : v.origin m startTime = .error fault) :
    fault = .outsideMatrix := by
  rw [Vehicle.origin] at failed
  split at failed
  · exact absurd failed (by simp)
  · rcases except_bind_eq_error.mp failed with failed | ⟨figures, -, failed⟩
    · rw [Vehicle.approach] at failed
      split at failed
      · exact absurd failed (by simp)
      · rcases except_bind_eq_error.mp failed with failed | ⟨minutes, -, failed⟩
        · exact entry_eq_error failed
        · rcases except_bind_eq_error.mp failed with failed | ⟨meters, -, failed⟩
          · exact entry_eq_error failed
          · exact absurd failed (by simp)
    · exact absurd failed (by simp)

end

end Leftover
