/-
# Who works on what does not matter

Tasks are neither lost nor doubled in a pool, so results that are put in the order of the tasks do not depend on the
number of workers or on the order in which they are done.

* `Pool.make?_perm`, `Pool.run?_perm` : every task stays in the pool, once
* `Roster.done_perm` : in the end all tasks are done, each once
* `ReportBuilder.explainAll_entries` : the entries are those of the jobs, one by one
-/
import Leftover.Proofs.Lookup
import Leftover.Report.Explain

namespace Leftover

/-! ## Pools -/

namespace Pool

open scoped List

/-- All tasks of a pool. -/
def tasks (p : Pool) : List Nat := p.waiting ++ p.running ++ p.done

/-- A move keeps the tasks of a pool. -/
theorem make?_perm {workers : Nat} {p q : Pool} {move : Move} (made : p.make? workers move = some q) :
    q.tasks.Perm p.tasks := by
  cases move with
  | start k =>
    rw [make?] at made
    split at made
    · rename_i possible
      obtain rfl := Option.some.inj made
      show (p.waiting.erase k ++ k :: p.running ++ p.done).Perm (p.waiting ++ p.running ++ p.done)
      apply List.Perm.append_right
      calc p.waiting.erase k ++ k :: p.running
          _ ~ k :: (p.waiting.erase k ++ p.running) := List.perm_middle
          _ ~ p.waiting ++ p.running := (List.perm_cons_erase possible.1).symm.append_right p.running
    · exact absurd made (by simp)
  | finish k =>
    rw [make?] at made
    split at made
    · rename_i running
      obtain rfl := Option.some.inj made
      show (p.waiting ++ p.running.erase k ++ (p.done ++ [k])).Perm (p.waiting ++ p.running ++ p.done)
      rw [List.append_assoc, List.append_assoc]
      apply List.Perm.append_left
      calc p.running.erase k ++ (p.done ++ [k])
          _ ~ p.running.erase k ++ k :: p.done := (List.perm_append_singleton k p.done).append_left _
          _ ~ k :: p.running.erase k ++ p.done := List.perm_middle
          _ ~ p.running ++ p.done := (List.perm_cons_erase running).symm.append_right p.done
    · exact absurd made (by simp)

/-- A run of moves keeps the tasks of a pool. -/
theorem run?_perm {workers : Nat} {p q : Pool} {moves : List Move} (run : p.run? workers moves = some q) :
    q.tasks.Perm p.tasks := by
  induction moves generalizing p with
  | nil =>
    obtain rfl := Option.some.inj run
    exact List.Perm.refl _
  | cons move rest ih =>
    rw [run?] at run
    cases made : p.make? workers move with
    | none =>
      rw [made] at run
      exact absurd run (by simp)
    | some next =>
      rw [made] at run
      exact (ih run).trans (make?_perm made)

end Pool

namespace Roster

variable {workers tasks : Nat}

/-- In the end all tasks are done, each once. -/
theorem done_perm (r : Roster workers tasks) : r.last.done.Perm (List.range tasks) := by
  have kept := Pool.run?_perm r.run_eq
  have idle := r.idle
  rw [Pool.isIdle, Bool.and_eq_true, List.isEmpty_iff, List.isEmpty_iff] at idle
  rw [Pool.tasks, idle.1, idle.2] at kept
  simpa [Pool.tasks, Pool.submit] using kept

theorem mem_done {r : Roster workers tasks} {k : Nat} : k ∈ r.last.done ↔ k < tasks := by
  rw [r.done_perm.mem_iff, List.mem_range]

end Roster

/-! ## Results in order -/

/-- A place is filled with the value of its number if it is one of those to be filled. -/
theorem getElem?_foldl_set {β : Type} (value : Nat → β) (numbers : List Nat) (places : List β) (i : Nat) :
    (numbers.foldl (fun done k => done.set k (value k)) places)[i]?
      = if i ∈ numbers ∧ i < places.length then some (value i) else places[i]? := by
  induction numbers generalizing places with
  | nil => simp
  | cons k rest ih =>
    rw [List.foldl_cons, ih, List.length_set, List.getElem?_set]
    by_cases inside : i < places.length
    · by_cases same : k = i
      · subst same
        simp [inside]
      · simp [inside, same, Ne.symm same]
    · have outside : ¬k = i ∨ ¬k < places.length := by omega
      rcases outside with other | outside
      · simp [inside, other]
      · by_cases same : k = i
        · simp [inside, same]
        · simp [inside, same]

/-- The results that are put in order are those handed in for the tasks, one by one. -/
theorem gather_eq_map {γ : Type} (tasks : Nat) (results : List (Nat × γ)) :
    gather tasks results = (List.range tasks).map fun k => results.lookup k := by
  apply List.ext_getElem?
  intro i
  rw [gather, getElem?_foldl_set, List.getElem?_map]
  by_cases inside : i < tasks
  · simp [inside]
  · simp [inside]

namespace ReportBuilder

variable {α : Type} [Quantity α] [Plane α] (b : ReportBuilder α)

/-- What the workers hand in, put in order, is what is found out about the jobs one by one. -/
theorem gather_handedIn (timer : Option (Timer α)) (jobs : List (Job α)) (roster : Roster b.workers jobs.length) :
    gather jobs.length (b.handedIn timer jobs roster.last.done)
      = jobs.map fun job => some (b.explain (isLate timer job.id) job) := by
  rw [gather_eq_map]
  apply List.ext_getElem
  · simp
  · intro i inside inside'
    have inside : i < jobs.length := by simpa using inside
    rw [List.getElem_map, List.getElem_map, List.getElem_range, handedIn]
    -- every task is done, so its result is there to be looked up
    have found := lookup_filterMap
      (fun k => (jobs[k]?).map fun job => b.explain (isLate timer job.id) job) roster.last.done i
    rw [if_pos (Roster.mem_done.mpr inside)] at found
    simp only [Option.map_map, Function.comp_def, List.getElem?_eq_getElem inside, Option.map_some] at found
    exact found

/-- However many workers there are and however they go about it, the entries are those of the jobs, one by one. -/
theorem explainAll_entries (timer : Option (Timer α)) (plan : b.Plan) (jobs : List (Job α)) :
    (b.explainAll timer plan jobs).2 = jobs.map fun job => (b.explain (isLate timer job.id) job).2 := by
  unfold explainAll
  split
  · simp
  · simp [gather_handedIn, List.filterMap_map]

end ReportBuilder

end Leftover
