/-
# Workers

Tasks handed to a pool of workers. A free worker takes up a task that waits, and hands in its result when the
task is done; which of the possible moves comes next is left open.

* `Pool` : the tasks that wait, those that are worked on, and those that are done
* `Move`, `Pool.make?` : what can happen next
* `Roster` : one order in which all tasks are taken up and done
* `Roster.inTurn` : the tasks one after the other
* `gather` : results as they were handed in, put in the order of the tasks
-/

namespace Leftover

/-! ## Pools -/

/-- The tasks that wait, those that are worked on, and those that are done, in the order in which they were
done. Tasks go by their numbers. -/
structure Pool where
  waiting : List Nat
  running : List Nat
  done : List Nat
  deriving DecidableEq

/-- What can happen in a pool. -/
inductive Move : Type where
  /-- A free worker takes up a waiting task. -/
  | start (task : Nat)
  /-- The result of a task is handed in. -/
  | finish (task : Nat)
  deriving DecidableEq

namespace Pool

/-- A pool that so many tasks have just been handed to. -/
def submit (tasks : Nat) : Pool := ⟨List.range tasks, [], []⟩

/-- The pool after a move, if that is possible with so many workers. -/
def make? (workers : Nat) (p : Pool) : Move → Option Pool
  | .start k =>
    if k ∈ p.waiting ∧ p.running.length < workers then
      some { p with waiting := p.waiting.erase k, running := k :: p.running }
    else none
  | .finish k =>
    if k ∈ p.running then some { p with running := p.running.erase k, done := p.done ++ [k] } else none

/-- The pool after some moves, if each of them is possible when it is its turn. -/
def run? (workers : Nat) : Pool → List Move → Option Pool
  | p, [] => some p
  | p, move :: rest =>
    match p.make? workers move with
    | none => none
    | some q => run? workers q rest

/-- No task waits or is worked on. -/
def isIdle (p : Pool) : Bool := p.waiting.isEmpty && p.running.isEmpty

end Pool

/-! ## Rosters -/

/-- An order in which so many workers take up tasks and are done with them, until nothing is left to do. -/
structure Roster (workers tasks : Nat) where
  moves : List Move
  last : Pool
  run_eq : (Pool.submit tasks).run? workers moves = some last
  idle : last.isIdle = true

namespace Roster

/-- The moves that take up the tasks one after the other, each when the one before is done. -/
def movesInTurn (tasks : List Nat) : List Move := tasks.flatMap fun k => [.start k, .finish k]

theorem run?_movesInTurn {workers : Nat} (h : 0 < workers) (waiting done : List Nat) :
    (⟨waiting, [], done⟩ : Pool).run? workers (movesInTurn waiting) = some ⟨[], [], done ++ waiting⟩ := by
  induction waiting generalizing done with
  | nil => simp [movesInTurn, Pool.run?]
  | cons k rest ih =>
    have ih := ih (done ++ [k])
    rw [movesInTurn] at ih ⊢
    simp [Pool.run?, Pool.make?, h, ih]

/-- The tasks one after the other. -/
def inTurn {workers : Nat} (h : 0 < workers) (tasks : Nat) : Roster workers tasks where
  moves := movesInTurn (List.range tasks)
  last := ⟨[], [], List.range tasks⟩
  run_eq := run?_movesInTurn h _ _
  idle := rfl

end Roster

/-! ## Results -/

/-- Results put in the order of their tasks: one place for each task, filled with the result that was handed in
for it. -/
def gather {γ : Type} (tasks : Nat) (results : List (Nat × γ)) : List (Option γ) :=
  (List.range tasks).foldl (fun places k => places.set k (results.lookup k)) (List.replicate tasks none)

end Leftover
