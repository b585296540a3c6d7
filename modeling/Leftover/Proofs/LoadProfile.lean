/-
# Loads along a route

In each dimension the load at some point of a route is what is still to be delivered and what has been picked up by
then. A job that is put in adds its demand to the loads before it if it is a delivery, and to those after it if it is a
pickup; so the highest load of the longer route can be told from the peaks of the route as it is.

* `Load.padTo_eq_map` : a vector with zeros added
* `Load.profile_eq_map` : the load at each point
* `loadAt_insert_before`, `loadAt_insert_after` : the loads with a job put in
-/
import Leftover.Proofs.ExactOrder
import Mathlib.Algebra.BigOperators.Group.List.Basic
import Mathlib.Order.Bounds.Basic
import Mathlib.Tactic.Linarith
import Mathlib.Tactic.Ring

namespace Leftover

/-! ## Vectors of amounts -/

namespace Load

/-- The amount of a vector in a dimension, zero where it has none. -/
def amountIn (xs : List Exact) (d : Nat) : Rat := ((xs[d]?).bind Exact.toRat?).getD 0

/-- Finite amounts in so many dimensions. -/
def vector (dims : Nat) (f : Nat → Rat) : List Exact := (List.range dims).map fun d => .finite (f d)

@[simp] theorem length_vector (dims : Nat) (f : Nat → Rat) : (vector dims f).length = dims := by simp [vector]

theorem getElem?_vector (dims : Nat) (f : Nat → Rat) (d : Nat) :
    (vector dims f)[d]? = if d < dims then some (.finite (f d)) else none := by
  by_cases h : d < dims
  · simp [vector, h]
  · simp [vector, h]

theorem level_zero (dims : Nat) : (level dims 0 : List Exact) = vector dims fun _ => 0 := by
  apply List.ext_getElem?
  intro d
  rw [getElem?_vector, level, List.getElem?_replicate]
  rfl

/-- Finite amounts are told by their vector. -/
theorem getElem?_eq_amountIn {xs : List Exact} (finite : ∀ x ∈ xs, Quantity.isFinite x = true) (d : Nat) :
    xs[d]? = if d < xs.length then some (.finite (amountIn xs d)) else none := by
  by_cases h : d < xs.length
  · obtain ⟨a, eq⟩ := Exact.isFinite_iff.mp (finite xs[d] (List.getElem_mem h))
    simp [amountIn, h, eq, Exact.toRat?]
  · simp [h]

/-- A vector with zeros added is zero in the dimensions that it lacked. -/
theorem padTo_eq_map {α : Type} [Quantity α] {dims : Nat} {xs : List α} (fits : xs.length ≤ dims) :
    padTo dims xs = (List.range dims).map fun d => (xs[d]?).getD 0 := by
  apply List.ext_getElem?
  intro d
  rw [padTo, level, List.getElem?_append, List.getElem?_replicate, List.getElem?_map]
  by_cases inside : d < xs.length
  · rw [if_pos inside, List.getElem?_range (by omega), Option.map_some, List.getElem?_eq_getElem inside]
    rfl
  · rw [if_neg inside]
    by_cases within : d < dims
    · rw [if_pos (by omega), List.getElem?_range within, Option.map_some, List.getElem?_eq_none (not_lt.mp inside)]
      rfl
    · rw [if_neg (by omega), List.getElem?_eq_none (by simpa using within)]
      rfl

/-- Finite amounts with zeros added. -/
theorem padTo_eq_vector {dims : Nat} {xs : List Exact} (finite : ∀ x ∈ xs, Quantity.isFinite x = true)
    (fits : xs.length ≤ dims) : padTo dims xs = vector dims (amountIn xs) := by
  rw [padTo_eq_map fits]
  refine List.map_congr_left fun d _ => ?_
  rw [getElem?_eq_amountIn finite]
  split
  · rfl
  · rename_i lacking
    rw [amountIn, List.getElem?_eq_none (not_lt.mp lacking)]
    rfl

theorem padTo_vector {dims dims' : Nat} {f : Nat → Rat} (fits : dims ≤ dims') (beyond : ∀ d, dims ≤ d → f d = 0) :
    padTo dims' (vector dims f) = vector dims' f := by
  have finite : ∀ x ∈ vector dims f, Quantity.isFinite x = true := by
    intro x member
    obtain ⟨d, -, rfl⟩ := List.mem_map.mp member
    rfl
  rw [padTo_eq_vector finite (by simpa using fits)]
  congr 1
  funext d
  rw [amountIn, getElem?_vector]
  by_cases inside : d < dims
  · simp [inside, Exact.toRat?]
  · simp [inside, beyond d (not_lt.mp inside)]

theorem getElem?_combine {α : Type} (op : α → α → α) (xs qs : List α) (d : Nat) :
    (combine op xs qs)[d]? = (xs[d]?).map fun x => (qs[d]?).elim x (op x) := by
  induction xs generalizing qs d with
  | nil => cases qs <;> simp [combine]
  | cons x rest ih =>
    cases qs with
    | nil => simp [combine]
    | cons q qs =>
      cases d with
      | zero => simp [combine]
      | succ d => simpa [combine] using ih qs d

/-- A demand is brought to a load dimension by dimension. -/
theorem combine_vector {op : Exact → Exact → Exact} {op' : Rat → Rat → Rat}
    (agree : ∀ a b, op (.finite a) (.finite b) = .finite (op' a b)) (zero : ∀ a, op' a 0 = a) {dims : Nat}
    {f : Nat → Rat} {qs : List Exact} (finite : ∀ q ∈ qs, Quantity.isFinite q = true) :
    combine op (vector dims f) qs = vector dims fun d => op' (f d) (amountIn qs d) := by
  apply List.ext_getElem?
  intro d
  rw [getElem?_combine, getElem?_vector, getElem?_vector, getElem?_eq_amountIn finite]
  by_cases inside : d < dims
  · by_cases given : d < qs.length
    · simp [inside, given, agree]
    · have none_there : amountIn qs d = 0 := by simp [amountIn, List.getElem?_eq_none (not_lt.mp given)]
      simp [inside, given, none_there, zero]
  · simp [inside]

theorem zipWith_vector {β : Type} (op : Exact → Exact → β) (dims : Nat) (f g : Nat → Rat) :
    List.zipWith op (vector dims f) (vector dims g)
      = (List.range dims).map fun d => op (.finite (f d)) (.finite (g d)) := by
  rw [vector, vector, List.zipWith_map, List.zipWith_self]

end Load

/-! ## Amounts of jobs -/

namespace Job

/-- What a job takes off board in a dimension. -/
def dropped (job : Job Exact) (d : Nat) : Rat := if job.kind = .delivery then Load.amountIn job.demand d else 0

/-- What a job brings on board in a dimension. -/
def collected (job : Job Exact) (d : Nat) : Rat := if job.kind = .pickup then Load.amountIn job.demand d else 0

end Job

/-- What jobs take off board. -/
def droppedBy (jobs : List (Job Exact)) (d : Nat) : Rat := (jobs.map (·.dropped d)).sum

/-- What jobs bring on board. -/
def collectedBy (jobs : List (Job Exact)) (d : Nat) : Rat := (jobs.map (·.collected d)).sum

/-- The load of a route before the `k`-th stop: what is still to be delivered and what has been picked up. -/
def loadAt (jobs : List (Job Exact)) (k d : Nat) : Rat := droppedBy (jobs.drop k) d + collectedBy (jobs.take k) d

@[simp] theorem droppedBy_nil (d : Nat) : droppedBy [] d = 0 := rfl

@[simp] theorem collectedBy_nil (d : Nat) : collectedBy [] d = 0 := rfl

@[simp] theorem droppedBy_cons (job : Job Exact) (jobs : List (Job Exact)) (d : Nat) :
    droppedBy (job :: jobs) d = job.dropped d + droppedBy jobs d := by simp [droppedBy]

@[simp] theorem collectedBy_cons (job : Job Exact) (jobs : List (Job Exact)) (d : Nat) :
    collectedBy (job :: jobs) d = job.collected d + collectedBy jobs d := by simp [collectedBy]

@[simp] theorem droppedBy_append (xs ys : List (Job Exact)) (d : Nat) :
    droppedBy (xs ++ ys) d = droppedBy xs d + droppedBy ys d := by simp [droppedBy]

@[simp] theorem collectedBy_append (xs ys : List (Job Exact)) (d : Nat) :
    collectedBy (xs ++ ys) d = collectedBy xs d + collectedBy ys d := by simp [collectedBy]

/-- The load is what the vehicle sets out with, less what has been delivered, and what has been picked up. -/
theorem loadAt_eq (jobs : List (Job Exact)) (k d : Nat) :
    loadAt jobs k d = droppedBy jobs d - droppedBy (jobs.take k) d + collectedBy (jobs.take k) d := by
  have parts := droppedBy_append (jobs.take k) (jobs.drop k) d
  rw [List.take_append_drop] at parts
  rw [loadAt]
  linarith

/-! ### A job put in -/

section

variable {jobs : List (Job Exact)} {k : Nat} (job : Job Exact)

/-- Before a job that is put in, the load has its delivery on top. -/
theorem loadAt_insert_before (inside : k ≤ jobs.length) {i : Nat} (before : i ≤ k) (d : Nat) :
    loadAt (jobs.take k ++ job :: jobs.drop k) i d = loadAt jobs i d + job.dropped d := by
  -- the stops up to the point are those of the route as it is
  have same : (jobs.take k ++ job :: jobs.drop k).take i = jobs.take i := by
    rw [List.take_append_of_le_length (by simp; omega), List.take_take, min_eq_left before]
  have all := droppedBy_append (jobs.take k) (jobs.drop k) d
  rw [List.take_append_drop] at all
  rw [loadAt_eq, loadAt_eq, same, droppedBy_append, droppedBy_cons]
  linarith

/-- After a job that is put in, the load has its pickup on top. -/
theorem loadAt_insert_after (inside : k ≤ jobs.length) {i : Nat} (after : k ≤ i) (d : Nat) :
    loadAt (jobs.take k ++ job :: jobs.drop k) (i + 1) d = loadAt jobs i d + job.collected d := by
  -- the stops up to the point are those of the route as it is, and the job among them
  have longer : (jobs.take k ++ job :: jobs.drop k).take (i + 1) = jobs.take k ++ job :: (jobs.drop k).take (i - k) := by
    have length : (jobs.take k).length = k := by simp [inside]
    rw [List.take_append, length, List.take_of_length_le (by omega), show i + 1 - k = i - k + 1 by omega,
      List.take_succ_cons]
  have same : jobs.take i = jobs.take k ++ (jobs.drop k).take (i - k) := by
    rw [← List.take_add, show k + (i - k) = i by omega]
  have all := droppedBy_append (jobs.take k) (jobs.drop k) d
  rw [List.take_append_drop] at all
  rw [loadAt_eq, loadAt_eq, longer, same]
  simp only [droppedBy_append, droppedBy_cons, collectedBy_append, collectedBy_cons]
  linarith

end

/-! ## Profiles -/

namespace Load

theorem after_vector {dims : Nat} {f : Nat → Rat} {job : Job Exact}
    (finite : ∀ q ∈ job.demand, Quantity.isFinite q = true) :
    after (vector dims f) job = vector dims fun d => f d - job.dropped d + job.collected d := by
  rw [after]
  cases kind : job.kind with
  | delivery =>
    rw [remove, combine_vector Exact.finite_sub_finite sub_zero finite]
    simp [Job.dropped, Job.collected, kind]
  | pickup =>
    rw [add, combine_vector Exact.finite_add_finite add_zero finite]
    simp [Job.dropped, Job.collected, kind]

variable {jobs : List (Job Exact)} (finite : ∀ job ∈ jobs, ∀ q ∈ job.demand, Quantity.isFinite q = true)

include finite

/-- A vehicle sets out with all that is to be delivered. -/
theorem atStart_eq (dims : Nat) : atStart dims jobs = vector dims (droppedBy jobs) := by
  -- the induction needs any load to begin with
  have on_top : ∀ f : Nat → Rat,
      jobs.foldl (fun xs job => if job.kind = .delivery then add xs job.demand else xs) (vector dims f)
        = vector dims fun d => f d + droppedBy jobs d := by
    induction jobs with
    | nil => simp
    | cons job rest ih =>
      rw [List.forall_mem_cons] at finite
      intro f
      have first : (if job.kind = .delivery then add (vector dims f) job.demand else vector dims f)
          = vector dims fun d => f d + job.dropped d := by
        split
        · rename_i kind
          rw [add, combine_vector Exact.finite_add_finite add_zero finite.1]
          simp [Job.dropped, kind]
        · rename_i kind
          simp [Job.dropped, kind]
      rw [List.foldl_cons, first, ih finite.2]
      simp only [droppedBy_cons, add_assoc]
  rw [atStart, level_zero, on_top]
  simp

theorem profileFrom_vector (dims : Nat) (f : Nat → Rat) :
    profileFrom (vector dims f) jobs = (List.range (jobs.length + 1)).map fun k =>
      vector dims fun d => f d - droppedBy (jobs.take k) d + collectedBy (jobs.take k) d := by
  induction jobs generalizing f with
  | nil => simp [profileFrom]
  | cons job rest ih =>
    rw [List.forall_mem_cons] at finite
    rw [profileFrom, after_vector finite.1, ih finite.2, List.length_cons,
      List.range_succ_eq_map (n := rest.length + 1), List.map_cons, List.map_map]
    congr 1
    · simp
    · apply List.map_congr_left
      intro k _
      simp only [Function.comp, Nat.succ_eq_add_one, List.take_succ_cons, droppedBy_cons, collectedBy_cons]
      congr 1
      funext d
      ring

/-- The load at each point of a route. -/
theorem profile_eq_map (dims : Nat) :
    profile dims jobs = (List.range (jobs.length + 1)).map fun k => vector dims (loadAt jobs k) := by
  rw [profile, atStart_eq finite, profileFrom_vector finite]
  apply List.map_congr_left
  intro k _
  congr 1
  funext d
  rw [loadAt_eq]

end Load

end Leftover
