/-
# Loads

The load of a vehicle along its route, in several dimensions. Everything to be delivered is on board at
the start and leaves at its stop; everything to be picked up comes on board at its stop.

* `Load.profile` : the load before each stop and at the end
* `Load.peaks`, `Load.peaksAhead` : the highest load so far, and the highest one still to come
-/
import Leftover.Plan.Job

namespace Leftover
namespace Load

variable {α : Type} [Quantity α]

/-! ## Vectors of amounts -/

/-- One amount in each of so many dimensions. -/
def level (dims : Nat) (x : α) : List α := List.replicate dims x

/-- A vector with zeros added up to so many dimensions. -/
def padTo (dims : Nat) (xs : List α) : List α := xs ++ level (dims - xs.length) 0

/-- A load that a demand is brought to, dimension by dimension. Dimensions that the load lacks do not count. -/
def combine (op : α → α → α) : List α → List α → List α
  | x :: xs, q :: qs => op x q :: combine op xs qs
  | xs, [] => xs
  | [], _ => []

/-- A load with a demand taken on board. -/
def add (xs qs : List α) : List α := combine (· + ·) xs qs

/-- A load with a demand taken off board. -/
def remove (xs qs : List α) : List α := combine (· - ·) xs qs

/-! ## Along a route -/

/-- The load at the start of a route: all that is to be delivered. -/
def atStart (dims : Nat) (jobs : List (Job α)) : List α :=
  jobs.foldl (fun xs job => if job.kind = .delivery then add xs job.demand else xs) (level dims 0)

/-- The load after a stop. -/
def after (xs : List α) (job : Job α) : List α :=
  match job.kind with
  | .delivery => remove xs job.demand
  | .pickup => add xs job.demand

/-- The load before each stop and after the last one, from a load on. -/
def profileFrom (xs : List α) : List (Job α) → List (List α)
  | [] => [xs]
  | job :: rest => xs :: profileFrom (after xs job) rest

/-- The load before each stop of a route and after the last one. -/
def profile (dims : Nat) (jobs : List (Job α)) : List (List α) := profileFrom (atStart dims jobs) jobs

/-! ## Peaks -/

/-- The highest load so far, in each dimension on its own, from a peak on. -/
def peaksFrom (peak : List α) : List (List α) → List (List α)
  | [] => []
  | xs :: rest =>
    let peak := List.zipWith Quantity.larger peak xs
    peak :: peaksFrom peak rest

/-- The highest load so far along a list of loads. -/
def peaks (dims : Nat) (loads : List (List α)) : List (List α) :=
  peaksFrom (level dims Quantity.minusInfinity) loads

/-- The highest load still to come along a list of loads. -/
def peaksAhead (dims : Nat) (loads : List (List α)) : List (List α) := (peaks dims loads.reverse).reverse

/-- The highest loads of the two parts of a route when a demand is put in between: a delivery is on board
all through the first part, a pickup all through the second. -/
def joinPeaks (kind : JobKind) (before ahead demand : List α) : List α :=
  match kind with
  | .delivery => List.zipWith (fun (bq : α × α) a => Quantity.larger (bq.1 + bq.2) a) (before.zip demand) ahead
  | .pickup => List.zipWith (fun b (aq : α × α) => Quantity.larger b (aq.1 + aq.2)) before (ahead.zip demand)

end Load
end Leftover
