/-
# When a job is served

A job whose windows are all over on arrival is served late, at once. Otherwise it is served in the first
window, by opening time, that is not over yet, after a wait if the window is not open yet.

* `serviceStart` : the start of the service and how late it is
-/
import Leftover.Plan.Job

namespace Leftover

variable {α : Type} [Quantity α]

/-- The first of some windows, ordered by opening time, that is not over at a time. -/
def firstUsable? (windows : List (Window α)) (time : α) : Option (Window α) :=
  windows.find? fun w => time ≤ w.closes

/-- When the service of a job starts after an arrival, and how many minutes after the end of its last
window. -/
def serviceStart (job : Job α) (arrival : α) : α × α :=
  let windows := Window.byStart job.windows
  if windows.isEmpty then (arrival, 0)
  else
    match firstUsable? windows arrival with
    | some w => (Quantity.larger arrival w.opens, 0)
    | none => (arrival, arrival - Quantity.largest 0 (windows.map (·.closes)))

end Leftover
