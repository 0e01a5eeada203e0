import LiveRuns.Event

/-!
The bounded list of runs.

`reconcile` applies one event to the list: a run that is listed is merged in its place, whatever
the kind of the event, and any other goes to the front.  `clamp` then keeps the first run of each
id, up to the capacity.  Nothing else writes the list, so it never holds more runs than the
capacity or one id twice.
-/

namespace LiveRuns.Roster

def defaultCapacity : Nat := 50

/-- Keep the runs whose id has not been seen, until as many ids as the capacity have been. -/
def clampSeen (capacity : Nat) (seen : List String) : List Run → List Run
  | [] => []
  | run :: runs =>
    if seen.length < capacity ∧ run.id ∉ seen then run :: clampSeen capacity (run.id :: seen) runs
    else clampSeen capacity seen runs

/-- Keep the first run of each id, and of these the first ones up to the capacity. -/
def clamp (runs : List Run) (capacity : Nat) : List Run := clampSeen capacity [] runs

/-- Merge a patch into the first run with its id; `none` if there is no such run. -/
def mergeInto? (patch : Run) : List Run → Option (List Run)
  | [] => none
  | run :: runs =>
    if run.id = patch.id then some (run.merge patch :: runs)
    else (mergeInto? patch runs).map (run :: ·)

def reconcile (runs : List Run) (event : RunEvent) (capacity : Nat) : List Run :=
  clamp ((mergeInto? event.data runs).getD (event.data :: runs)) capacity

end LiveRuns.Roster
