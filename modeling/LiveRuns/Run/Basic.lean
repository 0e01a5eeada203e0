import LiveRuns.Run.Status

/-!
Runs.

A run is known by its id.  Everything else about it is optional, since a message about a run may
carry only what has changed; `merge` lays such a message over what is known.  Members that have no
field of their own are kept as they come.
-/

namespace LiveRuns

structure Run where
  id : String
  agentId : Option String
  status : Option RunStatus
  startedAt : Option Timestamp
  updatedAt : Option Timestamp
  extra : Fields Json.Value
deriving Inhabited

namespace Run

def ofId (id : String) : Run := ⟨id, none, none, none, none, .empty⟩

def withAgent (run : Run) (agentId : String) : Run := { run with agentId := some agentId }

def withStatus (run : Run) (status : RunStatus) : Run := { run with status := some status }

/-- Lay what a patch says over a run: present fields win, absent ones leave the run as it is, and
extra members are replaced whole.  The id of the patch does not count. -/
def merge (run patch : Run) : Run where
  id := run.id
  agentId := patch.agentId.or run.agentId
  status := patch.status.or run.status
  startedAt := patch.startedAt.or run.startedAt
  updatedAt := patch.updatedAt.or run.updatedAt
  extra := run.extra.overlay patch.extra

end Run

end LiveRuns
