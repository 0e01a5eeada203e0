import LiveRuns.Run.Wire

/-!
Filters.

A stream is narrowed by agent and status, a listing also by time.  Every part is optional.  On the
wire a filter is an object, with unknown members passed over, or the list of its parts in order,
which may stop early; in a request it is a list of query pairs.
-/

namespace LiveRuns

open LiveRuns.Json (Tree Literal)

structure StreamParams where
  agentId : Option String := none
  status : Option RunStatus := none
deriving DecidableEq, Inhabited

structure RunQuery where
  agentId : Option String := none
  status : Option RunStatus := none
  since : Option Timestamp := none
  before : Option Timestamp := none
deriving DecidableEq, Inhabited

def pair? {α : Type} (name : String) (write : α → String) (value : Option α) :
    List (String × String) :=
  (value.map fun v => (name, write v)).toList

namespace StreamParams

def pairs (p : StreamParams) : List (String × String) :=
  pair? "agentId" (fun s => s) p.agentId ++ pair? "status" RunStatus.name p.status

def toQuery (p : StreamParams) : RunQuery := { agentId := p.agentId, status := p.status }

structure Draft where
  agentId : Option (Option String) := none
  status : Option (Option RunStatus) := none

def Draft.add (room : Nat) (draft : Draft) (member : Literal × Tree) :
    Except Wire.Error Draft := do
  let (key, value) := member
  let name ← Wire.form key.read
  if name = "agentId" then
    Run.once name draft.agentId
    return { draft with agentId := some (← Wire.optional Wire.text room value) }
  else if name = "status" then
    Run.once name draft.status
    return { draft with status := some (← Wire.optional RunStatus.decoder room value) }
  else
    Wire.skipped room value
    return draft

def decoder : Wire.Decoder StreamParams
  | room, .object members ending => Wire.descend room fun room => do
    let draft ← members.foldlM (Draft.add room) {}
    Wire.form ending.close
    return ⟨draft.agentId.join, draft.status.join⟩
  | room, .list items ending => Wire.descend room fun room => do
    let (agentId, items) ← Wire.next (Wire.optional Wire.text) room items ending
    let (status, items) ← Wire.next (Wire.optional RunStatus.decoder) room items ending
    Wire.noMore items ending
    return ⟨agentId.join, status.join⟩
  | _, tree => .error (Wire.mismatch "struct StreamParams" tree)

def ofText (text : String) : Except Wire.Error StreamParams := Wire.decode decoder text

def toJson (p : StreamParams) : Json.Value :=
  .object (Run.member? "agentId" (fun s => s) p.agentId ++ Run.member? "status" RunStatus.name p.status)

end StreamParams

namespace RunQuery

/-- The query pairs of a listing request; times are cut to milliseconds. -/
def pairs (q : RunQuery) : List (String × String) :=
  pair? "agentId" (fun s => s) q.agentId ++ pair? "status" RunStatus.name q.status ++
    pair? "from" Timestamp.milliText q.since ++ pair? "to" Timestamp.milliText q.before

structure Draft where
  agentId : Option (Option String) := none
  status : Option (Option RunStatus) := none
  since : Option (Option Timestamp) := none
  before : Option (Option Timestamp) := none

def Draft.add (room : Nat) (draft : Draft) (member : Literal × Tree) :
    Except Wire.Error Draft := do
  let (key, value) := member
  let name ← Wire.form key.read
  if name = "agentId" then
    Run.once name draft.agentId
    return { draft with agentId := some (← Wire.optional Wire.text room value) }
  else if name = "status" then
    Run.once name draft.status
    return { draft with status := some (← Wire.optional RunStatus.decoder room value) }
  else if name = "from" then
    Run.once name draft.since
    return { draft with since := some (← Wire.optional Wire.timestamp room value) }
  else if name = "to" then
    Run.once name draft.before
    return { draft with before := some (← Wire.optional Wire.timestamp room value) }
  else
    Wire.skipped room value
    return draft

def decoder : Wire.Decoder RunQuery
  | room, .object members ending => Wire.descend room fun room => do
    let draft ← members.foldlM (Draft.add room) {}
    Wire.form ending.close
    return ⟨draft.agentId.join, draft.status.join, draft.since.join, draft.before.join⟩
  | room, .list items ending => Wire.descend room fun room => do
    let (agentId, items) ← Wire.next (Wire.optional Wire.text) room items ending
    let (status, items) ← Wire.next (Wire.optional RunStatus.decoder) room items ending
    let (since, items) ← Wire.next (Wire.optional Wire.timestamp) room items ending
    let (before, items) ← Wire.next (Wire.optional Wire.timestamp) room items ending
    Wire.noMore items ending
    return ⟨agentId.join, status.join, since.join, before.join⟩
  | _, tree => .error (Wire.mismatch "struct RunQuery" tree)

def ofText (text : String) : Except Wire.Error RunQuery := Wire.decode decoder text

def toJson (q : RunQuery) : Json.Value :=
  .object (Run.member? "agentId" (fun s => s) q.agentId ++ Run.member? "status" RunStatus.name q.status ++
    Run.member? "from" Timestamp.text q.since ++ Run.member? "to" Timestamp.text q.before)

end RunQuery

end LiveRuns
