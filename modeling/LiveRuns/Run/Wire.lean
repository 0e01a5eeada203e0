import LiveRuns.Run.Basic
import LiveRuns.Timestamp.Printer

/-!
Runs on the wire.

A run is a JSON object.  Its typed members may be `null`, which means absent, but may not be
repeated; of other members the last of each name is kept, nulls included.  `Run.members` is the
object that is written: the present typed members first, then the others by name.
-/

namespace LiveRuns.Run

open LiveRuns.Json (Tree Literal)

/-- What has been read of a run: `none` marks a member that has not come, `some none` one that was
`null`. -/
structure Draft where
  id : Option String := none
  agentId : Option (Option String) := none
  status : Option (Option RunStatus) := none
  startedAt : Option (Option Timestamp) := none
  updatedAt : Option (Option Timestamp) := none
  extra : Fields Json.Value := .empty

/-- A typed member may come once. -/
def once {α : Type} (name : String) (seen : Option α) : Except Wire.Error Unit :=
  if seen.isSome then .error (.repeated name) else .ok ()

def Draft.add (room : Nat) (draft : Draft) (member : Literal × Tree) :
    Except Wire.Error Draft := do
  let (key, value) := member
  let name ← Wire.form key.read
  if name = "id" then
    once name draft.id
    return { draft with id := some (← Wire.text room value) }
  else if name = "agentId" then
    once name draft.agentId
    return { draft with agentId := some (← Wire.optional Wire.text room value) }
  else if name = "status" then
    once name draft.status
    return { draft with status := some (← Wire.optional RunStatus.decoder room value) }
  else if name = "startedAt" then
    once name draft.startedAt
    return { draft with startedAt := some (← Wire.optional Wire.timestamp room value) }
  else if name = "updatedAt" then
    once name draft.updatedAt
    return { draft with updatedAt := some (← Wire.optional Wire.timestamp room value) }
  else
    return { draft with extra := draft.extra.insert name (← Wire.value room value) }

def Draft.finish (draft : Draft) : Except Wire.Error Run :=
  match draft.id with
  | none => .error (.missing "id")
  | some id =>
    .ok ⟨id, draft.agentId.join, draft.status.join, draft.startedAt.join, draft.updatedAt.join,
      draft.extra⟩

def decoder : Wire.Decoder Run
  | room, .object members ending => Wire.descend room fun room => do
    let draft ← members.foldlM (Draft.add room) {}
    Wire.form ending.close
    draft.finish
  | _, tree => .error (Wire.mismatch "struct Run" tree)

def ofText (text : String) : Except Wire.Error Run := Wire.decode decoder text

def listOfText (text : String) : Except Wire.Error (List Run) :=
  Wire.decode (Wire.list decoder) text

/-- A member that is written only if it has a value. -/
def member? {α : Type} (name : String) (write : α → String) (value : Option α) :
    List (String × Json.Value) :=
  (value.map fun v => (name, Json.Value.text (write v))).toList

def typedMembers (run : Run) : List (String × Json.Value) :=
  ("id", .text run.id) ::
    (member? "agentId" (fun s => s) run.agentId ++ member? "status" RunStatus.name run.status ++
      member? "startedAt" Timestamp.text run.startedAt ++
      member? "updatedAt" Timestamp.text run.updatedAt)

def members (run : Run) : List (String × Json.Value) := run.typedMembers ++ run.extra.entries

def toJson (run : Run) : Json.Value := .object run.members

def toText (run : Run) : String := run.toJson.toText

end LiveRuns.Run
