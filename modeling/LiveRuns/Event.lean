import LiveRuns.Run.Wire

/-!
Events about runs.

An event says what has happened to a run and carries what is now known of it.  On the wire it is
an object with the members `type` and `data`, others being passed over, or a list of just the two.
-/

namespace LiveRuns

open LiveRuns.Json (Tree Literal)

inductive EventKind where
  | start
  | update
  | complete
  | error
deriving DecidableEq, Repr

namespace EventKind

def name : EventKind → String
  | .start => "start"
  | .update => "update"
  | .complete => "complete"
  | .error => "error"

def all : List EventKind := [.start, .update, .complete, .error]

def ofName? (name : String) : Option EventKind := all.find? (·.name = name)

def decoder : Wire.Decoder EventKind :=
  Wire.named fun name =>
    match ofName? name with
    | some kind => .ok kind
    | none => .error (.unknownName name (all.map EventKind.name))

end EventKind

structure RunEvent where
  kind : EventKind
  data : Run

namespace RunEvent

structure Draft where
  kind : Option EventKind := none
  data : Option Run := none

def Draft.add (room : Nat) (draft : Draft) (member : Literal × Tree) :
    Except Wire.Error Draft := do
  let (key, value) := member
  let name ← Wire.form key.read
  if name = "type" then
    Run.once name draft.kind
    return { draft with kind := some (← EventKind.decoder room value) }
  else if name = "data" then
    Run.once name draft.data
    return { draft with data := some (← Run.decoder room value) }
  else
    Wire.skipped room value
    return draft

def Draft.finish (draft : Draft) : Except Wire.Error RunEvent :=
  match draft.kind, draft.data with
  | none, _ => .error (.missing "type")
  | some _, none => .error (.missing "data")
  | some kind, some data => .ok ⟨kind, data⟩

def tooShort (length : Nat) : Wire.Error :=
  .wrongLength length "struct RunStreamEvent with 2 elements"

def decoder : Wire.Decoder RunEvent
  | room, .object members ending => Wire.descend room fun room => do
    let draft ← members.foldlM (Draft.add room) {}
    Wire.form ending.close
    draft.finish
  | room, .list items ending => Wire.descend room fun room => do
    let (kind, items) ← Wire.next EventKind.decoder room items ending
    let some kind := kind | throw (tooShort 0)
    let (data, items) ← Wire.next Run.decoder room items ending
    let some data := data | throw (tooShort 1)
    Wire.noMore items ending
    return ⟨kind, data⟩
  | _, tree => .error (Wire.mismatch "struct RunStreamEvent" tree)

def ofText (text : String) : Except Wire.Error RunEvent := Wire.decode decoder text

def toJson (event : RunEvent) : Json.Value :=
  .object [("type", .text event.kind.name), ("data", event.data.toJson)]

def toText (event : RunEvent) : String := event.toJson.toText

end RunEvent

end LiveRuns
