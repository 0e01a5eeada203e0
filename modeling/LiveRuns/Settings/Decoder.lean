import LiveRuns.Settings.Basic
import LiveRuns.Settings.Fault

/-!
Reading settings from a tree.

A setting converts to the kind that is expected where that makes sense: numbers and truth values are
also text, texts may spell numbers and truth values, and decimals round.  A section may be a list of
its values in order.
-/

namespace LiveRuns.Settings

/-- A node, and the key at which it stands. -/
structure Place where
  key : String
  tree : Tree

namespace Place

def mismatch (place : Place) (expected : Expected) : Fault :=
  .wrongType place.tree.found expected place.key place.tree.origin

def text (place : Place) : Except Fault String :=
  match place.tree with
  | .leaf _ (.text value) => .ok value
  | .leaf _ (.bool value) => .ok (if value then "true" else "false")
  | .leaf _ (.integer i) => .ok (toString i)
  | .leaf _ (.float bits) => .ok (String.ofList (Decimal.positional bits))
  | _ => .error (place.mismatch .text)

/-- The text in a place, which may say nothing. -/
def optionalText (place : Place) : Except Fault (Option String) :=
  match place.tree with
  | .leaf _ .nothing => .ok none
  | _ => place.text.map some

def yes : List (List Char) := ["true".toList, "on".toList, "yes".toList]

def no : List (List Char) := ["false".toList, "off".toList, "no".toList]

/-- The natural number in a place, of up to 64 bits. -/
def natural (place : Place) : Except Fault Nat :=
  match place.tree with
  | .leaf _ (.integer i) => if i < 0 then .error (place.mismatch .natural) else .ok i.toNat
  | .leaf _ (.bool value) => .ok (if value then 1 else 0)
  | .leaf _ (.float bits) => .ok (Decimal.toNat bits 0xFFFFFFFFFFFFFFFF)
  | .leaf _ (.text value) =>
    let lower := Unicode.lower value.toList
    if yes.contains lower then .ok 1
    else if no.contains lower then .ok 0
    else
      match Decimal.natural value.toList with
      | .ok n => .ok n
      | .error _ => .error (place.mismatch .integer)
  | _ => .error (place.mismatch .integer)

def bool (place : Place) : Except Fault Bool :=
  match place.tree with
  | .leaf _ (.bool value) => .ok value
  | .leaf _ (.integer i) => .ok (i ≠ 0)
  | .leaf _ (.float bits) => .ok (Decimal.magnitude bits ≠ 0)
  | .leaf origin (.text value) =>
    let lower := Unicode.lower value.toList
    if yes.contains lower || lower = ['1'] then .ok true
    else if no.contains lower || lower = ['0'] then .ok false
    else .error (mismatch ⟨place.key, .leaf origin (.text (String.ofList lower))⟩ .bool)
  | _ => .error (place.mismatch .bool)

end Place

namespace Section

def place? (s : Section) (tree : Tree) (number : Nat) : Except Fault (Option Place) :=
  match tree with
  | .table _ entries =>
    .ok <| s.keys[number]?.bind fun key =>
      (entries.lookup key).map fun value => ⟨s.key ++ "." ++ key, value⟩
  | .list _ items => .ok (items[number]?.map fun value => ⟨s.key ++ "[" ++ toString number ++ "]", value⟩)
  | .leaf .. => .error (.wrongSection tree.found s)

def read? {α : Type} (s : Section) (tree : Tree) (read : Place → Except Fault α) (number : Nat) :
    Except Fault (Option α) := do
  match ← s.place? tree number with
  | some place => return some (← read place)
  | none => return none

def need {α : Type} (s : Section) (tree : Tree) (number : Nat) : Option α → Except Fault α
  | some value => .ok value
  | none =>
    match tree with
    | .list .. => .error (.wrongLength number s)
    | _ => .error (.missing (s.key ++ "." ++ s.keys.getD number ""))

/-- Let a key be absent from a table, but not from a list. -/
def allow {α : Type} (s : Section) (tree : Tree) (number : Nat) (value : Option (Option α)) :
    Except Fault (Option α) :=
  match tree with
  | .list .. => s.need tree number value
  | _ => .ok value.join

def find (s : Section) (root : Tree) : Except Fault Tree :=
  match root.entries.lookup s.key with
  | some tree => .ok tree
  | none => .error (.missing s.key)

end Section

/-- The base URL, the path of the listing and the path of the stream. -/
def ofServer (tree : Tree) : Except Fault (String × String × String) := do
  let read := Section.server.read? tree Place.text
  let (base, runs, stream) := (← read 0, ← read 1, ← read 2)
  return (← Section.server.need tree 0 base, ← Section.server.need tree 1 runs,
    ← Section.server.need tree 2 stream)

/-- The capacity of the list and the delay before another attempt. -/
def ofFeed (tree : Tree) : Except Fault (Nat × Nat) := do
  let read := Section.feed.read? tree Place.natural
  let (capacity, delay) := (← read 0, ← read 1)
  return (← Section.feed.need tree 0 capacity, ← Section.feed.need tree 1 delay)

/-- The agent, the status and the bounds in time. -/
def ofFilter (tree : Tree) :
    Except Fault (Option String × Option String × Option String × Option String) := do
  let read := Section.filter.read? tree Place.optionalText
  let allow := Section.filter.allow tree
  let (agent, status, since, before) := (← read 0, ← read 1, ← read 2, ← read 3)
  return (← allow 0 agent, ← allow 1 status, ← allow 2 since, ← allow 3 before)

def ofLog (tree : Tree) : Except Fault Bool := do
  Section.log.need tree 0 (← Section.log.read? tree Place.bool 0)

def ofTree (root : Tree) : Except Fault Settings := do
  let (baseUrl, runsPath, streamPath) ← ofServer (← Section.server.find root)
  let (maxRuns, retryDelay) ← ofFeed (← Section.feed.find root)
  let filter := (root.entries.lookup Section.filter.key).getD (.table none [])
  let (agentId, status, since, before) ← ofFilter filter
  let logJson ← ofLog (← Section.log.find root)
  let settings : Settings :=
    { baseUrl, runsPath, streamPath, maxRuns, retryDelay, agentId, status, since, before, logJson }
  return settings

end LiveRuns.Settings
