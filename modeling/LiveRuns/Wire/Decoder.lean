import LiveRuns.Timestamp.Parser
import LiveRuns.Wire.Error

/-!
Decoders of wire values.

A `Decoder` goes over the tree of a JSON text and stops at the first thing it cannot accept, so of
several errors the first in reading order is reported.  It is told how many lists and objects may
still be opened below it.  `decode` runs one on a whole text.
-/

namespace LiveRuns.Wire

open LiveRuns.Json (Tree Literal ListEnd ObjectEnd)

/-- Decode a tree below which a given number of lists and objects may be opened. -/
abbrev Decoder (α : Type) := Nat → Tree → Except Error α

def decode {α : Type} (d : Decoder α) (text : String) : Except Error α := do
  let (tree, rest) := Tree.read text.toList
  let a ← d Json.maxDepth tree
  form (Json.endOfText rest)
  return a

/-- Why a tree is not of the kind wanted.  A number or a text has to be sound itself before its
kind is looked at. -/
def mismatch (wanted : String) : Tree → Error
  | .null => .wrongKind .null wanted
  | .bool b => .wrongKind (.bool b) wanted
  | .number n =>
    match n.value with
    | .ok value => .wrongKind (.number value) wanted
    | .error fault => .form fault
  | .text literal =>
    match literal.read with
    | .ok s => .wrongKind (.text s) wanted
    | .error fault => .form fault
  | .list _ _ => .wrongKind .list wanted
  | .object _ _ => .wrongKind .object wanted
  | .broken why => .form why.fault

def text : Decoder String
  | _, .text literal => form literal.read
  | _, tree => .error (mismatch "a string" tree)

def timestamp : Decoder Timestamp
  | _, .text literal => do
    let s ← form literal.read
    match Timestamp.ofText s with
    | .ok t => .ok t
    | .error fault => .error (.timestamp fault)
  | _, tree => .error (mismatch "an RFC 3339 formatted date and time string" tree)

def optional {α : Type} (d : Decoder α) : Decoder (Option α)
  | _, .null => .ok none
  | room, tree => some <$> d room tree

def value : Decoder Json.Value := fun room tree => form (tree.value room)

def skipped : Decoder Unit := fun _ tree => form tree.skim

def descend {α : Type} (room : Nat) (k : Nat → Except Error α) : Except Error α :=
  match room with
  | 0 => .error (.form .tooDeep)
  | room + 1 => k room

/-! ## Lists -/

def list {α : Type} (d : Decoder α) : Decoder (List α)
  | room, .list items ending => descend room fun room => do
    let values ← items.mapM (d room)
    form ending.close
    return values
  | _, tree => .error (mismatch "a sequence" tree)

/-- The next value of a list whose values differ in type, if there is one, and the items left. -/
def next {α : Type} (d : Decoder α) (room : Nat) (items : List Tree) (ending : ListEnd) :
    Except Error (Option α × List Tree) :=
  match items with
  | [] => do
    form ending.close
    return (none, [])
  | item :: items => do
    let a ← d room item
    return (some a, items)

/-- Nothing more may come in a list; what comes is junk, be it a proper item or not. -/
def noMore (items : List Tree) (ending : ListEnd) : Except Error Unit :=
  match items, ending with
  | [], .closed => .ok ()
  | [], .cut => .error (.form .endInList)
  | [], .comma => .error (.form .trailingComma)
  | _, _ => .error (.form .trailingCharacters)

/-! ## Names -/

/-- The only member of an object that names a case: its value is `null`. -/
def onlyMember (members : List (Literal × Tree)) (ending : ObjectEnd) : Except Error Unit :=
  match members, ending with
  | [], .closed => .ok ()
  | [], .cut => .error (.form .endInObject)
  | _, _ => .error (.form .noValue)

/-- One of several names, alone as a string or as the key of an object with the value `null`.
`choose` finds the case of a name. -/
def named {α : Type} (choose : String → Except Error α) : Decoder α
  | _, .text literal => do choose (← form literal.read)
  | room, .object members ending => descend room fun _ =>
    match members, ending with
    | (key, value) :: members, ending => do
      let a ← choose (← form key.read)
      match value with
      | .null => onlyMember members ending
      | value => .error (mismatch "unit" value)
      return a
    | [], .closed => .error (.form .noValue)
    | [], .keyNotText rest => .error (mismatch "variant identifier" (Tree.read rest).1)
    | [], _ => .error (.form .endInValue)
  | _, .broken .nothing => .error (.form .endInValue)
  | _, .broken .noColon => .error (.form .noColon)
  | _, .broken .noColonCut => .error (.form .endInObject)
  | _, _ => .error (.form .noValue)

end LiveRuns.Wire
