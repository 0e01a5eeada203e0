import LiveRuns.Fields
import LiveRuns.Json.Tree

/-!
JSON values and their text.

A `Value` is what a JSON text describes once it is known to have no fault.  The members of an
object read by `Tree.value` ascend by name and the last of repeated ones counts, so `Value.text`
gives the same text for every way of writing the same value.
-/

namespace LiveRuns.Json

inductive Value where
  | null
  | bool (value : Bool)
  | number (value : Number)
  | text (value : String)
  | list (items : List Value)
  | object (members : List (String × Value))
deriving Inhabited

/-! ## Reading -/

mutual

/-- The value of a tree, or its first fault.  `room` is the number of lists and objects that may
still be opened on the way down. -/
def Tree.value (room : Nat) : Tree → Except Fault Value
  | .null => .ok .null
  | .bool b => .ok (.bool b)
  | .number n => .number <$> n.value
  | .text literal => .text <$> literal.read
  | .list items ending =>
    match room with
    | 0 => .error .tooDeep
    | room + 1 => do
      let items ← valueItems room items
      ending.close
      return .list items
  | .object members ending =>
    match room with
    | 0 => .error .tooDeep
    | room + 1 => do
      let members ← valueMembers room [] members
      ending.close
      return .object members
  | .broken why => .error why.fault

def valueItems (room : Nat) : List Tree → Except Fault (List Value)
  | [] => .ok []
  | item :: items => do
    let item ← item.value room
    let items ← valueItems room items
    return item :: items

/-- The values of the members of an object, put to those seen. -/
def valueMembers (room : Nat) (seen : List (String × Value)) :
    List (Literal × Tree) → Except Fault (List (String × Value))
  | [] => .ok seen
  | (key, value) :: members => do
    let key ← key.read
    let value ← value.value room
    valueMembers room (putField key value seen) members

end

def endOfText (rest : List Char) : Except Fault Unit :=
  if (skipBlanks rest).isEmpty then .ok () else .error .trailingCharacters

def maxDepth : Nat := 127

def Value.ofText (text : String) : Except Fault Value := do
  let (tree, rest) := Tree.read text.toList
  let value ← tree.value maxDepth
  endOfText rest
  return value

/-! ## Writing -/

def hexChar (n : Nat) : Char := if n < 10 then Char.ofNat (48 + n) else Char.ofNat (87 + n)

/-- How a character is written inside a string: quotes, backslashes and controls are escaped. -/
def escapedChar (c : Char) : List Char :=
  if c = '"' then ['\\', '"']
  else if c = '\\' then ['\\', '\\']
  else if c = '\x08' then ['\\', 'b']
  else if c = '\t' then ['\\', 't']
  else if c = '\n' then ['\\', 'n']
  else if c = '\x0c' then ['\\', 'f']
  else if c = '\r' then ['\\', 'r']
  else if c < ' ' then ['\\', 'u', '0', '0', hexChar (c.toNat / 16), hexChar (c.toNat % 16)]
  else [c]

def textLiteral (s : String) : List Char :=
  '"' :: (s.toList.flatMap escapedChar ++ ['"'])

mutual

def Value.chars : Value → List Char
  | .null => ['n', 'u', 'l', 'l']
  | .bool true => ['t', 'r', 'u', 'e']
  | .bool false => ['f', 'a', 'l', 's', 'e']
  | .number n => n.text
  | .text s => textLiteral s
  | .list items => '[' :: (charsOfItems items ++ [']'])
  | .object members => '{' :: (charsOfMembers members ++ ['}'])

def charsOfItems : List Value → List Char
  | [] => []
  | [item] => item.chars
  | item :: items => item.chars ++ ',' :: charsOfItems items

def charsOfMembers : List (String × Value) → List Char
  | [] => []
  | [(key, value)] => textLiteral key ++ ':' :: value.chars
  | (key, value) :: members =>
    textLiteral key ++ ':' :: (value.chars ++ ',' :: charsOfMembers members)

end

def Value.toText (v : Value) : String := String.ofList v.chars

end LiveRuns.Json
