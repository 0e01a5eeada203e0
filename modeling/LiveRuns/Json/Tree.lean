import LiveRuns.Json.Literal
import LiveRuns.Json.Number

/-!
JSON text as a tree that keeps its faults.

Reading a text into a `Tree` never fails.  Where the text breaks the grammar, the tree records what
is wrong in the very place, and nothing after that place is read.  What the fault means depends on
who looks: a value that is passed over tolerates more than one that is decoded, and the two name
some faults differently.  So each way of looking at a text is one recursion over its tree that
stops at the first fault it minds, and reading order is the order of the tree.

`Tree.skim` is the view of a value that is passed over.
-/

namespace LiveRuns.Json

/-- A place where a value should be and none can be read. -/
inductive Break where
  | nothing
  | unexpected
  /-- A misspelt `null`, `true` or `false`. -/
  | word
  /-- The text ended inside `null`, `true` or `false`. -/
  | wordCut
  | number
  | numberCut
  | noColon
  | noColonCut
deriving DecidableEq, Repr

/-- How a list ends: closed, or by the end of the text before or after a comma, by a comma before
the closing bracket, or by a character other than comma and bracket. -/
inductive ListEnd where
  | closed
  | cut
  | comma
  | commaCut
  | junk
deriving DecidableEq, Repr

/-- How an object ends; besides the ways of a list, at a text that starts with no key. -/
inductive ObjectEnd where
  | closed
  | cut
  | comma
  | commaCut
  | junk
  | keyNotText (text : List Char)
deriving DecidableEq, Repr

/-- A JSON text, up to its first break. -/
inductive Tree where
  | null
  | bool (value : Bool)
  | number (text : NumberText)
  | text (literal : Literal)
  | list (items : List Tree) (ending : ListEnd)
  | object (members : List (Literal × Tree)) (ending : ObjectEnd)
  | broken (why : Break)
deriving Inhabited

def isBlank (c : Char) : Bool := c = ' ' || c = '\n' || c = '\t' || c = '\r'

def skipBlanks (s : List Char) : List Char := s.dropWhile isBlank

namespace Tree

/-! ## Reading -/

def readWord (value : Tree) : List Char → List Char → Tree × List Char
  | [], s => (value, s)
  | _ :: _, [] => (.broken .wordCut, [])
  | e :: expected, c :: s => if e = c then readWord value expected s else (.broken .word, s)

def readNumber (s : List Char) : Tree × List Char :=
  match NumberText.scan s with
  | (.ok n, rest) => (.number n, rest)
  | (.error .junk, rest) => (.broken .number, rest)
  | (.error .cut, rest) => (.broken .numberCut, rest)

mutual

/-- Read one value.  The fuel bounds the number of tokens on the way to any place of the tree, so
that twice the length of the text is always enough. -/
def readValue : Nat → List Char → Tree × List Char
  | 0, s => (.broken .nothing, s)
  | fuel + 1, s =>
    match skipBlanks s with
    | [] => (.broken .nothing, [])
    | 'n' :: rest => readWord .null ['u', 'l', 'l'] rest
    | 't' :: rest => readWord (.bool true) ['r', 'u', 'e'] rest
    | 'f' :: rest => readWord (.bool false) ['a', 'l', 's', 'e'] rest
    | '"' :: rest =>
      let (literal, rest) := Literal.scan [] rest
      (.text literal, rest)
    | '[' :: rest =>
      match skipBlanks rest with
      | [] => (.list [] .cut, [])
      | ']' :: rest => (.list [] .closed, rest)
      | rest =>
        let (items, ending, rest) := readItems fuel rest
        (.list items ending, rest)
    | '{' :: rest =>
      match skipBlanks rest with
      | [] => (.object [] .cut, [])
      | '}' :: rest => (.object [] .closed, rest)
      | rest =>
        let (members, ending, rest) := readMembers fuel rest
        (.object members ending, rest)
    | c :: rest =>
      if c = '-' ∨ c.isDigit then readNumber (c :: rest) else (.broken .unexpected, rest)

def readItems : Nat → List Char → List Tree × ListEnd × List Char
  | 0, s => ([], .cut, s)
  | fuel + 1, s =>
    let (item, rest) := readValue fuel s
    match skipBlanks rest with
    | [] => ([item], .cut, [])
    | ']' :: rest => ([item], .closed, rest)
    | ',' :: rest =>
      match skipBlanks rest with
      | [] => ([item], .commaCut, [])
      | ']' :: rest => ([item], .comma, rest)
      | rest =>
        let (items, ending, rest) := readItems fuel rest
        (item :: items, ending, rest)
    | _ :: rest => ([item], .junk, rest)

def readMembers : Nat → List Char → List (Literal × Tree) × ObjectEnd × List Char
  | 0, s => ([], .cut, s)
  | fuel + 1, s =>
    match skipBlanks s with
    | '"' :: rest =>
      let (key, rest) := Literal.scan [] rest
      match skipBlanks rest with
      | [] => ([(key, .broken .noColonCut)], .cut, [])
      | ':' :: rest =>
        let (value, rest) := readValue fuel rest
        match skipBlanks rest with
        | [] => ([(key, value)], .cut, [])
        | '}' :: rest => ([(key, value)], .closed, rest)
        | ',' :: rest =>
          match skipBlanks rest with
          | [] => ([(key, value)], .commaCut, [])
          | '}' :: rest => ([(key, value)], .comma, rest)
          | rest =>
            let (members, ending, rest) := readMembers fuel rest
            ((key, value) :: members, ending, rest)
        | _ :: rest => ([(key, value)], .junk, rest)
      | _ :: rest => ([(key, .broken .noColon)], .cut, rest)
    | s => ([], .keyNotText s, [])

end

def read (s : List Char) : Tree × List Char := readValue (2 * s.length + 2) s

end Tree

/-! ## A value that is decoded -/

def Break.fault : Break → Fault
  | .nothing | .wordCut | .numberCut => .endInValue
  | .unexpected => .noValue
  | .word => .noWord
  | .number => .badNumber
  | .noColon => .noColon
  | .noColonCut => .endInObject

def ListEnd.close : ListEnd → Except Fault Unit
  | .closed => .ok ()
  | .cut => .error .endInList
  | .comma => .error .trailingComma
  | .commaCut => .error .endInValue
  | .junk => .error .noListComma

def ObjectEnd.close : ObjectEnd → Except Fault Unit
  | .closed => .ok ()
  | .cut => .error .endInObject
  | .comma => .error .trailingComma
  | .commaCut => .error .endInValue
  | .junk => .error .noObjectComma
  | .keyNotText _ => .error .keyNotText

/-! ## A value that is passed over -/

/-- The fault of a missing value where it is only passed over: a number that is cut off is then
no better than a misspelt one. -/
def Break.skimFault : Break → Fault
  | .numberCut => .badNumber
  | why => why.fault

/-- The end of a list that is passed over: a value is due after every comma. -/
def ListEnd.skim : ListEnd → Except Fault Unit
  | .comma => .error .noValue
  | ending => ending.close

def ObjectEnd.skim : ObjectEnd → Except Fault Unit
  | .comma => .error .keyNotText
  | .commaCut => .error .endInObject
  | ending => ending.close

mutual

/-- Pass over a value: only its form matters, neither the size of numbers nor surrogates nor the
depth of nesting. -/
def Tree.skim : Tree → Except Fault Unit
  | .null | .bool _ | .number _ => .ok ()
  | .text literal => literal.form
  | .list items ending => do skimItems items; ending.skim
  | .object members ending => do skimMembers members; ending.skim
  | .broken why => .error why.skimFault

def skimItems : List Tree → Except Fault Unit
  | [] => .ok ()
  | item :: items => do item.skim; skimItems items

def skimMembers : List (Literal × Tree) → Except Fault Unit
  | [] => .ok ()
  | (key, value) :: members => do key.form; value.skim; skimMembers members

end

end LiveRuns.Json
