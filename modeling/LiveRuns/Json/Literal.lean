import LiveRuns.Json.Fault
import LiveRuns.Text.Digits

/-!
JSON string literals.

A literal is kept as it was written: its pieces, and how it ended.  Two questions are asked of it.
`Literal.form` asks only whether the quotes and escapes are well formed, which is all that matters
where a value is passed over.  `Literal.read` also joins the surrogate pairs and so gives the text,
or the first fault in reading order.
-/

namespace LiveRuns.Json

/-- One character of a literal, or the 16-bit code of one `\u` escape. -/
inductive Piece where
  | char (c : Char)
  | unit (code : Nat)
deriving DecidableEq, Repr

/-- How the scan of a literal ended: at its closing quote, at the end of the text, or at a
character that may not stand there. -/
inductive Literal.Ending where
  | closed
  | cut
  | control
  | badEscape
  | badHex
deriving DecidableEq, Repr

/-- A string literal as written, up to the place where it ends or breaks. -/
structure Literal where
  pieces : List Piece
  ending : Literal.Ending
deriving DecidableEq, Repr

def hexUnit? (a b c d : Char) : Option Nat :=
  match Text.digit? 16 a, Text.digit? 16 b, Text.digit? 16 c, Text.digit? 16 d with
  | some a, some b, some c, some d => some (((a * 16 + b) * 16 + c) * 16 + d)
  | _, _, _, _ => none

def shortEscape? : Char → Option Char
  | '"' => some '"'
  | '\\' => some '\\'
  | '/' => some '/'
  | 'b' => some '\x08'
  | 'f' => some '\x0c'
  | 'n' => some '\n'
  | 'r' => some '\r'
  | 't' => some '\t'
  | _ => none

namespace Literal

/-- Scan the inside of a literal, its opening quote already taken, and give it with the text that
follows.  A `\u` escape needs four bytes after it: with fewer left in the whole text the literal is
cut, and otherwise a wrong digit is a bad escape. -/
def scan (seen : List Piece) : List Char → Literal × List Char
  | [] => (⟨seen.reverse, .cut⟩, [])
  | '"' :: rest => (⟨seen.reverse, .closed⟩, rest)
  | '\\' :: 'u' :: a :: b :: c :: d :: rest =>
    match hexUnit? a b c d with
    | some code => scan (.unit code :: seen) rest
    | none => (⟨seen.reverse, .badHex⟩, rest)
  | '\\' :: 'u' :: rest =>
    (⟨seen.reverse, if (String.ofList rest).utf8ByteSize < 4 then .cut else .badHex⟩, [])
  | ['\\'] => (⟨seen.reverse, .cut⟩, [])
  | '\\' :: c :: rest =>
    match shortEscape? c with
    | some plain => scan (.char plain :: seen) rest
    | none => (⟨seen.reverse, .badEscape⟩, rest)
  | c :: rest =>
    if c < ' ' then (⟨seen.reverse, .control⟩, rest) else scan (.char c :: seen) rest

/-- The fault that an ending is, if the literal is only passed over. -/
def Ending.form : Ending → Except Fault Unit
  | .closed => .ok ()
  | .cut => .error .endInText
  | .control => .error .controlCharacter
  | .badEscape | .badHex => .error .badEscape

/-- Whether the literal is well formed; surrogates are not looked at. -/
def form (l : Literal) : Except Fault Unit := l.ending.form

/-- A code that must be followed by a low surrogate. -/
def isHigh (code : Nat) : Bool := 0xD800 ≤ code && code < 0xDC00

/-- A code that must follow a high surrogate. -/
def isLow (code : Nat) : Bool := 0xDC00 ≤ code && code < 0xE000

def pairChar (high low : Nat) : Char :=
  Char.ofNat (0x10000 + (high - 0xD800) * 0x400 + (low - 0xDC00))

/-- The fault of a high surrogate that the literal's pieces end with: the escape that should
follow may itself be cut off or misspelt, and is otherwise missing. -/
def Ending.afterHigh : Ending → Fault
  | .cut => .endInText
  | .badHex => .badEscape
  | _ => .lonelyHighSurrogate

def join (seen : List Char) : List Piece → Ending → Except Fault (List Char)
  | [], ending => do ending.form; return seen.reverse
  | .char c :: rest, ending => join (c :: seen) rest ending
  | .unit code :: rest, ending =>
    if isLow code then .error .lonelySurrogate
    else if isHigh code then
      match rest with
      | .unit low :: rest =>
        if isLow low then join (pairChar code low :: seen) rest ending
        else .error .lonelySurrogate
      | .char _ :: _ => .error .lonelyHighSurrogate
      | [] => .error ending.afterHigh
    else join (Char.ofNat code :: seen) rest ending

def read (l : Literal) : Except Fault String :=
  String.ofList <$> join [] l.pieces l.ending

end Literal

end LiveRuns.Json
