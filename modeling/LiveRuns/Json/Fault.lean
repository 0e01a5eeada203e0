/-
What can be wrong with the form of a JSON text.

A fault names the rule that the text breaks, not the place.  Every fault is either an early end
of the text or a character that cannot stand where it stands, and `Fault.category` tells which.
-/

namespace LiveRuns.Json

/-- The three families of reading errors: the text ended early, it is not JSON, or it is JSON
that does not describe the value asked for. -/
inductive Category where
  | eof
  | form
  | data
deriving DecidableEq, Repr

inductive Fault where
  | endInValue
  | endInText
  | endInList
  | endInObject
  | noValue
  | noWord
  | noColon
  | noListComma
  | noObjectComma
  | trailingComma
  | trailingCharacters
  | keyNotText
  | badNumber
  | numberOutOfRange
  | badEscape
  | lonelyHighSurrogate
  | lonelySurrogate
  | controlCharacter
  | tooDeep
deriving DecidableEq, Repr

def Fault.message : Fault → String
  | .endInValue => "EOF while parsing a value"
  | .endInText => "EOF while parsing a string"
  | .endInList => "EOF while parsing a list"
  | .endInObject => "EOF while parsing an object"
  | .noValue => "expected value"
  | .noWord => "expected ident"
  | .noColon => "expected `:`"
  | .noListComma => "expected `,` or `]`"
  | .noObjectComma => "expected `,` or `\x7d`"
  | .trailingComma => "trailing comma"
  | .trailingCharacters => "trailing characters"
  | .keyNotText => "key must be a string"
  | .badNumber => "invalid number"
  | .numberOutOfRange => "number out of range"
  | .badEscape => "invalid escape"
  | .lonelyHighSurrogate => "unexpected end of hex escape"
  | .lonelySurrogate => "lone leading surrogate in hex escape"
  | .controlCharacter => "control character (\\u0000-\\u001F) found while parsing a string"
  | .tooDeep => "recursion limit exceeded"

/-- The four early ends form a family of their own. -/
def Fault.category : Fault → Category
  | .endInValue | .endInText | .endInList | .endInObject => .eof
  | _ => .form

end LiveRuns.Json
