import LiveRuns.Text.Digits
import LiveRuns.Utf8.Lossy

/-!
Percent-encoding.

A character that a part of a URL cannot hold is written as the bytes of its UTF-8 form, each as a
percent sign and two hexadecimal digits.  Which ASCII characters these are depends on the part;
other characters are never held as they are.
-/

namespace LiveRuns.Url

def hexUpper (n : Nat) : Char := if n < 10 then Char.ofNat (48 + n) else Char.ofNat (55 + n)

def escapedByte (b : UInt8) : List Char :=
  ['%', hexUpper (b.toNat / 16), hexUpper (b.toNat % 16)]

def escapedChar (c : Char) : List Char := (String.utf8EncodeChar c).flatMap escapedByte

/-- Controls and everything beyond ASCII. -/
def isControl (c : Char) : Bool := c < ' ' || '~' < c

def fragmentSet (c : Char) : Bool := isControl c || c ∈ [' ', '"', '<', '>', '\x60']

def pathSet (c : Char) : Bool := fragmentSet c || c ∈ ['#', '?', '{', '}']

def userSet (c : Char) : Bool :=
  pathSet c || c ∈ ['/', ':', ';', '=', '@', '[', '\\', ']', '^', '|']

/-- What a query cannot hold; the quote only matters for the special schemes. -/
def querySet (special : Bool) (c : Char) : Bool :=
  isControl c || c ∈ [' ', '"', '#', '<', '>'] || (special && c = '\'')

def percentEncode (set : Char → Bool) (s : List Char) : List Char :=
  s.flatMap fun c => if set c then escapedChar c else [c]

/-- The bytes of a text with its escapes undone.  A percent sign that starts no escape stays. -/
def percentDecode : List Char → List UInt8
  | [] => []
  | '%' :: a :: b :: rest =>
    match Text.digit? 16 a, Text.digit? 16 b with
    | some h, some l => UInt8.ofNat (h * 16 + l) :: percentDecode rest
    | _, _ => String.utf8EncodeChar '%' ++ percentDecode (a :: b :: rest)
  | c :: rest => String.utf8EncodeChar c ++ percentDecode rest

end LiveRuns.Url
