import LiveRuns.Decimal.Integer
import LiveRuns.Http.Exchange

/-!
Messages as bytes.

A request is written as one head without a body.  A response is read piece by piece, as it arrives:
its head first, and then its body, whose end is told by a length, by the last of its chunks, or by
the end of the connection.
-/

namespace LiveRuns.Http

/-! ## Requests -/

def base64Digit (n : Nat) : Char :=
  if n < 26 then Char.ofNat (65 + n)
  else if n < 52 then Char.ofNat (71 + n)
  else if n < 62 then Char.ofNat (n - 4)
  else if n = 62 then '+'
  else '/'

/-- Bytes to base 64, three to four digits. -/
def base64 : List UInt8 → List Char
  | [] => []
  | [a] => [base64Digit (a.toNat / 4), base64Digit (a.toNat % 4 * 16), '=', '=']
  | [a, b] =>
    [base64Digit (a.toNat / 4), base64Digit (a.toNat % 4 * 16 + b.toNat / 16),
      base64Digit (b.toNat % 16 * 4), '=']
  | a :: b :: c :: rest =>
    base64Digit (a.toNat / 4) :: base64Digit (a.toNat % 4 * 16 + b.toNat / 16) ::
      base64Digit (b.toNat % 16 * 4 + c.toNat / 64) :: base64Digit (c.toNat % 64) :: base64 rest

def authorization (a : Url.Authority) : List Char :=
  if a.username = "" ∧ a.password = "" then []
  else
    let part (s : String) : List UInt8 := Url.percentDecode s.toList
    "authorization: Basic ".toList ++
      base64 (part a.username ++ Utf8.encode [':'] ++ part a.password) ++ ['\r', '\n']

def Request.head (r : Request) : List Char :=
  let path := r.url.path.text
  let resource := (if path.isEmpty then ['/'] else path) ++ Url.partText '?' r.url.query
  let host := (withoutUser r.url).authority.map Url.Authority.text
  "GET ".toList ++ resource ++ " HTTP/1.1\r\nhost: ".toList ++ host.getD [] ++
    "\r\naccept: ".toList ++ r.accept.toList ++ "\r\n".toList ++
    (r.url.authority.map authorization).getD [] ++ "connection: close\r\n\r\n".toList

/-! ## Responses -/

inductive Part where
  | head (status : Nat) (headers : List (String × String))
  | chunk (bytes : List UInt8)
  | ended (ending : BodyEnd)
  /-- What came is no response. -/
  | garbled
deriving DecidableEq, Repr

/-- The part of a response that comes next.  Bytes of a line are held last first. -/
inductive Reader where
  | statusLine (held : List UInt8)
  | headerLine (held : List UInt8) (status : Nat) (headers : List (String × String))
  | sized (left : Nat)
  | untilClose
  | chunkSize (held : List UInt8)
  | chunkData (left : Nat)
  | chunkEnd
  /-- The lines after the last chunk, the last of which is empty. -/
  | trailer (isEmpty : Bool)
  | over
deriving DecidableEq, Repr

namespace Reader

def start : Reader := .statusLine []

/-- The text of a line without its end. -/
def lineText (held : List UInt8) : List Char :=
  let held := if held.head? = some 13 then held.tail else held
  held.reverse.map fun b => Char.ofNat b.toNat

def status? (line : List Char) : Option Nat :=
  if "HTTP/1.".toList.isPrefixOf line then
    let code := (line.dropWhile (· ≠ ' ')).drop 1 |>.takeWhile (· ≠ ' ')
    if code.length = 3 then Decimal.naturalIn? 10 code else none
  else none

def header? (line : List Char) : Option (String × String) :=
  let name := line.takeWhile (· ≠ ':')
  match line.drop name.length with
  | _ :: value =>
    let isSpace (c : Char) : Bool := c = ' ' || c = '\t'
    let value := ((value.dropWhile isSpace).reverse.dropWhile isSpace).reverse
    some (String.ofList name, String.ofList value)
  | [] => none

def finished : Reader × List Part := (.over, [.ended .complete])

def ofHead (status : Nat) (headers : List (String × String)) : Reader × List Part :=
  let response : Response := ⟨status, headers, [], .complete⟩
  let head := Part.head status headers
  if status < 200 then (start, [])
  else if status = 204 ∨ status = 304 then (.over, [head, .ended .complete])
  else if (response.header? "transfer-encoding").any fun v => v.toLower = "chunked" then
    (.chunkSize [], [head])
  else
    match response.header? "content-length" with
    | none => (.untilClose, [head])
    | some length =>
      match Decimal.naturalIn? 10 length.toList with
      | some 0 => (.over, [head, .ended .complete])
      | some n => (.sized n, [head])
      | none => (.over, [.garbled])

def step (r : Reader) (b : UInt8) : Reader × List Part :=
  match r with
  | .statusLine held =>
    if b = 10 then
      match status? (lineText held) with
      | some status => (.headerLine [] status [], [])
      | none => (.over, [.garbled])
    else (.statusLine (b :: held), [])
  | .headerLine held status headers =>
    if b = 10 then
      let line := lineText held
      if line.isEmpty then ofHead status headers.reverse
      else
        match header? line with
        | some header => (.headerLine [] status (header :: headers), [])
        | none => (.over, [.garbled])
    else (.headerLine (b :: held) status headers, [])
  | .sized left =>
    if left ≤ 1 then (.over, [.chunk [b], .ended .complete]) else (.sized (left - 1), [.chunk [b]])
  | .untilClose => (.untilClose, [.chunk [b]])
  | .chunkSize held =>
    if b = 10 then
      match Decimal.naturalIn? 16 ((lineText held).takeWhile fun c => c ≠ ';' && c ≠ ' ') with
      | some 0 => (.trailer true, [])
      | some n => (.chunkData n, [])
      | none => (.over, [.ended .cut])
    else (.chunkSize (b :: held), [])
  | .chunkData left => (if left ≤ 1 then .chunkEnd else .chunkData (left - 1), [.chunk [b]])
  | .chunkEnd => (if b = 10 then .chunkSize [] else .chunkEnd, [])
  | .trailer isEmpty =>
    if b = 10 then if isEmpty then finished else (.trailer true, [])
    else (.trailer (isEmpty && b = 13), [])
  | .over => (.over, [])

/-- Put a part in front of others; neighbouring bytes make one chunk. -/
def cons (part : Part) (parts : List Part) : List Part :=
  match part, parts with
  | .chunk a, .chunk b :: parts => .chunk (a ++ b) :: parts
  | part, parts => part :: parts

def push (r : Reader) : List UInt8 → Reader × List Part
  | [] => (r, [])
  | b :: bytes =>
    let (r, parts) := r.step b
    let (r, more) := r.push bytes
    (r, parts.foldr cons more)

def close : Reader → List Part
  | .over => []
  | .untilClose => [.ended .complete]
  | .statusLine _ | .headerLine .. => [.garbled]
  | _ => [.ended .cut]

end Reader

def Outcome.ofParts : List Part → Outcome
  | .head status headers :: parts =>
    let chunks := parts.filterMap fun
      | .chunk bytes => some bytes
      | _ => none
    let isComplete := parts.contains (.ended .complete)
    .answered ⟨status, headers, chunks, if isComplete then .complete else .cut⟩
  | _ => .refused

end LiveRuns.Http
