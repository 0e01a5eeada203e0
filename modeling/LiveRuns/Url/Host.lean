import LiveRuns.Text.Split
import LiveRuns.Url.Fault
import LiveRuns.Url.Percent

/-!
Hosts.

A host is empty, a name, or an address.  Under the special schemes a name is decoded, put in lower
case and checked, and a name whose last label is a number has to be an IPv4 address, in any of the
forms those may be written in.  Under other schemes a name is taken nearly as it comes.

Names beyond ASCII have a form in ASCII, of labels that begin with `xn--`.  It is read here as any
other name, and its labels are not checked; but it is not computed.  So under a special scheme a
name beyond ASCII is refused, though the URL is a valid one: settings with such a base URL cannot be
loaded, and have to give the name in its ASCII form.
-/

namespace LiveRuns.Url

inductive Host where
  | empty
  | name (text : String)
  | ipv4 (address : Nat)
  | ipv6 (pieces : List Nat)
deriving DecidableEq, Repr

/-! ## IPv4 -/

def numberIn (base : Nat) (digits : List Char) : Nat :=
  digits.foldl (fun n c => n * base + (Text.digit? base c).getD 0) 0

/-- A number of an IPv4 address: decimal, octal after `0` or hexadecimal after `0x`. -/
def ipv4Number? (s : List Char) : Option Nat :=
  let (base, digits) : Nat × List Char :=
    match s with
    | '0' :: 'x' :: rest => (16, rest)
    | '0' :: 'X' :: rest => (16, rest)
    | '0' :: c :: rest => (8, c :: rest)
    | _ => (10, s)
  if s.isEmpty then none
  else if digits.all (fun c => (Text.digit? base c).isSome) then
    some (numberIn base digits)
  else none

def labels (s : List Char) : List (List Char) :=
  let parts := Text.split '.' s
  if 1 < parts.length ∧ parts.getLast? = some [] then parts.dropLast else parts

/-- Whether the last label of a name is a number, so that the name has to be an address. -/
def endsInNumber (s : List Char) : Bool :=
  match (labels s).getLast? with
  | some last => !last.isEmpty && (last.all Char.isDigit || (ipv4Number? last).isSome)
  | none => false

/-- The address of up to four numbers, of which the last fills the bytes that are left. -/
def ipv4OfNumbers? (numbers : List Nat) : Option Nat :=
  match numbers.getLast? with
  | none => none
  | some last =>
    let front := numbers.dropLast
    if numbers.length ≤ 4 ∧ front.all (· < 256) ∧ last < Nat.pow 256 (4 - front.length) then
      some (front.foldl (fun n b => n * 256 + b) 0 * Nat.pow 256 (4 - front.length) + last)
    else none

def ipv4? (s : List Char) : Option Nat := do
  ipv4OfNumbers? (← (labels s).mapM ipv4Number?)

def ipv4Text (n : Nat) : List Char :=
  let byte (i : Nat) := Nat.toDigits 10 (n / Nat.pow 256 i % 256)
  byte 3 ++ '.' :: byte 2 ++ '.' :: byte 1 ++ '.' :: byte 0

/-! ## IPv6 -/

/-- An IPv4 address at the end of an IPv6 address: four decimal bytes without leading zeros. -/
def ipv6Tail? (s : List Char) : Option (List Nat) :=
  match Text.split '.' s with
  | [a, b, c, d] => do
    let byte (digits : List Char) : Option Nat :=
      if digits.isEmpty ∨ ¬ digits.all Char.isDigit ∨ 3 < digits.length ∨
          (1 < digits.length ∧ digits.head? = some '0') ∨ 255 < Text.decimalValue digits then none
      else some (Text.decimalValue digits)
    let (a, b, c, d) := (← byte a, ← byte b, ← byte c, ← byte d)
    return [a * 256 + b, c * 256 + d]
  | _ => none

def ipv6Group? (s : List Char) : Option Nat :=
  if s.isEmpty ∨ 4 < s.length then none
  else if s.all (fun c => (Text.digit? 16 c).isSome) then some (numberIn 16 s)
  else none

/-- A run of groups between colons; the last one may be an IPv4 address if `final`. -/
def ipv6Groups? (final : Bool) (s : List Char) : Option (List Nat) :=
  if s.isEmpty then some []
  else
    let parts := Text.split ':' s
    match parts.getLast? with
    | some last =>
      if final && last.contains '.' then do
        return (← parts.dropLast.mapM ipv6Group?) ++ (← ipv6Tail? last)
      else parts.mapM ipv6Group?
    | none => none

def splitDoubleColon (before : List Char) : List Char → Option (List Char × List Char)
  | ':' :: ':' :: rest => some (before.reverse, rest)
  | c :: rest => splitDoubleColon (c :: before) rest
  | [] => none

/-- The eight pieces of an IPv6 address; a double colon stands for one zero or more. -/
def ipv6? (s : List Char) : Option (List Nat) := do
  match splitDoubleColon [] s with
  | none =>
    let pieces ← ipv6Groups? true s
    if pieces.length = 8 then some pieces else none
  | some (before, after) =>
    let front ← ipv6Groups? false before
    let back ← ipv6Groups? true after
    let n := front.length + back.length
    if n < 8 then some (front ++ List.replicate (8 - n) 0 ++ back) else none

/-- The first of the longest runs of zeros, as its start and length. -/
def zeroRun (pieces : List Nat) : Nat × Nat :=
  let runs := (List.range pieces.length).map fun i => (i, ((pieces.drop i).takeWhile (· = 0)).length)
  runs.foldl (fun best run => if best.2 < run.2 then run else best) (0, 0)

def groupsText (pieces : List Nat) : List Char :=
  [':'].intercalate (pieces.map (Nat.toDigits 16))

/-- The text of an IPv6 address; the first longest run of two zeros or more is left out. -/
def ipv6Text (pieces : List Nat) : List Char :=
  let (start, length) := zeroRun pieces
  if length < 2 then groupsText pieces
  else groupsText (pieces.take start) ++ ':' :: ':' :: groupsText (pieces.drop (start + length))

/-! ## Names -/

def Host.text : Host → List Char
  | .empty => []
  | .name text => text.toList
  | .ipv4 address => ipv4Text address
  | .ipv6 pieces => '[' :: (ipv6Text pieces ++ [']'])

def forbiddenInHost : List Char :=
  ['\x00', '\t', '\n', '\r', ' ', '#', '/', ':', '<', '>', '?', '@', '[', '\\', ']', '^', '|']

/-- Whether a character cannot stand in a name under the special schemes; none beyond ASCII can. -/
def forbiddenInName (c : Char) : Bool := isControl c || c = '%' || c ∈ forbiddenInHost

def bracketed (s : List Char) : Except Fault Host :=
  if s.getLast? = some ']' then
    match ipv6? (s.drop 1).dropLast with
    | some pieces => .ok (.ipv6 pieces)
    | none => .error .badIpv6
  else .error .badIpv6

/-- The host under a special scheme.  A name beyond ASCII is refused. -/
def specialHost (s : List Char) : Except Fault Host :=
  if s.head? = some '[' then bracketed s
  else
    match Utf8.decode? (percentDecode s) with
    | none => .error .badInternationalName
    | some decoded =>
      let name := decoded.map Char.toLower
      if name.any forbiddenInName then .error .badInternationalName
      else if name.isEmpty then .error .emptyHost
      else if endsInNumber name then
        match ipv4? name with
        | some address => .ok (.ipv4 address)
        | none => .error .badIpv4
      else .ok (.name (String.ofList name))

/-- The host under any other scheme, where only the characters that would end it are refused. -/
def plainHost (s : List Char) : Except Fault Host :=
  if s.head? = some '[' then bracketed s
  else if s.any (· ∈ forbiddenInHost) then .error .badHostCharacter
  else if s.isEmpty then .ok .empty
  else .ok (.name (String.ofList (percentEncode isControl s)))

end LiveRuns.Url
