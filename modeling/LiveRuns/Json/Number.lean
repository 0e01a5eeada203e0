import LiveRuns.Decimal.Shortest
import LiveRuns.Json.Fault
import LiveRuns.Text.Digits

/-!
JSON numbers.

A number is scanned as text first, since a number that is passed over has no value to be out of
range.  Its value is an integer where it is written as one and fits 64 bits, and a double
otherwise.  A double is computed from at most 64 bits of digits scaled by one power of ten, so its
last bit may differ from the nearest double; this is the rule the format's users rely on to be
fast, and every reader of the same text gets the same bits.
-/

namespace LiveRuns.Json

/-- A number as written: sign, digits before the point, digits after it, and the exponent with
its sign (`true` for minus). -/
structure NumberText where
  negative : Bool
  whole : List Char
  fraction : Option (List Char)
  exponent : Option (Bool × List Char)
deriving DecidableEq, Repr

inductive NumberBreak where
  | junk
  | cut
deriving DecidableEq, Repr

/-- The value of a number: an integer between `-2 ^ 63` and `2 ^ 64 - 1`, or the bits of a
finite double. -/
inductive Number where
  | integer (value : Int)
  | float (bits : UInt64)
deriving DecidableEq, Repr, Inhabited

namespace NumberText

def stop (rest : List Char) : Except NumberBreak NumberText × List Char :=
  (.error (if rest.isEmpty then .cut else .junk), rest)

def scanExponent (n : NumberText) (s : List Char) : Except NumberBreak NumberText × List Char :=
  match s with
  | c :: rest =>
    if c = 'e' ∨ c = 'E' then
      let (minus, rest) :=
        match rest with
        | '-' :: rest => (true, rest)
        | '+' :: rest => (false, rest)
        | _ => (false, rest)
      let digits := rest.takeWhile Char.isDigit
      if digits.isEmpty then stop rest
      else (.ok { n with exponent := some (minus, digits) }, rest.dropWhile Char.isDigit)
    else (.ok n, s)
  | [] => (.ok n, s)

def scanFraction (n : NumberText) (s : List Char) : Except NumberBreak NumberText × List Char :=
  match s with
  | '.' :: rest =>
    let digits := rest.takeWhile Char.isDigit
    if digits.isEmpty then stop rest
    else { n with fraction := some digits }.scanExponent (rest.dropWhile Char.isDigit)
  | _ => n.scanExponent s

/-- Scan a number that starts at its sign or its first digit.  A leading zero stands alone. -/
def scan (s : List Char) : Except NumberBreak NumberText × List Char :=
  let (negative, s) :=
    match s with
    | '-' :: rest => (true, rest)
    | _ => (false, s)
  let whole := s.takeWhile Char.isDigit
  match whole with
  | [] => stop s
  | '0' :: _ :: _ => (.error .junk, s)
  | _ => NumberText.scanFraction ⟨negative, whole, none, none⟩ (s.dropWhile Char.isDigit)

/-- Digits are gathered while they fit 64 bits.  The first that does not fit is dropped with all
after it, and only their number counts. -/
def gather (start : Nat) : List Char → Nat × Nat
  | [] => (start, 0)
  | c :: rest =>
    let next := start * 10 + (c.toNat - 48)
    if next < 0x10000000000000000 then gather next rest else (start, rest.length + 1)

def tenTo (n : Nat) : Float := Float.ofScientific 1 false n

/-- Divide by a power of ten, in steps that a double can hold. -/
def shrink : Nat → Float → Nat → Float
  | 0, f, _ => f
  | fuel + 1, f, n =>
    if n ≤ 308 then f / tenTo n
    else if f == 0 then f
    else shrink fuel (f / tenTo 308) (n - 308)

/-- Scale a double by a power of ten; `none` if it leaves the range. -/
def scale (f : Float) (e : Int) : Option Float :=
  if e < 0 then some (shrink 5 f e.natAbs)
  else if e ≤ 308 then
    let g := f * tenTo e.natAbs
    if g.isInf then none else some g
  else if f == 0 then some f
  else none

def double (n : NumberText) : Except Fault UInt64 :=
  let (m, dropped) := gather 0 n.whole
  let fraction := n.fraction.getD []
  let (m, unread) := gather m fraction
  let point : Int := dropped - (fraction.length - unread : Nat)
  let signed (f : Float) : UInt64 := (if n.negative then -f else f).toBits
  let finish (e : Int) : Except Fault UInt64 :=
    match scale m.toUInt64.toFloat e with
    | some f => .ok (signed f)
    | none => .error .numberOutOfRange
  match n.exponent with
  | none => finish point
  | some (minus, digits) =>
    let e := Text.decimalValue digits
    if e < 0x80000000 then finish (if minus then point - e else point + e)
    else if m ≠ 0 ∧ ¬ minus then .error .numberOutOfRange
    else .ok (signed 0)

/-- The value of the number.  A number without fraction and exponent is an integer if it fits
into 64 bits, signed or not; minus zero is a double. -/
def value (n : NumberText) : Except Fault Number :=
  let m := Text.decimalValue n.whole
  if n.fraction.isNone ∧ n.exponent.isNone ∧
      (if n.negative then 0 < m ∧ m ≤ 0x8000000000000000 else m < 0x10000000000000000) then
    .ok (.integer (if n.negative then -(m : Int) else m))
  else .float <$> n.double

end NumberText

namespace Number

/-- Doubles are written plainly when their decimal exponent is between -5 and 15, and otherwise
with an exponent; a whole number keeps `.0` in the plain form. -/
def floatText (bits : UInt64) : List Char :=
  let d := Decimal.shortest bits
  let n := d.digits.length
  let sign := if d.negative then ['-'] else []
  let body :=
    if d.point ≤ -5 ∨ 16 < d.point then
      let fraction := d.digits.drop 1
      let e := d.point - 1
      d.digits.take 1 ++ (if fraction.isEmpty then [] else '.' :: fraction) ++
        'e' :: (if e < 0 then '-' else '+') :: Nat.toDigits 10 e.natAbs
    else if d.point ≤ 0 then '0' :: '.' :: (List.replicate d.point.natAbs '0' ++ d.digits)
    else if n ≤ d.point.natAbs then
      d.digits ++ List.replicate (d.point.natAbs - n) '0' ++ ['.', '0']
    else d.digits.take d.point.natAbs ++ '.' :: d.digits.drop d.point.natAbs
  sign ++ body

def integerText (value : Int) : List Char :=
  (if value < 0 then ['-'] else []) ++ Nat.toDigits 10 value.natAbs

def text : Number → List Char
  | .integer value => integerText value
  | .float bits => floatText bits

end Number

end LiveRuns.Json
