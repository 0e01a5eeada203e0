import LiveRuns.Decimal.Shortest
import LiveRuns.Text.Digits

/-!
Doubles as decimals, and back.

A double is held as its bits, so that it can be compared and taken apart.  `parse?` reads a decimal
to the nearest double, `positional` writes the shortest decimal without an exponent, and `toNat`
rounds to a natural number, a half going up.
-/

namespace LiveRuns.Decimal

abbrev Bits := UInt64

/-- The sign of a double; minus zero has one too. -/
def isNegative (b : Bits) : Bool := 0x8000000000000000 ≤ b.toNat

def magnitude (b : Bits) : Nat := b.toNat % 0x8000000000000000

def infinity : Bits := 0x7FF0000000000000

def notANumber : Bits := 0x7FF8000000000000

def negate (b : Bits) : Bits := b ^^^ 0x8000000000000000

def isNumber (b : Bits) : Bool := magnitude b ≤ infinity.toNat

def isInfinite (b : Bits) : Bool := magnitude b = infinity.toNat

/-- The natural numbers `m` and the integer `q` of a finite double without its sign, which is
`m * 2 ^ q`. -/
def parts (b : Bits) : Nat × Int :=
  let exponent : Nat := b.toNat / 0x10000000000000 % 0x800
  let fraction := b.toNat % 0x10000000000000
  if exponent = 0 then (fraction, -1074) else (0x10000000000000 + fraction, (exponent : Int) - 1075)

/-- The nearest natural number below a bound; negative numbers and what is no number give zero. -/
def toNat (b : Bits) (bound : Nat) : Nat :=
  if isNegative b ∨ ¬ isNumber b then 0
  else if isInfinite b then bound
  else
    let (m, q) := parts b
    let unit := Nat.pow 2 q.natAbs
    let n := if 0 ≤ q then m * unit else (2 * m + unit) / (2 * unit)
    min n bound

/-- The shortest decimal of a double, written without an exponent. -/
def positional (b : Bits) : List Char :=
  let sign := if isNegative b then ['-'] else []
  if ¬ isNumber b then "NaN".toList
  else if isInfinite b then sign ++ "inf".toList
  else if magnitude b = 0 then sign ++ ['0']
  else
    let d := shortest b
    let n := d.digits.length
    let point := d.point.natAbs
    sign ++
      if d.point ≤ 0 then '0' :: '.' :: (List.replicate point '0' ++ d.digits)
      else if n ≤ point then d.digits ++ List.replicate (point - n) '0'
      else d.digits.take point ++ '.' :: d.digits.drop point

/-! ## Reading -/

/-- The double nearest to `m * 10 ^ e`.  Far beyond the range the power is not computed. -/
def nearest (m : Nat) (e : Int) : Bits :=
  let size : Int := (Nat.toDigits 10 m).length + e
  if m = 0 ∨ size < -400 then 0
  else if 400 < size then infinity
  else (Float.ofScientific m (e < 0) e.natAbs).toBits

def exponent? : List Char → Option Int
  | [] => some 0
  | c :: rest =>
    if c = 'e' ∨ c = 'E' then
      let (minus, digits) :=
        match rest with
        | '-' :: rest => (true, rest)
        | '+' :: rest => (false, rest)
        | _ => (false, rest)
      if digits.isEmpty ∨ ¬ digits.all Char.isDigit then none
      else some (if minus then -(Text.decimalValue digits : Int) else Text.decimalValue digits)
    else none

/-- Read a decimal without sign: digits, a point among or around them, and an exponent. -/
def unsigned? (s : List Char) : Option Bits :=
  let name := s.map Char.toLower
  if name = "inf".toList ∨ name = "infinity".toList then some infinity
  else if name = "nan".toList then some notANumber
  else
    let whole := s.takeWhile Char.isDigit
    let rest := s.drop whole.length
    let (fraction, rest) :=
      match rest with
      | '.' :: rest => (rest.takeWhile Char.isDigit, rest.dropWhile Char.isDigit)
      | _ => ([], rest)
    if whole.isEmpty ∧ fraction.isEmpty then none
    else (exponent? rest).map fun e =>
      nearest (Text.decimalValue (whole ++ fraction)) (e - fraction.length)

def parse? : List Char → Option Bits
  | '-' :: s => (unsigned? s).map negate
  | '+' :: s => unsigned? s
  | s => unsigned? s

end LiveRuns.Decimal
