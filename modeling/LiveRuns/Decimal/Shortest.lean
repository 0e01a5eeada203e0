/-
The shortest decimal text of a double.

A finite double is `m * 2 ^ q` with natural `m`.  Every real number closer to it than to its two
neighbours reads back as it, and so do the two midpoints when `m` is even.  `shortest` looks for
the fewest digits whose decimal lies in that interval, and of those takes the decimal nearest to
the double, a tie going to the even last digit.

All comparisons are exact: both sides are brought to a common denominator and compared as natural
numbers, so no rounding enters.
-/

namespace LiveRuns.Decimal

/-- A decimal `0.d₁d₂… * 10 ^ point` with its sign.  Zero has the single digit `0` and `point` 1. -/
structure Digits where
  negative : Bool
  digits : List Char
  point : Int
deriving DecidableEq, Repr

/-- The numbers that read back as one double, over the common denominator `scale`: from `low` to
`high` around `middle`, the ends included if `closed`. -/
structure Interval where
  low : Nat
  middle : Nat
  high : Nat
  scale : Nat
  closed : Bool

/-- The interval of the double `m * 2 ^ q`.  Below a power of two the lower neighbour is half as
far away, save at the bottom of the range. -/
def interval (m : Nat) (q : Int) : Interval :=
  let near := m = 0x10000000000000 ∧ -1074 < q
  let up := Nat.pow 2 q.toNat
  { low := (4 * m - if near then 1 else 2) * up
    middle := 4 * m * up
    high := (4 * m + 2) * up
    scale := 4 * Nat.pow 2 (-q).toNat
    closed := m % 2 = 0 }

def Interval.contains (i : Interval) (n d : Nat) : Bool :=
  if i.closed then i.low * d ≤ n * i.scale && n * i.scale ≤ i.high * d
  else i.low * d < n * i.scale && n * i.scale < i.high * d

/-- The multiple of `10 ^ e` next to the middle of the interval that lies inside it, if one does. -/
def Interval.nearest? (i : Interval) (e : Int) : Option Nat :=
  let unit := Nat.pow 10 e.toNat
  let d := Nat.pow 10 (-e).toNat
  let below := i.middle * d / (i.scale * unit)
  let twice := 2 * (i.middle * d) - (2 * below) * (i.scale * unit)
  let first := if twice < i.scale * unit ∨ (twice = i.scale * unit ∧ below % 2 = 0)
    then below else below + 1
  let second := if first = below then below + 1 else below
  if i.contains (first * unit) d then some first
  else if i.contains (second * unit) d then some second
  else none

def Interval.search (i : Interval) : Nat → Int → Nat × Int
  | 0, e => (i.middle, e)
  | fuel + 1, e =>
    match i.nearest? e with
    | some (n + 1) => (n + 1, e)
    | _ => i.search fuel (e - 1)

/-- A power of ten that no double of the form `m * 2 ^ q` reaches, as an exponent. -/
def ceilingExponent (m : Nat) (q : Int) : Int :=
  ((m.log2 + 1 : Int) + q) * 30103 / 100000 + 1

def trimZeros (digits : List Char) : List Char :=
  (digits.reverse.dropWhile (· = '0')).reverse

/-- The fewest decimal digits that read back as the double with these bits. -/
def shortest (bits : UInt64) : Digits :=
  let b := bits.toNat
  let negative := 0x8000000000000000 ≤ b
  let exponent : Nat := b / 0x10000000000000 % 0x800
  let fraction := b % 0x10000000000000
  if exponent = 0 ∧ fraction = 0 then ⟨negative, ['0'], 1⟩
  else
    let (m, q) : Nat × Int :=
      if exponent = 0 then (fraction, -1074) else (0x10000000000000 + fraction, (exponent : Int) - 1075)
    let (n, e) := (interval m q).search 30 (ceilingExponent m q)
    let digits := Nat.toDigits 10 n
    ⟨negative, trimZeros digits, digits.length + e⟩

end LiveRuns.Decimal
