import LiveRuns.Timestamp.Basic

/-!
The text of an instant: `2026-03-01T08:30:00.250Z`.

The year has four digits, and a sign outside `0000` to `9999`.  `text` writes the fraction of the
second with 0, 3, 6 or 9 digits, the fewest that are exact; `milliText` writes 3 digits always and
drops the rest.
-/

namespace LiveRuns.Timestamp

/-- A number in at least `width` digits. -/
def padded (width n : Nat) : List Char :=
  let digits := Nat.toDigits 10 n
  List.replicate (width - digits.length) '0' ++ digits

def yearText (year : Int) : List Char :=
  let sign := if year < 0 then ['-'] else if 9999 < year then ['+'] else []
  sign ++ padded 4 year.natAbs

/-- The fraction of a second in the fewest thousands that are exact. -/
def fractionText (nanosecond : Nat) : List Char :=
  if nanosecond = 0 then []
  else if nanosecond % 1000000 = 0 then '.' :: padded 3 (nanosecond / 1000000)
  else if nanosecond % 1000 = 0 then '.' :: padded 6 (nanosecond / 1000)
  else '.' :: padded 9 nanosecond

def charsWith (t : Timestamp) (fraction : List Char) : List Char :=
  yearText t.date.year ++ '-' :: padded 2 t.date.month ++ '-' :: padded 2 t.date.day ++
    'T' :: padded 2 t.time.hour ++ ':' :: padded 2 t.time.minute ++
    ':' :: padded 2 t.time.second ++ fraction ++ ['Z']

def text (t : Timestamp) : String :=
  String.ofList (t.charsWith (fractionText t.time.nanosecond))

/-- The text of an instant to the millisecond, rounded down. -/
def milliText (t : Timestamp) : String :=
  String.ofList (t.charsWith ('.' :: padded 3 (t.time.nanosecond / 1000000)))

end LiveRuns.Timestamp
