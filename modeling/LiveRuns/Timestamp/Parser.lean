import LiveRuns.Text.Digits
import LiveRuns.Timestamp.Basic
import LiveRuns.Unicode.Blank

/-!
Reading an instant.

Two forms are read.  `ofText` is lenient: blanks may stand around the parts, month, day and time
may have one digit, and the year may be signed and then have any number of digits.  `ofStrictText`
wants every digit in its column.  Both want seconds and an offset from universal time.

Both report the first fault in reading order, where a number out of its range is a fault at its
place; whether the date exists is a question for the end in the lenient form, and for the end of
the date in the strict one.
-/

namespace LiveRuns.Timestamp

def skipBlanks (s : List Char) : List Char := s.dropWhile Unicode.isBlank

/-- Read a number of at least one digit, and of at most `width` if that is given. -/
def readNumber (width : Option Nat) (s : List Char) : Except Fault (Nat × List Char) :=
  let digits := ((width.map s.take).getD s).takeWhile Char.isDigit
  if digits.isEmpty then .error (if s.isEmpty then .premature else .invalid)
  else .ok (Text.decimalValue digits, s.drop digits.length)

/-- Read a one- or two-digit number between two bounds, after blanks. -/
def readField (least greatest : Nat) (s : List Char) : Except Fault (Nat × List Char) := do
  let (n, rest) ← readNumber (some 2) (skipBlanks s)
  if least ≤ n ∧ n ≤ greatest then return (n, rest) else throw .outOfRange

def readMark (mark : Char) : List Char → Except Fault (List Char)
  | [] => .error .premature
  | c :: rest => if c = mark then .ok rest else .error .invalid

/-- Read a year: up to four digits, or a sign and any number of them.  It has to fit 32 bits. -/
def readYear (s : List Char) : Except Fault (Int × List Char) := do
  let (year, rest) ← match skipBlanks s with
    | '-' :: rest => do
      let (n, rest) ← readNumber none rest
      pure (-(n : Int), rest)
    | '+' :: rest => do
      let (n, rest) ← readNumber none rest
      pure ((n : Int), rest)
    | s => do
      let (n, rest) ← readNumber (some 4) s
      pure ((n : Int), rest)
  if -0x80000000 ≤ year ∧ year < 0x80000000 then return (year, rest) else throw .outOfRange

/-- Read the fraction of a second, if there is one, in nanoseconds; digits after the ninth are
dropped. -/
def readFraction : List Char → Except Fault (Nat × List Char)
  | '.' :: s => do
    let digits := s.takeWhile Char.isDigit
    if digits.isEmpty then throw (if s.isEmpty then .premature else .invalid)
    let kept := digits.take 9
    return (Text.decimalValue kept * Nat.pow 10 (9 - kept.length), s.drop digits.length)
  | s => .ok (0, s)

/-- Read two digits that have to be there.  A lone character is too short, unless it takes more
than one byte. -/
def readTwoDigits : List Char → Except Fault (Nat × Nat × List Char)
  | [] => .error .premature
  | [c] => .error (if c.utf8Size < 2 then .premature else .invalid)
  | a :: b :: rest =>
    if a.isDigit ∧ b.isDigit then .ok (a.toNat - 48, b.toNat - 48, rest) else .error .invalid

/-- The sign of an offset; `true` is minus, which may also be the typographic one. -/
def readSign : List Char → Except Fault (Bool × List Char)
  | [] => .error .premature
  | '+' :: rest => .ok (false, rest)
  | '-' :: rest => .ok (true, rest)
  | '−' :: rest => .ok (true, rest)
  | _ :: _ => .error .invalid

/-- Read an offset in minutes: `Z`, or a sign and two digits each for hours and minutes with what
`between` allows between them. -/
def readOffset (between : List Char → Except Fault (List Char)) (s : List Char) :
    Except Fault (Int × List Char) :=
  match s with
  | 'Z' :: rest => .ok (0, rest)
  | 'z' :: rest => .ok (0, rest)
  | _ => do
    let (minus, s) ← readSign s
    let (h₁, h₂, s) ← readTwoDigits s
    let s ← between s
    let (m₁, m₂, s) ← readTwoDigits s
    if 5 < m₁ then throw .outOfRange
    let minutes : Int := (h₁ * 10 + h₂) * 60 + (m₁ * 10 + m₂)
    return (if minus then -minutes else minutes, s)

def skipColons (s : List Char) : Except Fault (List Char) :=
  .ok (s.dropWhile fun c => c = ':' || Unicode.isBlank c)

/-- The letters `UTC` in any case in front of a text are an offset too. -/
def readNamedOffset (s : List Char) : Except Fault (Int × List Char) :=
  if (s.take 3).map Char.toUpper = ['U', 'T', 'C'] then .ok (0, s.drop 3)
  else readOffset skipColons s

def readSeparator : List Char → Except Fault (List Char)
  | [] => .error .premature
  | c :: rest =>
    if c = 'T' ∨ c = 't' ∨ Unicode.isBlank c then .ok rest else .error .invalid

def orOutOfRange {α : Type} : Option α → Except Fault α
  | some a => .ok a
  | none => .error .outOfRange

def ofChars (s : List Char) : Except Fault Timestamp := do
  let (year, s) ← readYear s
  let s ← readMark '-' (skipBlanks s)
  let (month, s) ← readField 1 12 s
  let s ← readMark '-' (skipBlanks s)
  let (day, s) ← readField 1 31 s
  let s ← readSeparator s
  let (hour, s) ← readField 0 23 s
  let s ← readMark ':' (skipBlanks s)
  let (minute, s) ← readField 0 59 s
  let s ← readMark ':' (skipBlanks s)
  let (second, s) ← readField 0 60 s
  let (nanosecond, s) ← readFraction s
  let (offset, s) ← readNamedOffset (skipBlanks s)
  if ¬ (skipBlanks s).isEmpty then throw .trailing
  let date ← orOutOfRange (Date.ofFields? year month day)
  let time ← orOutOfRange (TimeOfDay.ofFields? hour minute second nanosecond)
  ofLocal date time offset

/-- Read an instant in the lenient form. -/
def ofText (text : String) : Except Fault Timestamp := ofChars text.toList

def readColumns (count : Nat) (s : List Char) : Except Fault (Nat × List Char) :=
  let digits := s.take count
  if digits.length = count ∧ digits.all Char.isDigit then .ok (Text.decimalValue digits, s.drop count)
  else .error .invalid

def readOneOf (marks : List Char) : List Char → Except Fault (List Char)
  | [] => .error .invalid
  | c :: rest => if c ∈ marks then .ok rest else .error .invalid

/-- Read an instant in the strict form.  A text of fewer than 19 bytes cannot hold a date and a
time and is premature, whatever it holds. -/
def ofStrictText (text : String) : Except Fault Timestamp := do
  if text.utf8ByteSize < 19 then throw .premature
  let (year, s) ← readColumns 4 text.toList
  let s ← readOneOf ['-'] s
  let (month, s) ← readColumns 2 s
  let s ← readOneOf ['-'] s
  let (day, s) ← readColumns 2 s
  let date ← orOutOfRange (Date.ofFields? year month day)
  let s ← readOneOf ['T', 't', ' '] s
  let (hour, s) ← readColumns 2 s
  let s ← readOneOf [':'] s
  let (minute, s) ← readColumns 2 s
  let s ← readOneOf [':'] s
  let (second, s) ← readColumns 2 s
  let (nanosecond, s) ← readFraction s
  let time ← orOutOfRange (TimeOfDay.ofFields? hour minute second nanosecond)
  let (offset, s) ← readOffset (readMark ':') s
  if ¬ s.isEmpty then throw .trailing
  ofLocal date time offset

end LiveRuns.Timestamp
