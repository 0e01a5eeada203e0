/-
Instants in universal time, to the nanosecond.

A `Timestamp` is a date of the Gregorian calendar, extended to years before 1, with a time of day.
Second 60 is a leap second and may stand in any minute.  The fields are kept as they are written,
so that every instant has one form, and both types carry the proof that their fields are in range.
-/

namespace LiveRuns

namespace Timestamp

def minYear : Int := -262143

def maxYear : Int := 262142

def isLeapYear (year : Int) : Bool :=
  year % 4 = 0 && (year % 100 ≠ 0 || year % 400 = 0)

def daysInMonth (year : Int) (month : Nat) : Nat :=
  if month = 2 then if isLeapYear year then 29 else 28
  else if month = 4 ∨ month = 6 ∨ month = 9 ∨ month = 11 then 30
  else 31

def IsDate (year : Int) (month day : Nat) : Prop :=
  minYear ≤ year ∧ year ≤ maxYear ∧ 1 ≤ month ∧ month ≤ 12 ∧
    1 ≤ day ∧ day ≤ daysInMonth year month

instance (year : Int) (month day : Nat) : Decidable (IsDate year month day) := by
  unfold IsDate; infer_instance

def IsTime (hour minute second nanosecond : Nat) : Prop :=
  hour < 24 ∧ minute < 60 ∧ second ≤ 60 ∧ nanosecond < 1000000000

instance (hour minute second nanosecond : Nat) :
    Decidable (IsTime hour minute second nanosecond) := by
  unfold IsTime; infer_instance

inductive Fault where
  | invalid
  | premature
  | outOfRange
  | trailing
  | impossible
deriving DecidableEq, Repr

def Fault.message : Fault → String
  | .invalid => "input contains invalid characters"
  | .premature => "premature end of input"
  | .outOfRange => "input is out of range"
  | .trailing => "trailing input"
  | .impossible => "no possible date and time matching input"

end Timestamp

structure Date where
  year : Int
  month : Nat
  day : Nat
  isDate : Timestamp.IsDate year month day
deriving DecidableEq

structure TimeOfDay where
  hour : Nat
  minute : Nat
  second : Nat
  nanosecond : Nat
  isTime : Timestamp.IsTime hour minute second nanosecond
deriving DecidableEq

/-- An instant in universal time. -/
structure Timestamp where
  date : Date
  time : TimeOfDay
deriving DecidableEq

namespace Date

def ofFields? (year : Int) (month day : Nat) : Option Date :=
  if h : Timestamp.IsDate year month day then some ⟨year, month, day, h⟩ else none

def next? (d : Date) : Option Date :=
  if d.day < Timestamp.daysInMonth d.year d.month then ofFields? d.year d.month (d.day + 1)
  else if d.month < 12 then ofFields? d.year (d.month + 1) 1
  else ofFields? (d.year + 1) 1 1

def previous? (d : Date) : Option Date :=
  if 1 < d.day then ofFields? d.year d.month (d.day - 1)
  else if 1 < d.month then
    ofFields? d.year (d.month - 1) (Timestamp.daysInMonth d.year (d.month - 1))
  else ofFields? (d.year - 1) 12 31

end Date

namespace TimeOfDay

def ofFields? (hour minute second nanosecond : Nat) : Option TimeOfDay :=
  if h : Timestamp.IsTime hour minute second nanosecond
  then some ⟨hour, minute, second, nanosecond, h⟩ else none

def atMinute? (t : TimeOfDay) (minute : Nat) : Option TimeOfDay :=
  ofFields? (minute / 60) (minute % 60) t.second t.nanosecond

end TimeOfDay

namespace Timestamp

/-- The instant at which a clock that is `offset` minutes ahead of universal time shows a date and
a time of day.  An offset of a day or more is no offset, and an instant outside the range of dates
is none that the text could mean. -/
def ofLocal (date : Date) (time : TimeOfDay) (offset : Int) : Except Fault Timestamp :=
  if offset ≤ -1440 ∨ 1440 ≤ offset then .error .outOfRange
  else
    let minute : Int := time.hour * 60 + time.minute - offset
    let moved : Option (Date × Int) :=
      if minute < 0 then date.previous?.map (·, minute + 1440)
      else if 1440 ≤ minute then date.next?.map (·, minute - 1440)
      else some (date, minute)
    match moved with
    | none => .error .impossible
    | some (date, minute) =>
      match time.atMinute? minute.toNat with
      | none => .error .impossible
      | some time => .ok ⟨date, time⟩

end Timestamp

end LiveRuns
