import LiveRuns.Text.Digits

/-!
Reading integers of a fixed width.

`natural` reads an unsigned 64-bit number and says what is wrong with a text that is none; the
first digit that is none or does not fit decides.  `integer?` reads a signed one to any base.
-/

namespace LiveRuns.Decimal

inductive NaturalFault where
  | empty
  | badDigit
  | tooLarge
deriving DecidableEq, Repr

def NaturalFault.message : NaturalFault → String
  | .empty => "cannot parse integer from empty string"
  | .badDigit => "invalid digit found in string"
  | .tooLarge => "number too large to fit in target type"

def readDigits (n : Nat) : List Char → Except NaturalFault Nat
  | [] => .ok n
  | c :: rest =>
    if c.isDigit then
      let next := n * 10 + (c.toNat - 48)
      if next < 0x10000000000000000 then readDigits next rest else .error .tooLarge
    else .error .badDigit

/-- Read an unsigned 64-bit number; it may have a plus sign. -/
def natural (s : List Char) : Except NaturalFault Nat :=
  match s with
  | [] => .error .empty
  | ['+'] => .error .badDigit
  | '+' :: digits => readDigits 0 digits
  | _ => readDigits 0 s

def naturalIn? (base : Nat) (s : List Char) : Option Nat :=
  if s.isEmpty then none
  else s.foldlM (fun n c => (Text.digit? base c).map (n * base + ·)) 0

def integer? (base : Nat) (s : List Char) : Option Int :=
  let read : Option Int :=
    match s with
    | '-' :: digits => (naturalIn? base digits).map fun n => -(n : Int)
    | '+' :: digits => (naturalIn? base digits).map fun n => (n : Int)
    | _ => (naturalIn? base s).map fun n => (n : Int)
  read.filter fun i => -0x8000000000000000 ≤ i ∧ i < 0x8000000000000000

end LiveRuns.Decimal
