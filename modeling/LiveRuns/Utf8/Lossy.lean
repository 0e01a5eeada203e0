/-
UTF-8, read without ever failing.

`decode` gives one character for each well-formed sequence, and one replacement character for each
longest run of bytes that starts a well-formed sequence and does not finish it, or for a byte that
starts none.  It is a fold over the bytes whose state is the sequence begun, so that it can be
followed byte by byte.  `encode` is the inverse on text.
-/

namespace LiveRuns.Utf8

def encode (s : List Char) : List UInt8 := s.flatMap String.utf8EncodeChar

/-- A sequence begun: how many bytes it still lacks, the bounds of the next one, and the code so
far. -/
structure Begun where
  lacks : Nat
  low : UInt8
  high : UInt8
  code : Nat
deriving DecidableEq, Repr

def replacement : Char := '\uFFFD'

/-- The characters read, last first, and the sequence begun. -/
structure State where
  read : List Char
  begun : Option Begun

def start (read : List Char) (b : UInt8) : State :=
  if b < 0x80 then ⟨Char.ofNat b.toNat :: read, none⟩
  else if b < 0xC2 then ⟨replacement :: read, none⟩
  else if b < 0xE0 then ⟨read, some ⟨1, 0x80, 0xBF, b.toNat % 32⟩⟩
  else if b = 0xE0 then ⟨read, some ⟨2, 0xA0, 0xBF, 0⟩⟩
  else if b = 0xED then ⟨read, some ⟨2, 0x80, 0x9F, 13⟩⟩
  else if b < 0xF0 then ⟨read, some ⟨2, 0x80, 0xBF, b.toNat % 16⟩⟩
  else if b = 0xF0 then ⟨read, some ⟨3, 0x90, 0xBF, 0⟩⟩
  else if b < 0xF4 then ⟨read, some ⟨3, 0x80, 0xBF, b.toNat % 8⟩⟩
  else if b = 0xF4 then ⟨read, some ⟨3, 0x80, 0x8F, 4⟩⟩
  else ⟨replacement :: read, none⟩

/-- Take a byte.  One that does not continue the sequence begun replaces it and starts anew. -/
def step (s : State) (b : UInt8) : State :=
  match s.begun with
  | none => start s.read b
  | some p =>
    if p.low ≤ b ∧ b ≤ p.high then
      let code := p.code * 64 + b.toNat % 64
      if p.lacks ≤ 1 then ⟨Char.ofNat code :: s.read, none⟩
      else ⟨s.read, some ⟨p.lacks - 1, 0x80, 0xBF, code⟩⟩
    else start (replacement :: s.read) b

/-- The characters read, with a replacement for a sequence that was begun and not finished. -/
def State.finish (s : State) : List Char :=
  (if s.begun.isSome then replacement :: s.read else s.read).reverse

def decode (bytes : List UInt8) : List Char := (bytes.foldl step ⟨[], none⟩).finish

def decode? (bytes : List UInt8) : Option (List Char) :=
  let s := decode bytes
  if encode s = bytes then some s else none

end LiveRuns.Utf8
