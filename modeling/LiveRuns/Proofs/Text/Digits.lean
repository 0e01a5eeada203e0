import LiveRuns.Text.Digits
import Mathlib.Data.List.Basic

/-!
Decimal digits are read back.

A number written in decimal, with or without zeros in front, has its own value again, and a reader
that takes digits as long as they come takes just those that were written, provided that what
follows starts with no digit.
-/

namespace LiveRuns.Text

/-- What is no decimal digit has no value to base ten, though it may to a greater one. -/
theorem digit?_eq_none {c : Char} (h : c.isDigit = false) : digit? 10 c = none := by
  have hdigit : ¬ ('0' ≤ c ∧ c ≤ '9') := by
    intro hc
    have hdigit : c.isDigit = true := by simpa [Char.isDigit, Char.le_def] using hc
    simp [h] at hdigit
  unfold digit?
  rw [if_neg hdigit]
  split_ifs with hlower hupper
  · have hle : 97 ≤ c.toNat := hlower.1
    have hvalue : ¬ c.toNat - 87 < 10 := by omega
    simp [Option.filter, hvalue]
  · have hle : 65 ≤ c.toNat := hupper.1
    have hvalue : ¬ c.toNat - 55 < 10 := by omega
    simp [Option.filter, hvalue]
  · rfl

/-- The value of a run of digits is the one that the library computes. -/
theorem decimalValue_eq_ofDigitChars (digits : List Char) :
    decimalValue digits = Nat.ofDigitChars 10 digits 0 := by
  unfold decimalValue Nat.ofDigitChars
  congr 1
  funext n c
  rw [Nat.mul_comm]
  rfl

theorem decimalValue_toDigits (n : Nat) : decimalValue (Nat.toDigits 10 n) = n := by
  rw [decimalValue_eq_ofDigitChars]
  exact Nat.ofDigitChars_toDigits (by decide) (by decide)

theorem decimalValue_replicate_append (k : Nat) (digits : List Char) :
    decimalValue (List.replicate k '0' ++ digits) = decimalValue digits := by
  induction k with
  | zero => rfl
  | succ k ih => exact ih

theorem isDigit_of_mem_toDigits {n : Nat} {c : Char} (h : c ∈ Nat.toDigits 10 n) :
    c.isDigit = true :=
  Nat.isDigit_of_mem_toDigits (by decide) (by decide) h

/-- Only zero starts with the digit zero, and it has no other digit. -/
theorem eq_nil_of_toDigits_eq_zero_cons {n : Nat} {digits : List Char}
    (h : Nat.toDigits 10 n = '0' :: digits) : digits = [] := by
  induction n using Nat.strongRecOn generalizing digits with
  | _ n ih =>
    by_cases small : n < 10
    · rw [Nat.toDigits_of_lt_base small] at h
      exact (List.cons.inj h).2.symm
    · rw [Nat.toDigits_of_base_le (by decide) (by omega)] at h
      cases front : Nat.toDigits 10 (n / 10) with
      | nil => exact absurd front Nat.toDigits_ne_nil
      | cons c more =>
        rw [front] at h
        obtain ⟨rfl, -⟩ := List.cons.inj h
        obtain rfl := ih (n / 10) (by omega) front
        -- the front digits are a lone zero, so the number was small
        have value := decimalValue_toDigits (n / 10)
        rw [front] at value
        have : (0 : Nat) = n / 10 := value
        omega

/-! ## Taking digits -/

def NoDigitNext (rest : List Char) : Prop := ∀ c ∈ rest.head?, c.isDigit = false

theorem noDigitNext_cons {c : Char} {rest : List Char} (h : c.isDigit = false) :
    NoDigitNext (c :: rest) := by
  rintro _ ⟨⟩
  exact h

theorem takeWhile_isDigit_append {digits rest : List Char} (hd : ∀ c ∈ digits, c.isDigit = true)
    (hr : NoDigitNext rest) : (digits ++ rest).takeWhile Char.isDigit = digits := by
  rw [List.takeWhile_append_of_pos hd]
  cases rest with
  | nil => simp
  | cons c rest => simp [hr c rfl]

theorem dropWhile_isDigit_append {digits rest : List Char} (hd : ∀ c ∈ digits, c.isDigit = true)
    (hr : NoDigitNext rest) : (digits ++ rest).dropWhile Char.isDigit = rest := by
  rw [List.dropWhile_append_of_pos hd]
  cases rest with
  | nil => simp
  | cons c rest => simp [hr c rfl]

end LiveRuns.Text
