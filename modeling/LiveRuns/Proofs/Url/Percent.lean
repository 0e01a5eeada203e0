import LiveRuns.Url.Percent
import Mathlib

/-!
Escapes.

An escape is a percent sign and two digits, so it holds none of the marks that part a URL,
`not_mem_percentEncode`; and it is read as the byte that was escaped, whatever follows it,
`percentDecode_escapedByte`.
-/

namespace LiveRuns.Url

/-! ## The characters of an escape -/

def OutsideEscapes (c : Char) : Prop := c ≠ '%' ∧ ∀ n < 16, c ≠ hexUpper n

instance (c : Char) : Decidable (OutsideEscapes c) := by
  unfold OutsideEscapes; infer_instance

theorem highDigit_lt (b : UInt8) : b.toNat / 16 < 16 := by
  have := b.toNat_lt
  omega

theorem lowDigit_lt (b : UInt8) : b.toNat % 16 < 16 := Nat.mod_lt _ (by decide)

theorem not_mem_escapedByte {c : Char} (h : OutsideEscapes c) (b : UInt8) : c ∉ escapedByte b := by
  simp [escapedByte, h.1, h.2 _ (highDigit_lt b), h.2 _ (lowDigit_lt b)]

theorem not_mem_percentEncode {set : Char → Bool} {s : List Char} {c : Char}
    (hc : OutsideEscapes c) (h : c ∈ s → set c = true) : c ∉ percentEncode set s := by
  simp only [percentEncode, List.mem_flatMap, not_exists, not_and]
  intro d hd
  split_ifs with hset
  · simp only [escapedChar, List.mem_flatMap, not_exists, not_and]
    exact fun b _ => not_mem_escapedByte hc b
  · rw [List.mem_singleton]
    rintro rfl
    exact hset (h hd)

/-! ## Reading escapes -/

theorem digit?_hexUpper : ∀ n < 16, Text.digit? 16 (hexUpper n) = some n := by decide

@[simp] theorem percentDecode_nil : percentDecode [] = [] := rfl

theorem percentDecode_escapedByte (b : UInt8) (rest : List Char) :
    percentDecode (escapedByte b ++ rest) = b :: percentDecode rest := by
  show percentDecode ('%' :: hexUpper (b.toNat / 16) :: hexUpper (b.toNat % 16) :: rest) = _
  rw [percentDecode, digit?_hexUpper _ (highDigit_lt b), digit?_hexUpper _ (lowDigit_lt b)]
  have hvalue : b.toNat / 16 * 16 + b.toNat % 16 = b.toNat := Nat.div_add_mod' b.toNat 16
  simp only [hvalue, UInt8.ofNat_toNat]

theorem percentDecode_cons {c : Char} (h : c ≠ '%') (rest : List Char) :
    percentDecode (c :: rest) = String.utf8EncodeChar c ++ percentDecode rest := by
  rw [percentDecode]
  exact fun _ _ _ hpercent _ => h hpercent

end LiveRuns.Url
