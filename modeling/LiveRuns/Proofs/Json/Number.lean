import LiveRuns.Proofs.Json.Grammar
import Mathlib.Tactic.SplitIfs

/-!
An integer written in JSON is read back.

`NumberText.ofInteger` is the number of which `Number.integerText` writes a text.  Its value is the
integer again if 64 bits hold it, and the value of a number that was read is never outside that
range.
-/

namespace LiveRuns.Json

open LiveRuns.Text

/-- The integers that 64 bits hold, signed or not; doubles have no such bound. -/
def Number.InRange : Number → Prop
  | .integer i => -0x8000000000000000 ≤ i ∧ i < 0x10000000000000000
  | .float _ => True

namespace NumberText

def ofInteger (i : Int) : NumberText := ⟨i < 0, Nat.toDigits 10 i.natAbs, none, none⟩

theorem spelt_ofInteger (i : Int) : (ofInteger i).Spelt (Number.integerText i) := by
  have digits : IsDigits (Nat.toDigits 10 i.natAbs) :=
    ⟨Nat.toDigits_ne_nil, fun _ => isDigit_of_mem_toDigits⟩
  have spelt : (ofInteger i).Spelt ((if decide (i < 0) then ['-'] else []) ++
      (Nat.toDigits 10 i.natAbs ++ ([] ++ []))) :=
    .intro digits (fun _ => eq_nil_of_toDigits_eq_zero_cons) rfl rfl
  simpa [Number.integerText] using spelt

/-- An integer that 64 bits hold is the value of its text. -/
theorem value_ofInteger {i : Int} (h : (Number.integer i).InRange) :
    (ofInteger i).value = .ok (.integer i) := by
  obtain ⟨low, high⟩ := h
  have sign : (if i < 0 then -(i.natAbs : Int) else i.natAbs) = i := by
    split <;> omega
  simp only [value, ofInteger, decimalValue_toDigits, decide_eq_true_eq, sign]
  refine if_pos ⟨rfl, rfl, ?_⟩
  split <;> omega

/-- The value of a number is in range. -/
theorem inRange_of_value {n : NumberText} {number : Number} (h : n.value = .ok number) :
    number.InRange := by
  have double (h : Number.float <$> n.double = .ok number) : number.InRange := by
    cases read : n.double with
    | error fault => rw [read] at h; cases h
    | ok bits => rw [read] at h; cases h; trivial
  simp only [value] at h
  split_ifs at h with negative fits fits
  · obtain ⟨-, -, bound⟩ := fits
    cases h
    simp only [Number.InRange]
    omega
  · exact double h
  · obtain ⟨-, -, bound⟩ := fits
    cases h
    simp only [Number.InRange]
    omega
  · exact double h

end NumberText

end LiveRuns.Json
