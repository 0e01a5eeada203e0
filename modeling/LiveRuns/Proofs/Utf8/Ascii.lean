import LiveRuns.Utf8.Lossy
import Mathlib

/-!
ASCII bytes in UTF-8.

A byte below 0x80 is a character by itself, whatever stands around it: it ends a sequence that was
begun and not finished, and begins none.  So a text may be cut at such a byte before it is decoded
as well as after, `decode_append_ascii`, and a character below 0x80 comes from a byte of the same
number, `exists_of_mem_decode`.  The null character is left out of the latter, since it also stands
for the numbers that no character has.
-/

namespace LiveRuns.Utf8

/-! ## Sequences begun -/

/-- What holds of a sequence begun: the bytes that continue it are not ASCII, and neither is the
least code that it can come to. -/
structure Begun.Sound (p : Begun) : Prop where
  low : 0x80 ≤ p.low.toNat
  high : p.high.toNat ≤ 0xBF
  least : 128 ≤ (p.code * 64 + p.low.toNat % 64) * 64 ^ (p.lacks - 1)

def State.Sound (s : State) : Prop := ∀ p, s.begun = some p → p.Sound

/-- A sequence that any byte continues is sound if its code is. -/
theorem Begun.sound_of_le {lacks code : Nat} (h : 128 ≤ code * 64 * 64 ^ (lacks - 1)) :
    Begun.Sound ⟨lacks, 0x80, 0xBF, code⟩ :=
  ⟨Nat.le_refl _, Nat.le_refl _, by simpa using h⟩

/-- A byte between characters is one itself, or forms none, or begins a sound sequence, whatever
was read before. -/
theorem start_cases (b : UInt8) :
    (b.toNat < 128 ∧ ∀ read, start read b = ⟨Char.ofNat b.toNat :: read, none⟩) ∨
      (∀ read, start read b = ⟨replacement :: read, none⟩) ∨
      ∃ p : Begun, p.Sound ∧ ∀ read, start read b = ⟨read, some p⟩ := by
  by_cases hone : b < 0x80
  · exact .inl ⟨UInt8.lt_iff_toNat_lt.mp hone, fun read => if_pos hone⟩
  right
  by_cases hill : b < 0xC2
  · exact .inl fun read => by rw [start, if_neg hone, if_pos hill]
  have hleast : 194 ≤ b.toNat := UInt8.le_iff_toNat_le.mp (UInt8.not_lt.mp hill)
  by_cases htwo : b < 0xE0
  · have hlt : b.toNat < 224 := UInt8.lt_iff_toNat_lt.mp htwo
    have hcode : 128 ≤ b.toNat % 32 * 64 * 64 ^ 0 := by omega
    refine .inr ⟨⟨1, 0x80, 0xBF, b.toNat % 32⟩, Begun.sound_of_le hcode, fun read => ?_⟩
    rw [start, if_neg hone, if_neg hill, if_pos htwo]
  have hleast : 224 ≤ b.toNat := UInt8.le_iff_toNat_le.mp (UInt8.not_lt.mp htwo)
  by_cases he0 : b = 0xE0
  · refine .inr ⟨⟨2, 0xA0, 0xBF, 0⟩, ⟨by decide, by decide, by decide⟩, fun read => ?_⟩
    rw [start, if_neg hone, if_neg hill, if_neg htwo, if_pos he0]
  have hne : b.toNat ≠ 224 := fun h => he0 (UInt8.toNat_inj.mp h)
  by_cases hed : b = 0xED
  · refine .inr ⟨⟨2, 0x80, 0x9F, 13⟩, ⟨by decide, by decide, by decide⟩, fun read => ?_⟩
    rw [start, if_neg hone, if_neg hill, if_neg htwo, if_neg he0, if_pos hed]
  by_cases hthree : b < 0xF0
  · have hlt : b.toNat < 240 := UInt8.lt_iff_toNat_lt.mp hthree
    have hcode : 128 ≤ b.toNat % 16 * 64 * 64 ^ 1 := by omega
    refine .inr ⟨⟨2, 0x80, 0xBF, b.toNat % 16⟩, Begun.sound_of_le hcode, fun read => ?_⟩
    rw [start, if_neg hone, if_neg hill, if_neg htwo, if_neg he0, if_neg hed, if_pos hthree]
  have hleast : 240 ≤ b.toNat := UInt8.le_iff_toNat_le.mp (UInt8.not_lt.mp hthree)
  by_cases hf0 : b = 0xF0
  · refine .inr ⟨⟨3, 0x90, 0xBF, 0⟩, ⟨by decide, by decide, by decide⟩, fun read => ?_⟩
    rw [start, if_neg hone, if_neg hill, if_neg htwo, if_neg he0, if_neg hed, if_neg hthree,
      if_pos hf0]
  have hne : b.toNat ≠ 240 := fun h => hf0 (UInt8.toNat_inj.mp h)
  by_cases hfour : b < 0xF4
  · have hlt : b.toNat < 244 := UInt8.lt_iff_toNat_lt.mp hfour
    have hcode : 128 ≤ b.toNat % 8 * 64 * 64 ^ 2 := by omega
    refine .inr ⟨⟨3, 0x80, 0xBF, b.toNat % 8⟩, Begun.sound_of_le hcode, fun read => ?_⟩
    rw [start, if_neg hone, if_neg hill, if_neg htwo, if_neg he0, if_neg hed, if_neg hthree,
      if_neg hf0, if_pos hfour]
  by_cases hf4 : b = 0xF4
  · refine .inr ⟨⟨3, 0x80, 0x8F, 4⟩, ⟨by decide, by decide, by decide⟩, fun read => ?_⟩
    rw [start, if_neg hone, if_neg hill, if_neg htwo, if_neg he0, if_neg hed, if_neg hthree,
      if_neg hf0, if_neg hfour, if_pos hf4]
  · exact .inl fun read => by
      rw [start, if_neg hone, if_neg hill, if_neg htwo, if_neg he0, if_neg hed, if_neg hthree,
        if_neg hf0, if_neg hfour, if_neg hf4]

theorem start_sound (read : List Char) (b : UInt8) : (start read b).Sound := by
  intro p hp
  rcases start_cases b with ⟨-, hstart⟩ | hstart | ⟨q, hq, hstart⟩
  · rw [hstart] at hp
    cases hp
  · rw [hstart] at hp
    cases hp
  · rw [hstart] at hp
    cases hp
    exact hq

/-- A byte that continues a sequence adds at least what the least such byte adds. -/
theorem Begun.Sound.least_le {p : Begun} (h : p.Sound) {b : UInt8}
    (hlow : p.low ≤ b) (hhigh : b ≤ p.high) :
    128 ≤ (p.code * 64 + b.toNat % 64) * 64 ^ (p.lacks - 1) := by
  refine Nat.le_trans h.least (Nat.mul_le_mul_right _ ?_)
  have h80 := h.low
  have hBF := h.high
  simp only [UInt8.le_iff_toNat_le] at hlow hhigh
  omega

theorem State.Sound.step {s : State} (h : s.Sound) (b : UInt8) : (step s b).Sound := by
  cases hbegun : s.begun with
  | none =>
    simp only [Utf8.step, hbegun]
    exact start_sound _ _
  | some p =>
    simp only [Utf8.step, hbegun]
    split_ifs with hin hlast
    · intro q hq
      cases hq
    · intro q hq
      cases hq
      have hleast := (h p hbegun).least_le hin.1 hin.2
      have hpow : 64 ^ (p.lacks - 1) = 64 * 64 ^ (p.lacks - 1 - 1) := by
        rw [← Nat.pow_succ']
        congr 1
        omega
      rw [hpow, ← Nat.mul_assoc] at hleast
      exact Begun.sound_of_le hleast
    · exact start_sound _ _

theorem sound_foldl (bytes : List UInt8) : (bytes.foldl step ⟨[], none⟩).Sound := by
  induction bytes using List.reverseRecOn with
  | nil =>
    intro p hp
    cases hp
  | append_singleton bytes b ih =>
    rw [List.foldl_append]
    exact ih.step b

/-! ## What a byte reads -/

/-- Whether a character is ASCII and not the null character. -/
def IsPlain (c : Char) : Prop := 0 < c.toNat ∧ c.toNat < 128

theorem toNat_ofNat_of_lt {n : Nat} (h : n < 128) : (Char.ofNat n).toNat = n := by
  have hvalid : n.isValidChar := .inl (by omega)
  rw [Char.ofNat, dif_pos hvalid]
  rfl

theorem not_isPlain_ofNat {n : Nat} (h : 128 ≤ n) : ¬ IsPlain (Char.ofNat n) := by
  unfold Char.ofNat
  split
  · rintro ⟨-, hlt⟩
    exact absurd hlt (Nat.not_lt_of_le h)
  · rintro ⟨hpos, -⟩
    exact absurd hpos (by decide)

theorem not_isPlain_replacement : ¬ IsPlain replacement := by
  rintro ⟨-, hlt⟩
  exact absurd hlt (by decide)

theorem toNat_eq_of_mem_start {read : List Char} {b : UInt8} {c : Char} (hplain : IsPlain c)
    (h : c ∈ (start read b).read) : c ∈ read ∨ c.toNat = b.toNat := by
  rcases start_cases b with ⟨hascii, hstart⟩ | hstart | ⟨q, -, hstart⟩
  · rw [hstart] at h
    rcases List.mem_cons.mp h with rfl | h
    · exact .inr (toNat_ofNat_of_lt hascii)
    · exact .inl h
  · rw [hstart] at h
    rcases List.mem_cons.mp h with rfl | h
    · exact absurd hplain not_isPlain_replacement
    · exact .inl h
  · rw [hstart] at h
    exact .inl h

/-- A plain character that a byte reads is its own. -/
theorem toNat_eq_of_mem_step {s : State} (hs : s.Sound) {b : UInt8} {c : Char}
    (hplain : IsPlain c) (h : c ∈ (step s b).read) : c ∈ s.read ∨ c.toNat = b.toNat := by
  cases hbegun : s.begun with
  | none =>
    simp only [step, hbegun] at h
    exact toNat_eq_of_mem_start hplain h
  | some p =>
    simp only [step, hbegun] at h
    split_ifs at h with hin hlast
    · rcases List.mem_cons.mp h with rfl | h
      · have hleast := (hs p hbegun).least_le hin.1 hin.2
        have hzero : p.lacks - 1 = 0 := by omega
        rw [hzero, Nat.pow_zero, Nat.mul_one] at hleast
        exact absurd hplain (not_isPlain_ofNat hleast)
      · exact .inl h
    · exact .inl h
    · rcases toNat_eq_of_mem_start hplain h with h | h
      · rcases List.mem_cons.mp h with rfl | h
        · exact absurd hplain not_isPlain_replacement
        · exact .inl h
      · exact .inr h

theorem exists_of_mem_foldl {bytes : List UInt8} {c : Char} (hplain : IsPlain c)
    (h : c ∈ (bytes.foldl step ⟨[], none⟩).read) : ∃ b ∈ bytes, c.toNat = b.toNat := by
  induction bytes using List.reverseRecOn with
  | nil => cases h
  | append_singleton bytes b ih =>
    rw [List.foldl_append] at h
    rcases toNat_eq_of_mem_step (sound_foldl bytes) hplain h with h | h
    · obtain ⟨b', hmem, heq⟩ := ih h
      exact ⟨b', List.mem_append_left _ hmem, heq⟩
    · exact ⟨b, List.mem_append_right _ (List.mem_singleton.mpr rfl), h⟩

/-- A plain character of a decoded text is that of one of its bytes. -/
theorem exists_of_mem_decode {bytes : List UInt8} {c : Char} (hplain : IsPlain c)
    (h : c ∈ decode bytes) : ∃ b ∈ bytes, c.toNat = b.toNat := by
  rw [decode, State.finish, List.mem_reverse] at h
  split_ifs at h
  · rcases List.mem_cons.mp h with rfl | h
    · exact absurd hplain not_isPlain_replacement
    · exact exists_of_mem_foldl hplain h
  · exact exists_of_mem_foldl hplain h

/-! ## Cutting at an ASCII byte -/

/-- What was read before does not matter to a byte between characters. -/
theorem start_append (read earlier : List Char) (b : UInt8) :
    start (read ++ earlier) b = ⟨(start read b).read ++ earlier, (start read b).begun⟩ := by
  rcases start_cases b with ⟨-, hstart⟩ | hstart | ⟨q, -, hstart⟩
  · rw [hstart, hstart]
    rfl
  · rw [hstart, hstart]
    rfl
  · rw [hstart, hstart]

theorem step_append (read earlier : List Char) (begun : Option Begun) (b : UInt8) :
    step ⟨read ++ earlier, begun⟩ b =
      ⟨(step ⟨read, begun⟩ b).read ++ earlier, (step ⟨read, begun⟩ b).begun⟩ := by
  cases begun with
  | none => exact start_append read earlier b
  | some p =>
    simp only [step]
    split_ifs
    · rfl
    · rfl
    · exact start_append (replacement :: read) earlier b

theorem foldl_step_append (read earlier : List Char) (begun : Option Begun)
    (bytes : List UInt8) :
    bytes.foldl step ⟨read ++ earlier, begun⟩ =
      ⟨(bytes.foldl step ⟨read, begun⟩).read ++ earlier,
        (bytes.foldl step ⟨read, begun⟩).begun⟩ := by
  induction bytes generalizing read begun with
  | nil => rfl
  | cons b bytes ih =>
    rw [List.foldl_cons, List.foldl_cons, step_append, ih]

/-- An ASCII byte finishes what was begun and is a character by itself. -/
theorem step_ascii {s : State} (hs : s.Sound) {b : UInt8} (hb : b < 0x80) :
    step s b = ⟨Char.ofNat b.toNat :: s.finish.reverse, none⟩ := by
  cases hbegun : s.begun with
  | none => simp [step, start, State.finish, hbegun, hb]
  | some p =>
    have hlow : ¬ p.low ≤ b := by
      have h80 := (hs p hbegun).low
      rw [UInt8.lt_iff_toNat_lt] at hb
      rw [UInt8.le_iff_toNat_le]
      simp only [UInt8.reduceToNat] at hb
      omega
    simp [step, start, State.finish, hbegun, hb, hlow]

theorem finish_append (read earlier : List Char) (begun : Option Begun) :
    State.finish ⟨read ++ earlier, begun⟩ = earlier.reverse ++ State.finish ⟨read, begun⟩ := by
  cases begun <;> simp [State.finish]

/-- A text may be cut at an ASCII byte before it is decoded as well as after. -/
theorem decode_append_ascii (first second : List UInt8) {b : UInt8} (hb : b < 0x80) :
    decode (first ++ b :: second) = decode first ++ Char.ofNat b.toNat :: decode second := by
  have hcut := foldl_step_append [] (Char.ofNat b.toNat :: (decode first).reverse) none second
  rw [List.nil_append] at hcut
  calc decode (first ++ b :: second)
      = (second.foldl step ⟨Char.ofNat b.toNat :: (decode first).reverse, none⟩).finish := by
        rw [decode, List.foldl_append, List.foldl_cons, step_ascii (sound_foldl first) hb]
        rfl
    _ = (Char.ofNat b.toNat :: (decode first).reverse).reverse ++ decode second := by
        rw [hcut, finish_append]
        rfl
    _ = decode first ++ Char.ofNat b.toNat :: decode second := by simp

theorem finish_step_ne_nil (s : State) (b : UInt8) : (step s b).finish ≠ [] := by
  have hstarted : ∀ read, (start read b).finish ≠ [] := by
    intro read
    rcases start_cases b with ⟨-, hstart⟩ | hstart | ⟨q, -, hstart⟩ <;>
      simp [hstart, State.finish]
  cases hbegun : s.begun with
  | none =>
    simp only [step, hbegun]
    exact hstarted _
  | some p =>
    simp only [step, hbegun]
    split_ifs
    · simp [State.finish]
    · simp [State.finish]
    · exact hstarted _

theorem decode_eq_nil_iff {bytes : List UInt8} : decode bytes = [] ↔ bytes = [] := by
  refine ⟨fun h => ?_, fun h => by rw [h]; rfl⟩
  rcases List.eq_nil_or_concat bytes with rfl | ⟨first, b, rfl⟩
  · rfl
  · rw [decode, List.concat_eq_append, List.foldl_append] at h
    exact absurd h (finish_step_ne_nil _ b)

end LiveRuns.Utf8
