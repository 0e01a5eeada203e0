import LiveRuns.Proofs.Utf8.Ascii

/-!
Text is read back from its bytes.

A character is written as one byte, or as a byte that begins a sequence followed by up to three that
continue it.  The byte that begins one says how many are to come, what the code starts with and
which byte may come next; each byte that continues it adds six bits, and the last one completes the
character, `foldl_step_tails`.  So what is read of a character is the character, whatever was read
before, and a text is read back character by character, `decode_encode`.
-/

namespace LiveRuns.Utf8

/-! ## Bytes that continue a sequence -/

/-- The last bytes of a code, which carry six bits each. -/
def tails : Nat → Nat → List UInt8
  | 0, _ => []
  | count + 1, code => UInt8.ofNat (code / 64 ^ count % 64 + 128) :: tails count code

/-- A sequence begun that lacks some bytes, has come to some code and may go on with a given
byte. -/
structure Begun.Awaits (p : Begun) (lacks code : Nat) (b : UInt8) : Prop where
  lacks_eq : p.lacks = lacks
  code_eq : p.code = code
  low_le : p.low ≤ b
  le_high : b ≤ p.high

theorem toNat_byte {n : Nat} (h : n < 256) : (UInt8.ofNat n).toNat = n :=
  UInt8.toNat_ofNat_of_lt' h

theorem toNat_tail (n : Nat) : (UInt8.ofNat (n % 64 + 128)).toNat = n % 64 + 128 :=
  toNat_byte (by omega)

/-- Any byte that continues a sequence may do so, if the range of the next one is the full one. -/
theorem awaits_full (lacks code n : Nat) :
    Begun.Awaits ⟨lacks, 0x80, 0xBF, code⟩ lacks code (UInt8.ofNat (n % 64 + 128)) := by
  refine ⟨rfl, rfl, ?_, ?_⟩ <;> rw [UInt8.le_iff_toNat_le, toNat_tail]
  · exact Nat.le_add_left 128 (n % 64)
  · show n % 64 + 128 ≤ 191
    omega

theorem Begun.Awaits.step {p : Begun} {lacks code : Nat} {b : UInt8} (h : p.Awaits lacks code b)
    (read : List Char) :
    Utf8.step ⟨read, some p⟩ b =
      if lacks ≤ 1 then ⟨Char.ofNat (code * 64 + b.toNat % 64) :: read, none⟩
      else ⟨read, some ⟨lacks - 1, 0x80, 0xBF, code * 64 + b.toNat % 64⟩⟩ := by
  simp only [Utf8.step]
  rw [if_pos ⟨h.low_le, h.le_high⟩, h.lacks_eq, h.code_eq]

theorem code_tail (code count : Nat) :
    code / 64 ^ (count + 1) * 64 + (UInt8.ofNat (code / 64 ^ count % 64 + 128)).toNat % 64 =
      code / 64 ^ count := by
  rw [toNat_tail, Nat.pow_succ, ← Nat.div_div_eq_div_mul]
  omega

/-- A sequence begun is completed by the bytes that it lacks. -/
theorem foldl_step_tails {p : Begun} {count code : Nat}
    (h : p.Awaits (count + 1) (code / 64 ^ (count + 1))
      (UInt8.ofNat (code / 64 ^ count % 64 + 128))) (read : List Char) :
    (tails (count + 1) code).foldl step ⟨read, some p⟩ = ⟨Char.ofNat code :: read, none⟩ := by
  induction count generalizing p with
  | zero =>
    rw [tails, List.foldl_cons, h.step, if_pos (Nat.le_refl 1), code_tail, Nat.pow_zero,
      Nat.div_one]
    rfl
  | succ count ih =>
    have hmore : ¬ count + 1 + 1 ≤ 1 := by omega
    rw [tails, List.foldl_cons, h.step, if_neg hmore, code_tail]
    exact ih (awaits_full (count + 1) (code / 64 ^ (count + 1)) (code / 64 ^ count))

/-! ## The byte that begins a sequence -/

/-- What a byte between characters does, by its number. -/
theorem start_byte {n : Nat} (h : n < 256) (read : List Char) :
    start read (UInt8.ofNat n) =
      if n < 0x80 then ⟨Char.ofNat n :: read, none⟩
      else if n < 0xC2 then ⟨replacement :: read, none⟩
      else if n < 0xE0 then ⟨read, some ⟨1, 0x80, 0xBF, n % 32⟩⟩
      else if n = 0xE0 then ⟨read, some ⟨2, 0xA0, 0xBF, 0⟩⟩
      else if n = 0xED then ⟨read, some ⟨2, 0x80, 0x9F, 13⟩⟩
      else if n < 0xF0 then ⟨read, some ⟨2, 0x80, 0xBF, n % 16⟩⟩
      else if n = 0xF0 then ⟨read, some ⟨3, 0x90, 0xBF, 0⟩⟩
      else if n < 0xF4 then ⟨read, some ⟨3, 0x80, 0xBF, n % 8⟩⟩
      else if n = 0xF4 then ⟨read, some ⟨3, 0x80, 0x8F, 4⟩⟩
      else ⟨replacement :: read, none⟩ := by
  simp only [start, UInt8.lt_iff_toNat_lt, ← UInt8.toNat_inj, toNat_byte h]
  rfl

theorem exists_awaits_of_two {code : Nat} (hlow : 0x80 ≤ code) (hhigh : code < 0x800) :
    ∃ p : Begun, p.Awaits 1 (code / 64) (UInt8.ofNat (code % 64 + 128)) ∧
      ∀ read, start read (UInt8.ofNat (code / 64 % 32 + 192)) = ⟨read, some p⟩ := by
  refine ⟨_, awaits_full 1 (code / 64) code, fun read => ?_⟩
  have hcode : (code / 64 % 32 + 192) % 32 = code / 64 := by omega
  rw [start_byte (by omega), if_neg (by omega), if_neg (by omega), if_pos (by omega), hcode]

theorem exists_awaits_of_three {code : Nat} (hlow : 0x800 ≤ code) (hhigh : code < 0x10000)
    (hsurrogate : code < 0xD800 ∨ 0xDFFF < code) :
    ∃ p : Begun, p.Awaits 2 (code / 4096) (UInt8.ofNat (code / 64 % 64 + 128)) ∧
      ∀ read, start read (UInt8.ofNat (code / 4096 % 16 + 224)) = ⟨read, some p⟩ := by
  have hstart := fun read => @start_byte (code / 4096 % 16 + 224) (by omega) read
  by_cases hleast : code / 4096 = 0
  · -- The second byte is not so low that two bytes would do.
    refine ⟨⟨2, 0xA0, 0xBF, 0⟩, ⟨rfl, hleast.symm, ?_, (awaits_full 2 0 _).le_high⟩, fun read => ?_⟩
    · rw [UInt8.le_iff_toNat_le, toNat_tail]
      show 160 ≤ code / 64 % 64 + 128
      omega
    · rw [hstart, if_neg (by omega), if_neg (by omega), if_neg (by omega), if_pos (by omega)]
  by_cases hbelow : code / 4096 = 13
  · -- It is not so high that the code would be a surrogate.
    refine ⟨⟨2, 0x80, 0x9F, 13⟩, ⟨rfl, hbelow.symm, (awaits_full 2 0 _).low_le, ?_⟩, fun read => ?_⟩
    · rw [UInt8.le_iff_toNat_le, toNat_tail]
      show code / 64 % 64 + 128 ≤ 159
      omega
    · rw [hstart, if_neg (by omega), if_neg (by omega), if_neg (by omega), if_neg (by omega),
        if_pos (by omega)]
  · refine ⟨_, awaits_full 2 (code / 4096) (code / 64), fun read => ?_⟩
    have hcode : (code / 4096 % 16 + 224) % 16 = code / 4096 := by omega
    rw [hstart, if_neg (by omega), if_neg (by omega), if_neg (by omega), if_neg (by omega),
      if_neg (by omega), if_pos (by omega), hcode]

theorem exists_awaits_of_four {code : Nat} (hlow : 0x10000 ≤ code) (hhigh : code < 0x110000) :
    ∃ p : Begun, p.Awaits 3 (code / 262144) (UInt8.ofNat (code / 4096 % 64 + 128)) ∧
      ∀ read, start read (UInt8.ofNat (code / 262144 % 8 + 240)) = ⟨read, some p⟩ := by
  have hstart := fun read => @start_byte (code / 262144 % 8 + 240) (by omega) read
  by_cases hleast : code / 262144 = 0
  · -- The second byte is not so low that three bytes would do.
    refine ⟨⟨3, 0x90, 0xBF, 0⟩, ⟨rfl, hleast.symm, ?_, (awaits_full 3 0 _).le_high⟩, fun read => ?_⟩
    · rw [UInt8.le_iff_toNat_le, toNat_tail]
      show 144 ≤ code / 4096 % 64 + 128
      omega
    · rw [hstart, if_neg (by omega), if_neg (by omega), if_neg (by omega), if_neg (by omega),
        if_neg (by omega), if_neg (by omega), if_pos (by omega)]
  by_cases hlast : code / 262144 = 4
  · -- It is not so high that the code would be beyond the last one.
    refine ⟨⟨3, 0x80, 0x8F, 4⟩, ⟨rfl, hlast.symm, (awaits_full 3 0 _).low_le, ?_⟩, fun read => ?_⟩
    · rw [UInt8.le_iff_toNat_le, toNat_tail]
      show code / 4096 % 64 + 128 ≤ 143
      omega
    · rw [hstart, if_neg (by omega), if_neg (by omega), if_neg (by omega), if_neg (by omega),
        if_neg (by omega), if_neg (by omega), if_neg (by omega), if_neg (by omega),
        if_pos (by omega)]
  · refine ⟨_, awaits_full 3 (code / 262144) (code / 4096), fun read => ?_⟩
    have hcode : (code / 262144 % 8 + 240) % 8 = code / 262144 := by omega
    rw [hstart, if_neg (by omega), if_neg (by omega), if_neg (by omega), if_neg (by omega),
      if_neg (by omega), if_neg (by omega), if_neg (by omega), if_pos (by omega), hcode]

/-! ## Characters and texts -/

theorem foldl_step_begun {first : UInt8} {count code : Nat}
    (h : ∃ p : Begun, p.Awaits (count + 1) (code / 64 ^ (count + 1))
      (UInt8.ofNat (code / 64 ^ count % 64 + 128)) ∧ ∀ read, start read first = ⟨read, some p⟩)
    (read : List Char) :
    (first :: tails (count + 1) code).foldl step ⟨read, none⟩ =
      ⟨Char.ofNat code :: read, none⟩ := by
  obtain ⟨p, hawaits, hstart⟩ := h
  rw [List.foldl_cons]
  show (tails (count + 1) code).foldl step (start read first) = _
  rw [hstart, foldl_step_tails hawaits]

/-- The bytes of a character are read as the character. -/
theorem foldl_step_char (c : Char) (read : List Char) :
    (String.utf8EncodeChar c).foldl step ⟨read, none⟩ = ⟨c :: read, none⟩ := by
  have hback : Char.ofNat c.val.toNat = c := Char.ofNat_toNat c
  have hvalid : c.val.toNat < 0xD800 ∨ 0xDFFF < c.val.toNat ∧ c.val.toNat < 0x110000 := c.valid
  unfold String.utf8EncodeChar
  generalize c.val.toNat = code at hback hvalid
  simp only
  split_ifs with hone htwo hthree
  · show start read (UInt8.ofNat code) = _
    rw [start_byte (by omega), if_pos (by omega), hback]
  · have hbegun := @exists_awaits_of_two code (by omega) (by omega)
    simpa [tails, hback] using @foldl_step_begun _ 0 code (by simpa using hbegun) read
  · have hbegun := @exists_awaits_of_three code (by omega) (by omega) (by omega)
    simpa [tails, hback] using @foldl_step_begun _ 1 code (by simpa using hbegun) read
  · have hbegun := @exists_awaits_of_four code (by omega) (by omega)
    simpa [tails, hback] using @foldl_step_begun _ 2 code (by simpa using hbegun) read

theorem foldl_step_encode (s : List Char) (read : List Char) :
    (encode s).foldl step ⟨read, none⟩ = ⟨s.reverse ++ read, none⟩ := by
  induction s generalizing read with
  | nil => rfl
  | cons c s ih =>
    rw [encode, List.flatMap_cons, List.foldl_append, foldl_step_char, ← encode, ih]
    simp

@[simp] theorem decode_encode (s : List Char) : decode (encode s) = s := by
  rw [decode, foldl_step_encode, State.finish]
  simp

end LiveRuns.Utf8
