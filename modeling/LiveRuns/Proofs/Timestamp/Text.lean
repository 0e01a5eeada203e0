import LiveRuns.Timestamp.Parser
import LiveRuns.Timestamp.Printer
import LiveRuns.Proofs.Except
import LiveRuns.Proofs.Text.Digits
import Mathlib

/-!
The text of an instant is read back.

`ofText_text` holds of every instant: of years with a sign and years without one, of leap seconds,
and of fractions with no, three, six or nine digits.  The text to the millisecond is read back as
the start of that millisecond, `ofText_milliText`.  The parts of the text are read one after the
other; each part has a lemma that says which text it takes and that it leaves the rest.
-/

namespace LiveRuns.Timestamp

open LiveRuns.Text

/-! ## Numbers of fixed width -/

theorem isDigit_of_mem_padded {width n : Nat} {c : Char} (h : c ∈ padded width n) :
    c.isDigit = true := by
  obtain zero | digit := List.mem_append.1 h
  · rw [List.eq_of_mem_replicate zero]
    rfl
  · exact isDigit_of_mem_toDigits digit

theorem decimalValue_padded (width n : Nat) : decimalValue (padded width n) = n := by
  rw [padded, decimalValue_replicate_append, decimalValue_toDigits]

theorem length_padded {width n : Nat} (pos : 0 < width) (h : n < 10 ^ width) :
    (padded width n).length = width := by
  have := (Nat.length_toDigits_le_iff (by decide) pos).2 h
  rw [padded, List.length_append, List.length_replicate]
  omega

theorem padded_ne_nil (width n : Nat) : padded width n ≠ [] :=
  List.append_ne_nil_of_right_ne_nil _ Nat.toDigits_ne_nil

theorem isBlank_of_isDigit {c : Char} (h : c.isDigit = true) : Unicode.isBlank c = false := by
  have low : 48 ≤ c.toNat := by simp [Char.isDigit] at h; exact h.1
  have high : c.toNat ≤ 57 := by simp [Char.isDigit] at h; exact h.2
  simp [Unicode.isBlank, Unicode.inRanges, Unicode.blanks]
  omega

theorem skipBlanks_cons {c : Char} {rest : List Char} (h : Unicode.isBlank c = false) :
    skipBlanks (c :: rest) = c :: rest := by
  simp [skipBlanks, h]

theorem skipBlanks_padded (width n : Nat) (rest : List Char) :
    skipBlanks (padded width n ++ rest) = padded width n ++ rest := by
  obtain ⟨c, more, h⟩ := List.exists_cons_of_ne_nil (padded_ne_nil width n)
  have digit : c.isDigit = true := isDigit_of_mem_padded (h ▸ List.mem_cons_self ..)
  rw [h, List.cons_append, skipBlanks_cons (isBlank_of_isDigit digit)]

/-! ## Reading a number -/

theorem readNumber_fixed {width n : Nat} (pos : 0 < width) (h : n < 10 ^ width)
    (rest : List Char) : readNumber (some width) (padded width n ++ rest) = .ok (n, rest) := by
  have digits : (padded width n).takeWhile Char.isDigit = padded width n :=
    List.takeWhile_eq_self_iff.2 fun c => isDigit_of_mem_padded
  have front : (padded width n ++ rest).take width = padded width n :=
    List.take_left' (length_padded pos h)
  simp [readNumber, front, digits, padded_ne_nil, decimalValue_padded]

theorem readNumber_free (width n : Nat) {rest : List Char} (h : NoDigitNext rest) :
    readNumber none (padded width n ++ rest) = .ok (n, rest) := by
  have digits : (padded width n ++ rest).takeWhile Char.isDigit = padded width n :=
    takeWhile_isDigit_append (fun c => isDigit_of_mem_padded) h
  simp [readNumber, digits, padded_ne_nil, decimalValue_padded]

theorem readField_padded {least greatest n : Nat} (low : least ≤ n) (high : n ≤ greatest)
    (two : greatest < 100) (rest : List Char) :
    readField least greatest (padded 2 n ++ rest) = .ok (n, rest) := by
  rw [readField, skipBlanks_padded, readNumber_fixed (by decide) (by omega)]
  exact if_pos ⟨low, high⟩

theorem readMark_skipBlanks {mark : Char} (h : Unicode.isBlank mark = false) (rest : List Char) :
    readMark mark (skipBlanks (mark :: rest)) = .ok rest := by
  simp [skipBlanks_cons h, readMark]

/-! ## The parts of an instant -/

theorem readYear_yearText {year : Int} (low : minYear ≤ year) (high : year ≤ maxYear)
    {rest : List Char} (h : NoDigitNext rest) :
    readYear (yearText year ++ rest) = .ok (year, rest) := by
  have range : -0x80000000 ≤ year ∧ year < 0x80000000 := by
    unfold minYear at low
    unfold maxYear at high
    omega
  have signed := readNumber_free 4 year.natAbs h
  unfold readYear yearText
  split_ifs with negative large
  · have value : -(year.natAbs : Int) = year := by omega
    rw [List.append_assoc, List.cons_append, skipBlanks_cons rfl]
    refine bind_eq_ok.2 ⟨_, signed, bind_eq_ok.2 ⟨_, rfl, ?_⟩⟩
    rw [value]
    exact if_pos range
  · have value : (year.natAbs : Int) = year := by omega
    rw [List.append_assoc, List.cons_append, skipBlanks_cons rfl]
    refine bind_eq_ok.2 ⟨_, signed, bind_eq_ok.2 ⟨_, rfl, ?_⟩⟩
    rw [value]
    exact if_pos range
  · have value : (year.natAbs : Int) = year := by omega
    have plain : readNumber (some 4) (padded 4 year.natAbs ++ rest) = .ok (year.natAbs, rest) :=
      readNumber_fixed (by decide) (by omega) rest
    -- the first character is a digit, and so no sign
    obtain ⟨c, more, start⟩ := List.exists_cons_of_ne_nil (padded_ne_nil 4 year.natAbs)
    have digit : c.isDigit = true := isDigit_of_mem_padded (start ▸ List.mem_cons_self ..)
    rw [List.nil_append, skipBlanks_padded]
    rw [start, List.cons_append] at plain ⊢
    split
    · rename_i eq; cases eq; exact absurd digit (by decide)
    · rename_i eq; cases eq; exact absurd digit (by decide)
    · refine bind_eq_ok.2 ⟨_, plain, bind_eq_ok.2 ⟨_, rfl, ?_⟩⟩
      rw [value]
      exact if_pos range

/-- The digits that are written for a fraction have its value in nanoseconds. -/
theorem readFraction_padded {width n : Nat} (pos : 0 < width) (nine : width ≤ 9)
    (h : n < 10 ^ width) (rest : List Char) :
    readFraction ('.' :: (padded width n ++ 'Z' :: rest)) =
      .ok (n * 10 ^ (9 - width), 'Z' :: rest) := by
  have length := length_padded pos h
  have digits : (padded width n ++ 'Z' :: rest).takeWhile Char.isDigit = padded width n :=
    takeWhile_isDigit_append (fun c => isDigit_of_mem_padded) (noDigitNext_cons rfl)
  have kept : (padded width n).take 9 = padded width n := List.take_of_length_le (by omega)
  have left : (padded width n ++ 'Z' :: rest).drop (padded width n).length = 'Z' :: rest :=
    List.drop_left' rfl
  simp only [readFraction, digits, kept, left, decimalValue_padded]
  rw [length, List.isEmpty_eq_false_iff.2 (padded_ne_nil width n)]
  rfl

theorem readFraction_fractionText {nanosecond : Nat} (h : nanosecond < 1000000000)
    (rest : List Char) :
    readFraction (fractionText nanosecond ++ 'Z' :: rest) = .ok (nanosecond, 'Z' :: rest) := by
  unfold fractionText
  split_ifs with none milli micro
  · rw [none]
    rfl
  · rw [List.cons_append, readFraction_padded (by decide) (by decide) (by omega)]
    congr 2
    omega
  · rw [List.cons_append, readFraction_padded (by decide) (by decide) (by omega)]
    congr 2
    omega
  · rw [List.cons_append, readFraction_padded (by decide) (by decide) (by omega)]
    congr 2
    omega

/-- At an offset of zero the clock shows the instant itself. -/
theorem ofLocal_zero (date : Date) (time : TimeOfDay) :
    ofLocal date time 0 = .ok ⟨date, time⟩ := by
  obtain ⟨h, m, -, -⟩ := time.isTime
  have hours : (time.hour * 60 + time.minute) / 60 = time.hour := by omega
  have minutes : (time.hour * 60 + time.minute) % 60 = time.minute := by omega
  have same : time.atMinute? (time.hour * 60 + time.minute) = some time := by
    rw [TimeOfDay.atMinute?, hours, minutes]
    exact dif_pos time.isTime
  have minute : ((time.hour : Int) * 60 + time.minute - 0).toNat = time.hour * 60 + time.minute := by
    omega
  unfold ofLocal
  rw [if_neg (by decide)]
  simp only
  rw [if_neg (by omega), if_neg (by omega)]
  simp only [minute, same]

theorem daysInMonth_le (year : Int) (month : Nat) : daysInMonth year month ≤ 31 := by
  unfold daysInMonth
  split_ifs <;> decide

/-- An instant is read from any text of its fraction that is read as its nanoseconds. -/
theorem ofChars_charsWith (t : Timestamp) {fraction : List Char}
    (h : ∀ rest, readFraction (fraction ++ 'Z' :: rest) =
      .ok (t.time.nanosecond, 'Z' :: rest)) :
    ofChars (t.charsWith fraction) = .ok t := by
  obtain ⟨date, time⟩ := t
  obtain ⟨yearLow, yearHigh, monthLow, monthHigh, dayLow, dayHigh⟩ := date.isDate
  obtain ⟨hour, minute, second, -⟩ := time.isTime
  have days := daysInMonth_le date.year date.month
  replace hour : time.hour ≤ 23 := Nat.le_of_lt_succ hour
  replace minute : time.minute ≤ 59 := Nat.le_of_lt_succ minute
  simp only [charsWith, List.append_assoc, List.cons_append]
  unfold ofChars
  refine bind_eq_ok.2 ⟨_, readYear_yearText yearLow yearHigh (noDigitNext_cons rfl), ?_⟩
  refine bind_eq_ok.2 ⟨_, readMark_skipBlanks rfl _, ?_⟩
  refine bind_eq_ok.2 ⟨_, readField_padded monthLow monthHigh (by decide) _, ?_⟩
  refine bind_eq_ok.2 ⟨_, readMark_skipBlanks rfl _, ?_⟩
  refine bind_eq_ok.2 ⟨_, readField_padded dayLow (dayHigh.trans days) (by decide) _, ?_⟩
  refine bind_eq_ok.2 ⟨_, rfl, ?_⟩
  refine bind_eq_ok.2 ⟨_, readField_padded (Nat.zero_le _) hour (by decide) _, ?_⟩
  refine bind_eq_ok.2 ⟨_, readMark_skipBlanks rfl _, ?_⟩
  refine bind_eq_ok.2 ⟨_, readField_padded (Nat.zero_le _) minute (by decide) _, ?_⟩
  refine bind_eq_ok.2 ⟨_, readMark_skipBlanks rfl _, ?_⟩
  refine bind_eq_ok.2 ⟨_, readField_padded (Nat.zero_le _) second (by decide) _, ?_⟩
  refine bind_eq_ok.2 ⟨_, h _, ?_⟩
  refine bind_eq_ok.2 ⟨(0, []), rfl, ?_⟩
  refine bind_eq_ok.2 ⟨date, ?_, ?_⟩
  · rw [Date.ofFields?, dif_pos date.isDate]
    rfl
  refine bind_eq_ok.2 ⟨time, ?_, ofLocal_zero date time⟩
  rw [TimeOfDay.ofFields?, dif_pos time.isTime]
  rfl

/-- The exact text of an instant is read as that instant. -/
theorem ofText_text (t : Timestamp) : ofText t.text = .ok t := by
  rw [ofText, text, String.toList_ofList]
  exact ofChars_charsWith t (readFraction_fractionText t.time.isTime.2.2.2)

/-! ## Milliseconds -/

/-- The instant at which the millisecond of an instant began. -/
def toMilli (t : Timestamp) : Timestamp where
  date := t.date
  time :=
    { t.time with
      nanosecond := t.time.nanosecond / 1000000 * 1000000
      isTime := by
        obtain ⟨hour, minute, second, nanosecond⟩ := t.time.isTime
        exact ⟨hour, minute, second, by omega⟩ }

/-- What is written of an instant to the millisecond is read as the start of its millisecond. -/
theorem ofText_milliText (t : Timestamp) : ofText t.milliText = .ok t.toMilli := by
  have nanosecond := t.time.isTime.2.2.2
  rw [ofText, milliText, String.toList_ofList]
  -- the text is also that of the start of the millisecond, which differs in its fraction only
  refine ofChars_charsWith t.toMilli fun rest => ?_
  rw [List.cons_append, readFraction_padded (by decide) (by decide) (by omega)]
  rfl

end LiveRuns.Timestamp
