import LiveRuns.Proofs.Url.Percent
import LiveRuns.Proofs.Utf8.Encode
import LiveRuns.Url.Form

/-!
Forms are read back.

A form is read by cutting it at every `&`, each part at its first `=`, and undoing the escapes of
both halves.  The names and values that are written hold none of these marks, so what is read of a
form is just its pairs, `readForm_formQuery`, and what is read of a query to which pairs have been
appended is what it had before, followed by them, `queryPairs_withPairs`.
-/

namespace LiveRuns.Url

/-! ## Reading a form -/

/-- The character that one in a form stands for before its escapes are undone. -/
def spaced (c : Char) : Char := if c = '+' then ' ' else c

/-- The text that a half of a pair stands for: plus signs are spaces, and escapes are undone. -/
def formValue (s : List Char) : String :=
  String.ofList (Utf8.decode (percentDecode (s.map spaced)))

/-- The pair in a part of a form, cut at its first equals sign. -/
def readPair (s : List Char) : String × String :=
  let name := s.takeWhile (· ≠ '=')
  (formValue name, formValue (s.drop (name.length + 1)))

/-- The pairs of a form; empty parts do not count. -/
def readForm (s : List Char) : List (String × String) :=
  ((Text.split '&' s).filter fun part => !part.isEmpty).map readPair

def queryPairs (u : Url) : List (String × String) := readForm (u.query.getD "").toList

/-! ## Values -/

/-- A byte that stays is a character that means nothing else, in a form or in a URL. -/
theorem staysInForm_cases {b : UInt8} (h : staysInForm b = true) :
    String.utf8EncodeChar (Char.ofNat b.toNat) = [b] ∧
      Char.ofNat b.toNat ∉ ['%', '+', '&', '=', '#'] := by
  have hall : ∀ n < 128, staysInForm (UInt8.ofNat n) = true →
      String.utf8EncodeChar (Char.ofNat n) = [UInt8.ofNat n] ∧
        Char.ofNat n ∉ ['%', '+', '&', '=', '#'] := by decide
  have hlow : b.toNat < 128 := by
    simp only [staysInForm, Bool.and_eq_true, decide_eq_true_eq] at h
    exact UInt8.lt_iff_toNat_lt.1 h.1
  have hb := hall b.toNat hlow
  rw [UInt8.ofNat_toNat] at hb
  exact hb h

theorem percentDecode_formByte (b : UInt8) (rest : List Char) :
    percentDecode ((formByte b).map spaced ++ rest) = b :: percentDecode rest := by
  unfold formByte
  split_ifs with hstays hspace
  · obtain ⟨hencode, hmarks⟩ := staysInForm_cases hstays
    simp only [List.mem_cons, not_or] at hmarks
    obtain ⟨hpercent, hplus, -⟩ := hmarks
    rw [List.map_singleton, spaced, if_neg hplus, List.singleton_append,
      percentDecode_cons hpercent, hencode]
    rfl
  · rw [hspace]
    show percentDecode (' ' :: rest) = 32 :: percentDecode rest
    rw [percentDecode_cons (by decide)]
    rfl
  · have hplus : '+' ∉ escapedByte b := not_mem_escapedByte (by decide) b
    have hsame : (escapedByte b).map spaced = escapedByte b := by
      refine (List.map_congr_left fun c hc => ?_).trans (List.map_id _)
      have hne : c ≠ '+' := fun heq => hplus (heq ▸ hc)
      exact if_neg hne
    rw [hsame, percentDecode_escapedByte]

theorem percentDecode_formBytes (bytes : List UInt8) :
    percentDecode ((bytes.flatMap formByte).map spaced) = bytes := by
  induction bytes with
  | nil => rfl
  | cons b bytes ih => rw [List.flatMap_cons, List.map_append, percentDecode_formByte, ih]

/-- What is written of a text stands for the text. -/
@[simp] theorem formValue_formText (s : String) : formValue (formText s) = s := by
  rw [formValue, formText, percentDecode_formBytes, Utf8.decode_encode, String.ofList_toList]

/-- None of the marks of a form, nor that of a fragment, is written in a value. -/
theorem not_mem_formText {c : Char} (h : c ∈ ['&', '=', '#']) (s : String) : c ∉ formText s := by
  have hescape : OutsideEscapes c ∧ c ≠ '+' := by
    simp only [List.mem_cons, List.not_mem_nil, or_false] at h
    rcases h with rfl | rfl | rfl <;> decide
  simp only [formText, List.mem_flatMap, not_exists, not_and]
  intro b _
  unfold formByte
  split_ifs with hstays hspace
  · rw [List.mem_singleton]
    rintro rfl
    have hmarks := (staysInForm_cases hstays).2
    simp_all
  · simpa using hescape.2
  · exact not_mem_escapedByte hescape.1 b

/-! ## Pairs -/

theorem readPair_formPair (pair : String × String) : readPair (formPair pair) = pair := by
  have hname : ∀ c ∈ formText pair.1, decide (c ≠ '=') = true := by
    intro c hc
    simp only [decide_eq_true_eq]
    rintro rfl
    exact not_mem_formText (by decide) pair.1 hc
  have htake : (formPair pair).takeWhile (· ≠ '=') = formText pair.1 := by
    rw [formPair, List.takeWhile_append_of_pos hname]
    simp
  have hdrop : (formPair pair).drop ((formText pair.1).length + 1) = formText pair.2 := by
    simp [formPair, List.drop_append]
  rw [readPair, htake, hdrop, formValue_formText, formValue_formText]

theorem formPair_ne_nil (pair : String × String) : formPair pair ≠ [] := by
  simp [formPair]

theorem not_mem_formPair {c : Char} (h : c ∈ ['&', '=', '#']) (hne : c ≠ '=')
    (pair : String × String) : c ∉ formPair pair := by
  simp [formPair, not_mem_formText h, hne]

/-! ## Forms -/

@[simp] theorem formQuery_nil : formQuery [] = [] := rfl

theorem formQuery_cons_cons (pair next : String × String) (pairs : List (String × String)) :
    formQuery (pair :: next :: pairs) = formPair pair ++ '&' :: formQuery (next :: pairs) := by
  simp [formQuery, List.intercalate]

@[simp] theorem readForm_nil : readForm [] = [] := rfl

/-- Parts of a form are read one after the other. -/
theorem readForm_append_mark (s t : List Char) :
    readForm (s ++ '&' :: t) = readForm s ++ readForm t := by
  rw [readForm, Text.split_append_mark, List.filter_append, List.map_append]
  rfl

theorem readForm_formPair (pair : String × String) : readForm (formPair pair) = [pair] := by
  have hmark : '&' ∉ formPair pair := not_mem_formPair (by decide) (by decide) pair
  have hne : (formPair pair).isEmpty = false := List.isEmpty_eq_false_iff.2 (formPair_ne_nil pair)
  rw [readForm, Text.split_of_not_mem hmark, List.filter_singleton, hne]
  simp [readPair_formPair]

/-- What is read of a form is its pairs. -/
theorem readForm_formQuery (pairs : List (String × String)) :
    readForm (formQuery pairs) = pairs := by
  induction pairs with
  | nil => rfl
  | cons pair pairs ih =>
    cases pairs with
    | nil =>
      have hone : formQuery [pair] = formPair pair := by simp [formQuery, List.intercalate]
      rw [hone, readForm_formPair]
    | cons next pairs =>
      rw [formQuery_cons_cons, readForm_append_mark, readForm_formPair, ih, List.singleton_append]

theorem hash_not_mem_formQuery (pairs : List (String × String)) : '#' ∉ formQuery pairs := by
  have hall : ∀ c ∈ formQuery pairs, c ≠ '#' := by
    refine Text.forall_mem_intercalate (by decide) (List.forall_mem_map.2 fun pair _ => ?_)
    rintro c hc rfl
    exact not_mem_formPair (by decide) (by decide) pair hc
  exact fun hmem => hall _ hmem rfl

/-- The text of a query to which pairs have been appended. -/
theorem query_withPairs (u : Url) (pairs : List (String × String)) :
    ((u.withPairs pairs).query.getD "").toList =
      if (u.query.getD "").toList = [] then formQuery pairs
      else if formQuery pairs = [] then (u.query.getD "").toList
      else (u.query.getD "").toList ++ '&' :: formQuery pairs := by
  have hgetD (s : List Char) :
      ((if s = [] then none else some (String.ofList s)).getD "").toList = s := by
    cases s <;> simp
  simp only [withPairs, List.isEmpty_iff, hgetD]

/-- Pairs that are appended to a query are read after those it has. -/
theorem queryPairs_withPairs (u : Url) (pairs : List (String × String)) :
    (u.withPairs pairs).queryPairs = u.queryPairs ++ pairs := by
  rw [queryPairs, query_withPairs, queryPairs]
  split_ifs with hold hnew
  · rw [hold, readForm_formQuery, readForm_nil, List.nil_append]
  · -- Nothing is written only if there are no pairs, because they could be read back.
    have hpairs : pairs = [] := by rw [← readForm_formQuery pairs, hnew, readForm_nil]
    rw [hpairs, List.append_nil]
  · rw [readForm_append_mark, readForm_formQuery]

end LiveRuns.Url
