import LiveRuns.Proofs.Text.Digits
import LiveRuns.Settings.Decoder

/-!
What the value of a variable is taken for.

The value of a variable that names a key is a truth value or a number where it reads as one, before it
is known what the key wants.  Where the key wants a text, this is written out again, `said`.  So the
text is kept just if it does not read as something that is written otherwise, `said_eq_self_iff`; a
text is kept that does not begin like a number, unless it is a word for a truth value or for a number,
`said_of_isWord`.
-/

namespace LiveRuns

/-! ## Texts that begin like no number -/

namespace Decimal

variable {c : Char} {rest : List Char}

theorem integer?_cons (h : c.isDigit = false) (hminus : c ≠ '-') (hplus : c ≠ '+') :
    integer? 10 (c :: rest) = none := by
  have hnatural : naturalIn? 10 (c :: rest) = none := by
    rw [naturalIn?, if_neg (by simp), List.foldlM_cons, Text.digit?_eq_none h]
    rfl
  unfold integer?
  split
  · next heq => exact absurd (List.cons.inj heq).1 hminus
  · next heq => exact absurd (List.cons.inj heq).1 hplus
  · rw [hnatural]
    rfl

def words : List (List Char) := ["inf".toList, "infinity".toList, "nan".toList]

theorem parse?_cons (h : c.isDigit = false) (hminus : c ≠ '-') (hplus : c ≠ '+') (hpoint : c ≠ '.')
    (hword : (c :: rest).map Char.toLower ∉ words) : parse? (c :: rest) = none := by
  have hunsigned : unsigned? (c :: rest) = none := by
    simp only [words, List.mem_cons, List.not_mem_nil, or_false, not_or] at hword
    obtain ⟨hinf, hinfinity, hnan⟩ := hword
    have hwhole : (c :: rest).takeWhile Char.isDigit = [] := by simp [h]
    rw [unsigned?, if_neg (not_or.2 ⟨hinf, hinfinity⟩), if_neg hnan, hwhole]
    simp only [List.length_nil, List.drop_zero]
    split
    · next heq => exact absurd (List.cons.inj heq).1 hpoint
    · rfl
  unfold parse?
  split
  · next heq => exact absurd (List.cons.inj heq).1 hminus
  · next heq => exact absurd (List.cons.inj heq).1 hplus
  · exact hunsigned

end Decimal

/-! ## What a variable says -/

namespace Settings.Environment

/-- The text that the value of a variable stands for. -/
def said (text : String) : String :=
  match valueOf text with
  | .nothing => ""
  | .bool value => if value then "true" else "false"
  | .integer i => toString i
  | .float bits => String.ofList (Decimal.positional bits)
  | .text value => value

theorem valueOf_ne_nothing (text : String) : valueOf text ≠ .nothing := by
  simp only [valueOf]
  split_ifs
  · exact nofun
  · exact nofun
  · split
    · exact nofun
    · split <;> exact nofun

theorem eq_of_valueOf {text value : String} (h : valueOf text = .text value) : value = text := by
  simp only [valueOf] at h
  split_ifs at h
  split at h
  · cases h
  · split at h <;> cases h
    rfl

theorem optionalText_valueOf (key : String) (origin : Option String) (text : String) :
    Place.optionalText ⟨key, .leaf origin (valueOf text)⟩ = .ok (some (said text)) := by
  rw [said]
  cases hvalue : valueOf text with
  | nothing => exact absurd hvalue (valueOf_ne_nothing text)
  | _ => rfl

/-- A variable stands for its own text, unless it reads as a truth value or as a number that is
written otherwise. -/
theorem said_eq_self_iff (text : String) :
    said text = text ↔
      (∀ b, valueOf text = .bool b → text = if b then "true" else "false") ∧
        (∀ i, valueOf text = .integer i → text = toString i) ∧
          ∀ bits, valueOf text = .float bits → text = String.ofList (Decimal.positional bits) := by
  rw [said]
  cases hvalue : valueOf text with
  | nothing => exact absurd hvalue (valueOf_ne_nothing text)
  | text value => simp [eq_of_valueOf hvalue]
  | _ => simp [eq_comm]

/-- A text that does not begin like a number and is no word for a truth value or for a number. -/
structure IsWord (text : String) : Prop where
  begins : ∀ c ∈ text.toList.head?, c.isDigit = false ∧ c ∉ ['-', '+', '.']
  truth : Unicode.lower text.toList ∉ ["true".toList, "false".toList]
  number : text.toList.map Char.toLower ∉ Decimal.words

theorem said_of_isWord {text : String} (h : IsWord text) : said text = text := by
  obtain ⟨begins, truth, number⟩ := h
  simp only [List.mem_cons, List.not_mem_nil, or_false, not_or] at truth
  have hread : Decimal.integer? 10 text.toList = none ∧ Decimal.parse? text.toList = none := by
    cases htext : text.toList with
    | nil => exact ⟨rfl, rfl⟩
    | cons c rest =>
      rw [htext] at begins number
      obtain ⟨hdigit, hmark⟩ := begins c rfl
      simp only [List.mem_cons, List.not_mem_nil, or_false, not_or] at hmark
      obtain ⟨hminus, hplus, hpoint⟩ := hmark
      exact ⟨Decimal.integer?_cons hdigit hminus hplus,
        Decimal.parse?_cons hdigit hminus hplus hpoint number⟩
  have hvalue : valueOf text = .text text := by
    simp only [valueOf]
    rw [if_neg truth.1, if_neg truth.2, hread.1, hread.2]
  rw [said, hvalue]

end Settings.Environment

end LiveRuns
