import LiveRuns.Json.Value
import LiveRuns.Proofs.Text.Digits

/-!
The grammar of JSON texts.

`Tree.Spelt t s` says that `s` is a text of the value `t`, token by token and without regard to how
texts are read.  Blanks stand around the items of a list and around the parts of a member only, so
an `Item` and a `Member` carry theirs with them, and what stands between two brackets is `Joined`
from such parts by commas.  One value has many texts, and a text says neither that its numbers are
in range nor that its surrogates come in pairs.

The main statement is `Tree.Spelt.reads`: whatever follows, the reader takes exactly the text of a
value and gives its tree.
-/

namespace LiveRuns.Json

open LiveRuns.Text

/-! ## Tokens -/

def Blanks (s : List Char) : Prop := ∀ c ∈ s, isBlank c = true

def IsDigits (s : List Char) : Prop := s ≠ [] ∧ ∀ c ∈ s, c.isDigit = true

/-- What may follow the text of a value: nothing, a blank, a comma or a closing bracket. -/
def Ends (rest : List Char) : Prop :=
  ∀ c ∈ rest.head?, isBlank c = true ∨ c = ',' ∨ c = ']' ∨ c = '}'

namespace NumberText

def FractionSpelt : Option (List Char) → List Char → Prop
  | none, s => s = []
  | some digits, s => IsDigits digits ∧ s = '.' :: digits

def ExponentSpelt : Option (Bool × List Char) → List Char → Prop
  | none, s => s = []
  | some (minus, digits), s =>
    IsDigits digits ∧ ∃ mark sign, (mark = 'e' ∨ mark = 'E') ∧
      (if minus then sign = ['-'] else sign = [] ∨ sign = ['+']) ∧ s = mark :: (sign ++ digits)

/-- A text of a number: a sign, digits without a zero in front of others, and after them a fraction
and an exponent, either of which may be missing. -/
inductive Spelt : NumberText → List Char → Prop where
  | intro {negative : Bool} {whole : List Char} {fraction : Option (List Char)}
      {exponent : Option (Bool × List Char)} {f e : List Char} (digits : IsDigits whole)
      (zero : ∀ more, whole = '0' :: more → more = []) (fracted : FractionSpelt fraction f)
      (scaled : ExponentSpelt exponent e) :
      Spelt ⟨negative, whole, fraction, exponent⟩
        ((if negative then ['-'] else []) ++ (whole ++ (f ++ e)))

end NumberText

inductive Piece.Spelt : Piece → List Char → Prop where
  | plain {c : Char} (quote : c ≠ '"') (slash : c ≠ '\\') (control : ¬ c < ' ') :
      Spelt (.char c) [c]
  | short {letter c : Char} (escape : shortEscape? letter = some c) : Spelt (.char c) ['\\', letter]
  | unit {a b c d : Char} {code : Nat} (digits : hexUnit? a b c d = some code) :
      Spelt (.unit code) ['\\', 'u', a, b, c, d]

inductive PiecesSpelt : List Piece → List Char → Prop where
  | nil : PiecesSpelt [] []
  | cons {p : Piece} {ps : List Piece} {s t : List Char} (first : p.Spelt s)
      (others : PiecesSpelt ps t) : PiecesSpelt (p :: ps) (s ++ t)

def Literal.Spelt (l : Literal) (s : List Char) : Prop :=
  l.ending = .closed ∧ PiecesSpelt l.pieces s

/-! ## Values -/

/-- A value as it stands in a list or behind a key: its text, the blanks around it, and what the
text means. -/
structure Item where
  front : List Char
  text : List Char
  back : List Char
  tree : Tree

def Item.chars (i : Item) : List Char := i.front ++ (i.text ++ i.back)

/-- A member of an object as it is written: its name between quotes, a colon and its value. -/
structure Member where
  front : List Char
  name : List Char
  gap : List Char
  key : Literal
  value : Item

def Member.chars (m : Member) : List Char :=
  m.front ++ '"' :: (m.name ++ '"' :: (m.gap ++ ':' :: m.value.chars))

def Member.entry (m : Member) : Literal × Tree := (m.key, m.value.tree)

/-- Parts with commas between them; where there is no part there may still be blanks. -/
def Joined : List (List Char) → List Char → Prop
  | [], s => Blanks s
  | part :: parts, s => s = part ++ parts.flatMap (',' :: ·)

/-- A text of a value, without blanks around it. -/
inductive Tree.Spelt : Tree → List Char → Prop where
  | null : Spelt .null ['n', 'u', 'l', 'l']
  | bool (b : Bool) :
      Spelt (.bool b) (if b then ['t', 'r', 'u', 'e'] else ['f', 'a', 'l', 's', 'e'])
  | number {n : NumberText} {s : List Char} (h : n.Spelt s) : Spelt (.number n) s
  | text {l : Literal} {s : List Char} (h : l.Spelt s) : Spelt (.text l) ('"' :: (s ++ ['"']))
  | list {items : List Item} {s : List Char} (joined : Joined (items.map Item.chars) s)
      (blank : ∀ i ∈ items, Blanks i.front ∧ Blanks i.back)
      (spelt : ∀ i ∈ items, Spelt i.tree i.text) :
      Spelt (.list (items.map Item.tree) .closed) ('[' :: (s ++ [']']))
  | object {members : List Member} {s : List Char} (joined : Joined (members.map Member.chars) s)
      (blank : ∀ m ∈ members,
        Blanks m.front ∧ Blanks m.gap ∧ Blanks m.value.front ∧ Blanks m.value.back)
      (key : ∀ m ∈ members, m.key.Spelt m.name)
      (spelt : ∀ m ∈ members, Spelt m.value.tree m.value.text) :
      Spelt (.object (members.map Member.entry) .closed) ('{' :: (s ++ ['}']))

structure Item.Sound (i : Item) : Prop where
  front : Blanks i.front
  spelt : i.tree.Spelt i.text
  back : Blanks i.back

structure Member.Sound (m : Member) : Prop where
  front : Blanks m.front
  key : m.key.Spelt m.name
  gap : Blanks m.gap
  value : m.value.Sound

/-! ## Tokens are read -/

theorem Ends.noDigitNext {rest : List Char} (h : Ends rest) : NoDigitNext rest := by
  intro c hc
  have hblank : isBlank c = true → c.isDigit = false := by
    intro hb
    simp only [isBlank, Bool.or_eq_true, decide_eq_true_eq] at hb
    rcases hb with ((rfl | rfl) | rfl) | rfl <;> rfl
  rcases h c hc with hb | rfl | rfl | rfl
  · exact hblank hb
  all_goals rfl

theorem ends_nil : Ends [] := by
  rintro _ ⟨⟩

theorem ends_cons {c : Char} {rest : List Char}
    (h : isBlank c = true ∨ c = ',' ∨ c = ']' ∨ c = '}') : Ends (c :: rest) := by
  rintro _ ⟨⟩
  exact h

theorem Ends.append {b rest : List Char} (hb : Blanks b) (hr : Ends rest) : Ends (b ++ rest) := by
  cases b with
  | nil => exact hr
  | cons c b => exact ends_cons (.inl (hb c List.mem_cons_self))

/-- A mark that is no blank, no comma and no closing bracket does not follow a value. -/
theorem Ends.ne {c mark : Char} {rest : List Char} (h : Ends (c :: rest))
    (hmark : isBlank mark = false ∧ mark ≠ ',' ∧ mark ≠ ']' ∧ mark ≠ '}') : c ≠ mark := by
  rintro rfl
  obtain ⟨hb, h1, h2, h3⟩ := hmark
  rcases h c rfl with h | h | h | h
  · rw [hb] at h
    exact absurd h (by decide)
  · exact h1 h
  · exact h2 h
  · exact h3 h

theorem skipBlanks_append {b : List Char} (hb : Blanks b) (s : List Char) :
    skipBlanks (b ++ s) = skipBlanks s :=
  List.dropWhile_append_of_pos hb

theorem skipBlanks_append_cons {b : List Char} (hb : Blanks b) {c : Char}
    (hc : isBlank c = false) (s : List Char) : skipBlanks (b ++ c :: s) = c :: s := by
  rw [skipBlanks_append hb]
  simp [skipBlanks, hc]

namespace NumberText

theorem scanExponent_spelt {n : NumberText} {exponent : Option (Bool × List Char)}
    {e rest : List Char} (he : ExponentSpelt exponent e) (hr : Ends rest) (hn : n.exponent = none) :
    n.scanExponent (e ++ rest) = (.ok { n with exponent }, rest) := by
  cases exponent with
  | none =>
    obtain rfl : e = [] := he
    have hsame : { n with exponent := none } = n := by
      cases n
      cases hn
      rfl
    rw [hsame, List.nil_append]
    cases rest with
    | nil => rfl
    | cons c rest =>
      have h1 : c ≠ 'e' := hr.ne (by decide)
      have h2 : c ≠ 'E' := hr.ne (by decide)
      simp [scanExponent, h1, h2]
  | some exponent =>
    obtain ⟨minus, digits⟩ := exponent
    obtain ⟨⟨hne, hd⟩, mark, sign, hmark, hsign, rfl⟩ := he
    have htake := takeWhile_isDigit_append hd hr.noDigitNext
    have hdrop := dropWhile_isDigit_append hd hr.noDigitNext
    obtain ⟨d, ds, rfl⟩ := List.exists_cons_of_ne_nil hne
    have hdigit : d.isDigit = true := hd d List.mem_cons_self
    have hminus : d ≠ '-' := by
      rintro rfl
      exact absurd hdigit (by decide)
    have hplus : d ≠ '+' := by
      rintro rfl
      exact absurd hdigit (by decide)
    have hsigned (minus : Bool) (sign : List Char)
        (hsign : if minus then sign = ['-'] else sign = [] ∨ sign = ['+']) :
        n.scanExponent (mark :: (sign ++ (d :: (ds ++ rest)))) =
          (.ok { n with exponent := some (minus, d :: ds) }, rest) := by
      unfold scanExponent
      simp only [if_pos hmark]
      cases minus with
      | true =>
        obtain rfl : sign = ['-'] := hsign
        simp only [List.cons_append, List.nil_append] at htake hdrop ⊢
        simp [htake, hdrop]
      | false =>
        rcases hsign with rfl | rfl
        · -- Without a sign the digits come next, and the first of them is none.
          simp only [List.cons_append, List.nil_append] at htake hdrop ⊢
          split <;> simp_all
        · simp only [List.cons_append, List.nil_append] at htake hdrop ⊢
          simp [htake, hdrop]
    have h := hsigned minus sign hsign
    simpa using h

theorem noDigitNext_exponent {exponent : Option (Bool × List Char)} {e rest : List Char}
    (he : ExponentSpelt exponent e) (hr : Ends rest) : NoDigitNext (e ++ rest) := by
  cases exponent with
  | none =>
    obtain rfl : e = [] := he
    exact hr.noDigitNext
  | some exponent =>
    obtain ⟨-, mark, sign, hmark, -, rfl⟩ := he
    rcases hmark with rfl | rfl <;> exact noDigitNext_cons rfl

theorem scanFraction_spelt {n : NumberText} {fraction : Option (List Char)}
    {exponent : Option (Bool × List Char)} {f e rest : List Char} (hf : FractionSpelt fraction f)
    (he : ExponentSpelt exponent e) (hr : Ends rest) (hn : n.fraction = none)
    (hn' : n.exponent = none) :
    n.scanFraction (f ++ (e ++ rest)) = (.ok { n with fraction, exponent }, rest) := by
  cases fraction with
  | none =>
    obtain rfl : f = [] := hf
    have hsame : { n with fraction := none, exponent } = { n with exponent } := by
      cases n
      cases hn
      rfl
    rw [hsame, List.nil_append, ← scanExponent_spelt he hr hn', scanFraction]
    -- No point follows, neither before an exponent nor at the end of the number.
    rintro more heq
    cases exponent with
    | none =>
      obtain rfl : e = [] := he
      obtain rfl : rest = '.' :: more := heq
      have hpoint : '.' ≠ '.' := hr.ne (by decide)
      exact hpoint rfl
    | some exponent =>
      obtain ⟨-, mark, sign, hmark, -, rfl⟩ := he
      obtain rfl : mark = '.' := (List.cons.inj heq).1
      exact absurd hmark (by decide)
  | some digits =>
    obtain ⟨⟨hne, hd⟩, rfl⟩ := hf
    have hnext := noDigitNext_exponent he hr
    have htake := takeWhile_isDigit_append hd hnext
    have hdrop := dropWhile_isDigit_append hd hnext
    have hempty : digits.isEmpty = false := by simpa using hne
    rw [List.cons_append, scanFraction]
    simp only [htake, hdrop, hempty, Bool.false_eq_true, if_false]
    exact scanExponent_spelt he hr hn'

theorem noDigitNext_fraction {fraction : Option (List Char)} {f s : List Char}
    (hf : FractionSpelt fraction f) (hs : NoDigitNext s) : NoDigitNext (f ++ s) := by
  cases fraction with
  | none =>
    obtain rfl : f = [] := hf
    exact hs
  | some digits =>
    obtain ⟨-, rfl⟩ := hf
    exact noDigitNext_cons rfl

/-- A number is scanned to its end. -/
theorem Spelt.scan {n : NumberText} {s rest : List Char} (h : n.Spelt s) (hr : Ends rest) :
    NumberText.scan (s ++ rest) = (.ok n, rest) := by
  cases h with
  | @intro negative whole fraction exponent f e digits zero fracted scaled =>
    obtain ⟨hne, hd⟩ := digits
    have hnext := noDigitNext_fraction fracted (noDigitNext_exponent scaled hr)
    have htake := takeWhile_isDigit_append hd hnext
    have hdrop := dropWhile_isDigit_append hd hnext
    have hrest := scanFraction_spelt (n := ⟨negative, whole, none, none⟩) fracted scaled hr rfl rfl
    obtain ⟨c, more, rfl⟩ := List.exists_cons_of_ne_nil hne
    have hdigit : c.isDigit = true := hd c List.mem_cons_self
    have hminus : c ≠ '-' := by
      rintro rfl
      exact absurd hdigit (by decide)
    have hwhole (front : List Char) : front ++ ((c :: more) ++ (f ++ e)) ++ rest =
        front ++ ((c :: more) ++ (f ++ (e ++ rest))) := by
      simp only [List.append_assoc]
    have halone : c = '0' → more = [] := fun hc => zero more (hc ▸ rfl)
    rw [hwhole]
    cases negative with
    | true =>
      simp only [if_true, List.cons_append, List.nil_append] at htake hdrop ⊢
      unfold NumberText.scan
      simp only [htake, hdrop]
      split <;> simp_all
    | false =>
      simp only [Bool.false_eq_true, if_false, List.cons_append, List.nil_append] at htake hdrop ⊢
      unfold NumberText.scan
      split
      rename_i first
      split at first
      · simp_all
      · cases first
        simp only [htake, hdrop]
        split <;> simp_all

theorem Spelt.eq_cons {n : NumberText} {s : List Char} (h : n.Spelt s) :
    ∃ c more, s = c :: more ∧ (c = '-' ∨ c.isDigit = true) := by
  cases h with
  | @intro negative whole fraction exponent f e digits zero fracted scaled =>
    obtain ⟨hne, hd⟩ := digits
    obtain ⟨c, more, rfl⟩ := List.exists_cons_of_ne_nil hne
    cases negative with
    | true => exact ⟨'-', _, rfl, .inl rfl⟩
    | false => exact ⟨c, _, rfl, .inr (hd c List.mem_cons_self)⟩

end NumberText

theorem Literal.scan_plain {seen : List Piece} {c : Char} {rest : List Char} (hq : c ≠ '"')
    (hb : c ≠ '\\') (hc : ¬ c < ' ') :
    scan seen (c :: rest) = scan (.char c :: seen) rest := by
  rw [scan, if_neg hc]
  all_goals simp_all

theorem ne_u_of_shortEscape? {letter c : Char} (h : shortEscape? letter = some c) :
    letter ≠ 'u' := by
  rintro rfl
  cases h

theorem Piece.Spelt.scan {p : Piece} {s : List Char} (h : p.Spelt s) (seen : List Piece)
    (rest : List Char) : Literal.scan seen (s ++ rest) = Literal.scan (p :: seen) rest := by
  cases h with
  | plain quote slash control => exact Literal.scan_plain quote slash control
  | @short letter c escape =>
    have hu := ne_u_of_shortEscape? escape
    show Literal.scan seen ('\\' :: letter :: rest) = _
    rw [Literal.scan.eq_def]
    simp_all
  | unit digits =>
    show Literal.scan seen ('\\' :: 'u' :: _ :: _ :: _ :: _ :: rest) = _
    rw [Literal.scan]
    simp only [digits]

theorem PiecesSpelt.scan {ps : List Piece} {s : List Char} (h : PiecesSpelt ps s)
    (seen : List Piece) (rest : List Char) :
    Literal.scan seen (s ++ '"' :: rest) = (⟨seen.reverse ++ ps, .closed⟩, rest) := by
  induction h generalizing seen with
  | nil => simp [Literal.scan]
  | cons first others ih =>
    rw [List.append_assoc, first.scan, ih]
    simp

/-- A literal is scanned up to its closing quote. -/
theorem Literal.Spelt.scan {l : Literal} {s : List Char} (h : l.Spelt s) (rest : List Char) :
    Literal.scan [] (s ++ '"' :: rest) = (l, rest) := by
  obtain ⟨hending, hpieces⟩ := h
  rw [hpieces.scan]
  cases l
  cases hending
  rfl

/-! ## Values are read -/

namespace Tree

theorem skipBlanks_cons {c : Char} {s : List Char} (h : isBlank c = false) :
    skipBlanks (c :: s) = c :: s := by
  simp [skipBlanks, h]

theorem readValue_blanks {b : List Char} (hb : Blanks b) (fuel : Nat) (s : List Char) :
    readValue (fuel + 1) (b ++ s) = readValue (fuel + 1) s := by
  rw [readValue.eq_def, readValue.eq_def]
  simp only [skipBlanks_append hb]

theorem isBlank_of_number {c : Char} (h : c = '-' ∨ c.isDigit = true) : isBlank c = false := by
  obtain rfl | h := h
  · rfl
  · simp only [isBlank, Bool.or_eq_false_iff, decide_eq_false_iff_not]
    refine ⟨⟨⟨?_, ?_⟩, ?_⟩, ?_⟩ <;> rintro rfl <;> exact absurd h (by decide)

/-- The text of a value starts with a mark that is no blank and closes no list. -/
theorem Spelt.eq_cons {t : Tree} {s : List Char} (h : t.Spelt s) :
    ∃ c more, s = c :: more ∧ isBlank c = false ∧ c ≠ ']' := by
  cases h with
  | number h =>
    obtain ⟨c, more, rfl, hc⟩ := h.eq_cons
    refine ⟨c, more, rfl, isBlank_of_number hc, ?_⟩
    rintro rfl
    exact absurd hc (by decide)
  | bool b => cases b <;> exact ⟨_, _, rfl, rfl, by decide⟩
  | null | text | list | object => exact ⟨_, _, rfl, rfl, by decide⟩

theorem Spelt.length_pos {t : Tree} {s : List Char} (h : t.Spelt s) : 0 < s.length := by
  obtain ⟨c, more, rfl, -⟩ := h.eq_cons
  exact Nat.succ_pos _

/-- The reader takes the text, with as much fuel as it is long, whatever ends it. -/
def Reads (t : Tree) (s : List Char) : Prop :=
  ∀ fuel rest, s.length ≤ fuel → Ends rest → readValue fuel (s ++ rest) = (t, rest)

theorem readItems_last {fuel : Nat} {s b rest : List Char} {t : Tree} (hb : Blanks b)
    (h : readValue fuel s = (t, b ++ ']' :: rest)) :
    readItems (fuel + 1) s = ([t], .closed, rest) := by
  rw [readItems, h]
  simp only [skipBlanks_append_cons hb (show isBlank ']' = false from rfl)]

theorem readItems_comma {fuel : Nat} {s b b' more rest : List Char} {t : Tree} {c : Char}
    {items : List Tree} {ending : ListEnd} (hb : Blanks b) (hb' : Blanks b')
    (hc : isBlank c = false) (hne : c ≠ ']')
    (first : readValue fuel s = (t, b ++ ',' :: (b' ++ c :: more)))
    (others : readItems fuel (c :: more) = (items, ending, rest)) :
    readItems (fuel + 1) s = (t :: items, ending, rest) := by
  rw [readItems, first]
  simp only [skipBlanks_append_cons hb (show isBlank ',' = false from rfl),
    skipBlanks_append_cons hb' hc]
  split <;> simp_all

theorem readItems_spelt {item : Item} {items : List Item} (hsound : ∀ i ∈ item :: items, i.Sound)
    (hreads : ∀ i ∈ item :: items, i.tree.Reads i.text) {fuel : Nat} {s : List Char}
    (hs : s = item.text ++ (item.back ++ (items.map Item.chars).flatMap (',' :: ·)))
    (hfuel : s.length < fuel) (rest : List Char) :
    readItems fuel (s ++ ']' :: rest) = ((item :: items).map Item.tree, .closed, rest) := by
  induction items generalizing item fuel s with
  | nil =>
    obtain ⟨fuel, rfl⟩ := Nat.exists_eq_add_one_of_ne_zero (Nat.ne_zero_of_lt hfuel)
    have hback := (hsound item List.mem_cons_self).back
    have hsplit : s = item.text ++ item.back := by simp [hs]
    have hlen : s.length = item.text.length + item.back.length := by simp [hsplit]
    have hread := hreads item List.mem_cons_self fuel (item.back ++ ']' :: rest) (by omega)
      (Ends.append hback (ends_cons (by decide)))
    rw [hsplit, List.append_assoc]
    exact readItems_last hback hread
  | cons second items ih =>
    obtain ⟨fuel, rfl⟩ := Nat.exists_eq_add_one_of_ne_zero (Nat.ne_zero_of_lt hfuel)
    obtain ⟨hfirst, hsound⟩ := List.forall_mem_cons.1 hsound
    obtain ⟨hread, hreads⟩ := List.forall_mem_cons.1 hreads
    have hsecond := hsound second List.mem_cons_self
    obtain ⟨c, more, htext, hc, hne⟩ := hsecond.spelt.eq_cons
    -- What is left of the list once the blanks behind the comma are dropped.
    obtain ⟨others, hothers⟩ : ∃ others,
        others = second.text ++ (second.back ++ (items.map Item.chars).flatMap (',' :: ·)) :=
      ⟨_, rfl⟩
    have hsplit : s = item.text ++ (item.back ++ ',' :: (second.front ++ others)) := by
      simp [hs, hothers, Item.chars]
    have hlen : s.length =
        item.text.length + (item.back.length + (second.front.length + others.length + 1)) := by
      simp [hsplit]
    have hcomma := hread fuel (item.back ++ ',' :: (second.front ++ (others ++ ']' :: rest)))
      (by omega) (Ends.append hfirst.back (ends_cons (by decide)))
    have hlater := ih hsound hreads hothers (show others.length < fuel by omega)
    obtain ⟨tail, htail⟩ : ∃ tail, others = c :: tail := ⟨_, by rw [hothers, htext]; rfl⟩
    have hsame : s ++ ']' :: rest =
        item.text ++ (item.back ++ ',' :: (second.front ++ (others ++ ']' :: rest))) := by
      simp [hsplit]
    rw [hsame]
    rw [htail, List.cons_append] at hcomma hlater ⊢
    exact readItems_comma hfirst.back hsecond.front hc hne hcomma hlater

theorem readMembers_last {fuel : Nat} {s inside gap b rest : List Char} {t : Tree} {key : Literal}
    (hkey : Literal.scan [] inside = (key, gap ++ ':' :: s)) (hgap : Blanks gap) (hb : Blanks b)
    (h : readValue fuel s = (t, b ++ '}' :: rest)) :
    readMembers (fuel + 1) ('"' :: inside) = ([(key, t)], .closed, rest) := by
  rw [readMembers, skipBlanks_cons rfl]
  simp only [hkey, skipBlanks_append_cons hgap (show isBlank ':' = false from rfl), h,
    skipBlanks_append_cons hb (show isBlank '}' = false from rfl)]

theorem readMembers_comma {fuel : Nat} {s inside gap b b' more rest : List Char} {t : Tree}
    {key : Literal} {members : List (Literal × Tree)} {ending : ObjectEnd}
    (hkey : Literal.scan [] inside = (key, gap ++ ':' :: s)) (hgap : Blanks gap) (hb : Blanks b)
    (hb' : Blanks b') (first : readValue fuel s = (t, b ++ ',' :: (b' ++ '"' :: more)))
    (others : readMembers fuel ('"' :: more) = (members, ending, rest)) :
    readMembers (fuel + 1) ('"' :: inside) = ((key, t) :: members, ending, rest) := by
  rw [readMembers, skipBlanks_cons rfl]
  simp only [hkey, skipBlanks_append_cons hgap (show isBlank ':' = false from rfl), first,
    skipBlanks_append_cons hb (show isBlank ',' = false from rfl),
    skipBlanks_append_cons hb' (show isBlank '"' = false from rfl)]
  split <;> simp_all

theorem readMembers_spelt {member : Member} {members : List Member}
    (hsound : ∀ m ∈ member :: members, m.Sound)
    (hreads : ∀ m ∈ member :: members, m.value.tree.Reads m.value.text) {fuel : Nat}
    {s : List Char} (hs : s = member.name ++ '"' :: (member.gap ++ ':' ::
      (member.value.chars ++ (members.map Member.chars).flatMap (',' :: ·))))
    (hfuel : s.length < fuel) (rest : List Char) :
    readMembers fuel ('"' :: (s ++ '}' :: rest)) =
      ((member :: members).map Member.entry, .closed, rest) := by
  induction members generalizing member fuel s with
  | nil =>
    obtain ⟨fuel, rfl⟩ := Nat.exists_eq_add_one_of_ne_zero (Nat.ne_zero_of_lt hfuel)
    obtain ⟨-, hkey, hgap, hfront, hspelt, hback⟩ := hsound member List.mem_cons_self
    have hsplit : s = member.name ++ '"' :: (member.gap ++ ':' :: (member.value.front ++
        (member.value.text ++ member.value.back))) := by
      simp [hs, Item.chars]
    have hpos := hspelt.length_pos
    have hlen : s.length = member.name.length + (member.gap.length + (member.value.front.length +
        (member.value.text.length + member.value.back.length) + 1) + 1) := by
      simp [hsplit]
    obtain ⟨fuel, rfl⟩ := Nat.exists_eq_add_one_of_ne_zero (show fuel ≠ 0 by omega)
    have hread := hreads member List.mem_cons_self (fuel + 1) (member.value.back ++ '}' :: rest)
      (by omega) (Ends.append hback (ends_cons (by decide)))
    rw [← readValue_blanks hfront] at hread
    have hscan := hkey.scan (member.gap ++ ':' :: (member.value.front ++
      (member.value.text ++ (member.value.back ++ '}' :: rest))))
    have h := readMembers_last hscan hgap hback hread
    simpa [hsplit, Member.entry] using h
  | cons second members ih =>
    obtain ⟨fuel, rfl⟩ := Nat.exists_eq_add_one_of_ne_zero (Nat.ne_zero_of_lt hfuel)
    obtain ⟨⟨-, hkey, hgap, hfront, hspelt, hback⟩, hsound⟩ := List.forall_mem_cons.1 hsound
    obtain ⟨hread, hreads⟩ := List.forall_mem_cons.1 hreads
    have hsecond := hsound second List.mem_cons_self
    obtain ⟨others, hothers⟩ : ∃ others, others = second.name ++ '"' :: (second.gap ++ ':' ::
        (second.value.chars ++ (members.map Member.chars).flatMap (',' :: ·))) := ⟨_, rfl⟩
    have hsplit : s = member.name ++ '"' :: (member.gap ++ ':' :: (member.value.front ++
        (member.value.text ++ (member.value.back ++ ',' :: (second.front ++ '"' :: others))))) := by
      simp [hs, hothers, Item.chars, Member.chars]
    have hpos := hspelt.length_pos
    have hlen : s.length = member.name.length + (member.gap.length + (member.value.front.length +
        (member.value.text.length + (member.value.back.length +
          (second.front.length + (others.length + 1) + 1))) + 1) + 1) := by
      simp [hsplit]
    obtain ⟨fuel, rfl⟩ := Nat.exists_eq_add_one_of_ne_zero (show fuel ≠ 0 by omega)
    have hcomma := hread (fuel + 1) (member.value.back ++ ',' ::
      (second.front ++ '"' :: (others ++ '}' :: rest))) (by omega)
      (Ends.append hback (ends_cons (by decide)))
    rw [← readValue_blanks hfront] at hcomma
    have hlater := ih hsound hreads hothers (show others.length < fuel + 1 by omega)
    have hscan := hkey.scan (member.gap ++ ':' :: (member.value.front ++
      (member.value.text ++ (member.value.back ++ ',' ::
        (second.front ++ '"' :: (others ++ '}' :: rest))))))
    have h := readMembers_comma hscan hgap hback hsecond.front hcomma hlater
    simpa [hsplit, Member.entry] using h

theorem readValue_list {fuel : Nat} {b s rest : List Char} {c : Char} {items : List Tree}
    {ending : ListEnd} (hb : Blanks b) (hc : isBlank c = false) (hne : c ≠ ']')
    (h : readItems fuel (c :: s) = (items, ending, rest)) :
    readValue (fuel + 1) ('[' :: (b ++ c :: s)) = (.list items ending, rest) := by
  rw [readValue, skipBlanks_cons rfl]
  simp only [skipBlanks_append_cons hb hc]
  split <;> simp_all

theorem readValue_object {fuel : Nat} {b s rest : List Char} {members : List (Literal × Tree)}
    {ending : ObjectEnd} (hb : Blanks b)
    (h : readMembers fuel ('"' :: s) = (members, ending, rest)) :
    readValue (fuel + 1) ('{' :: (b ++ '"' :: s)) = (.object members ending, rest) := by
  rw [readValue, skipBlanks_cons rfl]
  simp only [skipBlanks_append_cons hb (show isBlank '"' = false from rfl)]
  split <;> simp_all

theorem readValue_number {fuel : Nat} {c : Char} {s : List Char} (h : c = '-' ∨ c.isDigit = true) :
    readValue (fuel + 1) (c :: s) = readNumber (c :: s) := by
  rw [readValue, skipBlanks_cons (isBlank_of_number h)]
  -- No other mark that starts a value is a minus or a digit.
  split <;> rename_i eq <;> cases eq
  all_goals first
    | exact absurd h (by decide)
    | exact if_pos h

theorem reads_list {items : List Item} {s : List Char} (hjoined : Joined (items.map Item.chars) s)
    (hsound : ∀ i ∈ items, i.Sound) (hreads : ∀ i ∈ items, i.tree.Reads i.text) :
    (Tree.list (items.map Item.tree) .closed).Reads ('[' :: (s ++ [']'])) := by
  rintro (_ | fuel) rest hfuel -
  · simp at hfuel
  · simp only [List.length_cons, List.length_append, List.length_nil] at hfuel
    show readValue (fuel + 1) ('[' :: (s ++ [']'] ++ rest)) = _
    rw [List.append_assoc]
    cases items with
    | nil =>
      rw [readValue, skipBlanks_cons rfl]
      simp only [List.cons_append, List.nil_append,
        skipBlanks_append_cons hjoined (show isBlank ']' = false from rfl)]
      rfl
    | cons item items =>
      have hfirst := hsound item List.mem_cons_self
      obtain ⟨c, more, htext, hc, hne⟩ := hfirst.spelt.eq_cons
      obtain ⟨inside, hinside⟩ : ∃ inside,
          inside = item.text ++ (item.back ++ (items.map Item.chars).flatMap (',' :: ·)) :=
        ⟨_, rfl⟩
      have hsplit : s = item.front ++ inside := by
        rw [hinside]
        simpa [Joined, Item.chars] using hjoined
      have hlen : s.length = item.front.length + inside.length := by simp [hsplit]
      have hread := readItems_spelt hsound hreads hinside (show inside.length < fuel by omega) rest
      obtain ⟨tail, htail⟩ : ∃ tail, inside = c :: tail := ⟨_, by rw [hinside, htext]; rfl⟩
      rw [hsplit, List.append_assoc]
      rw [htail, List.cons_append] at hread ⊢
      exact readValue_list hfirst.front hc hne hread

theorem reads_object {members : List Member} {s : List Char}
    (hjoined : Joined (members.map Member.chars) s) (hsound : ∀ m ∈ members, m.Sound)
    (hreads : ∀ m ∈ members, m.value.tree.Reads m.value.text) :
    (Tree.object (members.map Member.entry) .closed).Reads ('{' :: (s ++ ['}'])) := by
  rintro (_ | fuel) rest hfuel -
  · simp at hfuel
  · simp only [List.length_cons, List.length_append, List.length_nil] at hfuel
    show readValue (fuel + 1) ('{' :: (s ++ ['}'] ++ rest)) = _
    rw [List.append_assoc]
    cases members with
    | nil =>
      rw [readValue, skipBlanks_cons rfl]
      simp only [List.cons_append, List.nil_append,
        skipBlanks_append_cons hjoined (show isBlank '}' = false from rfl)]
      rfl
    | cons member members =>
      obtain ⟨inside, hinside⟩ : ∃ inside, inside = member.name ++ '"' :: (member.gap ++ ':' ::
          (member.value.chars ++ (members.map Member.chars).flatMap (',' :: ·))) := ⟨_, rfl⟩
      have hsplit : s = member.front ++ '"' :: inside := by
        rw [hinside]
        simpa [Joined, Member.chars] using hjoined
      have hlen : s.length = member.front.length + (inside.length + 1) := by simp [hsplit]
      have hread :=
        readMembers_spelt hsound hreads hinside (show inside.length < fuel by omega) rest
      rw [hsplit, List.append_assoc]
      exact readValue_object (hsound member List.mem_cons_self).front hread

/-- The reader takes exactly the text of a value. -/
theorem Spelt.reads {t : Tree} {s : List Char} (h : t.Spelt s) : t.Reads s := by
  -- Along the grammar: a list or an object is read once all that stands in it is.
  induction h with
  | null =>
    rintro (_ | fuel) rest hfuel -
    · simp at hfuel
    · rfl
  | bool b =>
    rintro (_ | fuel) rest hfuel -
    · cases b <;> simp at hfuel
    · cases b <;> rfl
  | number h =>
    rintro (_ | fuel) rest hfuel hrest
    · have := (Spelt.number h).length_pos
      omega
    · obtain ⟨c, more, rfl, hc⟩ := h.eq_cons
      show readValue (fuel + 1) (c :: (more ++ rest)) = _
      rw [readValue_number hc, ← List.cons_append, readNumber, h.scan hrest]
  | @text l s h =>
    rintro (_ | fuel) rest hfuel -
    · simp at hfuel
    · show readValue (fuel + 1) ('"' :: (s ++ ['"'] ++ rest)) = _
      rw [readValue, skipBlanks_cons rfl, List.append_assoc]
      simp only [List.cons_append, List.nil_append, h.scan]
  | list joined blank spelt ih =>
    exact reads_list joined (fun i hi => ⟨(blank i hi).1, spelt i hi, (blank i hi).2⟩) ih
  | object joined blank key spelt ih =>
    refine reads_object joined (fun m hm => ?_) ih
    obtain ⟨hfront, hgap, hfront', hback⟩ := blank m hm
    exact ⟨hfront, key m hm, hgap, hfront', spelt m hm, hback⟩

end Tree

end LiveRuns.Json
