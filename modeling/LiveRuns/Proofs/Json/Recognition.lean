import LiveRuns.Proofs.Except
import LiveRuns.Proofs.Json.Grammar
import Mathlib.Data.List.TakeWhile

/-!
Texts are recognised.

The reader never fails, but it marks what it cannot read, and `Tree.skim` finds every such mark.  So
where a tree has none, the characters that were taken are a text of the tree, `Tree.recognised`.
Read from the top, such a text is a value with blanks around it, `Tree.exists_item_of_read`, and
each value with blanks around it is read from its text, `Tree.read_chars`.
-/

namespace LiveRuns.Json

open LiveRuns.Text

/-! ## Tokens -/

namespace NumberText

/-- The digits in front of a text, and what follows them. -/
theorem eq_digits_append {s : List Char} (h : ¬ (s.takeWhile Char.isDigit).isEmpty = true) :
    ∃ digits, IsDigits digits ∧ s.takeWhile Char.isDigit = digits ∧
      s = digits ++ s.dropWhile Char.isDigit := by
  refine ⟨s.takeWhile Char.isDigit, ⟨?_, fun c hc => List.mem_takeWhile_imp hc⟩, rfl, ?_⟩
  · intro hnil
    rw [hnil] at h
    exact h rfl
  · exact (List.takeWhile_append_dropWhile).symm

theorem exponentSpelt_of_scan {n n' : NumberText} {s rest : List Char}
    (h : n.scanExponent s = (.ok n', rest)) (hn : n.exponent = none) :
    ∃ exponent e, ExponentSpelt exponent e ∧ n' = { n with exponent } ∧ s = e ++ rest := by
  have hsame : { n with exponent := none } = n := by
    cases n
    cases hn
    rfl
  unfold scanExponent at h
  split at h
  · rename_i mark s
    split_ifs at h with hmark
    · split at h
      rename_i minus tail hsign
      simp only at h
      split_ifs at h with hempty
      · cases h
      · obtain ⟨digits, hdigits, htake, hdrop⟩ := eq_digits_append hempty
        cases h
        rw [htake]
        split at hsign <;> cases hsign
        · refine ⟨some (_, digits), mark :: (['-'] ++ digits), ?_, rfl, ?_⟩
          · exact ⟨hdigits, mark, ['-'], hmark, rfl, rfl⟩
          · simp [← hdrop]
        · refine ⟨some (_, digits), mark :: (['+'] ++ digits), ?_, rfl, ?_⟩
          · exact ⟨hdigits, mark, ['+'], hmark, .inr rfl, rfl⟩
          · simp [← hdrop]
        · refine ⟨some (_, digits), mark :: ([] ++ digits), ?_, rfl, ?_⟩
          · exact ⟨hdigits, mark, [], hmark, .inl rfl, rfl⟩
          · simp [← hdrop]
    · cases h
      exact ⟨none, [], rfl, hsame.symm, rfl⟩
  · cases h
    exact ⟨none, [], rfl, hsame.symm, rfl⟩

theorem fractionSpelt_of_scan {n n' : NumberText} {s rest : List Char}
    (h : n.scanFraction s = (.ok n', rest)) (hn : n.fraction = none) (hn' : n.exponent = none) :
    ∃ fraction f exponent e, FractionSpelt fraction f ∧ ExponentSpelt exponent e ∧
      n' = { n with fraction, exponent } ∧ s = f ++ (e ++ rest) := by
  unfold scanFraction at h
  split at h
  · rename_i tail
    simp only at h
    split_ifs at h with hempty
    · cases h
    · obtain ⟨digits, hdigits, htake, hdrop⟩ := eq_digits_append hempty
      obtain ⟨exponent, e, he, rfl, hrest⟩ := exponentSpelt_of_scan h hn'
      rw [htake]
      refine ⟨some digits, '.' :: digits, exponent, e, ⟨hdigits, rfl⟩, he, rfl, ?_⟩
      rw [List.cons_append, ← hrest, ← hdrop]
  · obtain ⟨exponent, e, he, rfl, hrest⟩ := exponentSpelt_of_scan h hn'
    refine ⟨none, [], exponent, e, rfl, he, ?_, hrest⟩
    cases n
    cases hn
    rfl

/-- A number that was scanned stands in front of what is left. -/
theorem spelt_of_scan {n : NumberText} {s rest : List Char}
    (h : NumberText.scan s = (.ok n, rest)) : ∃ text, n.Spelt text ∧ s = text ++ rest := by
  unfold NumberText.scan at h
  split at h
  rename_i negative tail hsign
  have hs : s = (if negative then ['-'] else []) ++ tail := by
    split at hsign <;> cases hsign <;> rfl
  simp only at h
  split at h
  · cases h
  · cases h
  · rename_i hnil hzero
    obtain ⟨digits, hdigits, htake, hdrop⟩ := eq_digits_append (s := tail) (by simpa using hnil)
    obtain ⟨fraction, f, exponent, e, hf, he, rfl, hrest⟩ := fractionSpelt_of_scan h rfl rfl
    rw [htake]
    refine ⟨_, .intro hdigits ?_ hf he, ?_⟩
    · rintro (_ | ⟨d, more⟩) hmore
      · rfl
      · exact absurd (htake.trans hmore) (hzero d more)
    · rw [hs, hdrop, hrest]
      simp

end NumberText

theorem Literal.spelt_of_scan {seen : List Piece} {s rest : List Char} {l : Literal}
    (h : Literal.scan seen s = (l, rest)) (hclosed : l.ending = .closed) :
    ∃ ps text, PiecesSpelt ps text ∧ l.pieces = seen.reverse ++ ps ∧ s = text ++ '"' :: rest := by
  -- A piece in front of a text that has been recognised.
  have hfront {p : Piece} {seen : List Piece} {first s : List Char} (hp : p.Spelt first)
      (ih : ∃ ps text, PiecesSpelt ps text ∧ l.pieces = (p :: seen).reverse ++ ps ∧
        s = text ++ '"' :: rest) :
      ∃ ps text, PiecesSpelt ps text ∧ l.pieces = seen.reverse ++ ps ∧
        first ++ s = text ++ '"' :: rest := by
    obtain ⟨ps, text, hps, hpieces, rfl⟩ := ih
    exact ⟨p :: ps, first ++ text, .cons hp hps, by simp [hpieces], by simp⟩
  fun_induction Literal.scan seen s with
  | case2 seen tail =>
    cases h
    exact ⟨[], [], .nil, by simp, rfl⟩
  | case3 seen a b c d tail code hcode ih => exact hfront (.unit hcode) (ih h)
  | case5 seen tail =>
    cases h
    simp only at hclosed
    split_ifs at hclosed
  | case7 seen c tail hlong hu plain hplain ih => exact hfront (.short hplain) (ih h)
  | case10 seen c tail hquote hlong hu hcut hshort hcontrol ih =>
    refine hfront (.plain hquote ?_ hcontrol) (ih h)
    rintro rfl
    cases tail with
    | nil => exact hcut rfl rfl
    | cons d tail => exact hshort d tail rfl rfl
  | case1 | case4 | case6 | case8 | case9 =>
    cases h
    cases hclosed

theorem Literal.form_eq_ok {l : Literal} : l.form = .ok () ↔ l.ending = .closed := by
  unfold Literal.form
  cases l.ending <;> simp [Literal.Ending.form]

theorem Literal.spelt_of_form {s rest : List Char} {l : Literal} (h : scan [] s = (l, rest))
    (hform : l.form = .ok ()) : ∃ text, l.Spelt text ∧ s = text ++ '"' :: rest := by
  have hclosed := form_eq_ok.1 hform
  obtain ⟨ps, text, hps, hpieces, rfl⟩ := spelt_of_scan h hclosed
  obtain rfl : l.pieces = ps := hpieces
  exact ⟨text, ⟨hclosed, hps⟩, rfl⟩

/-! ## Trees without a fault -/

theorem ListEnd.skim_eq_ok {ending : ListEnd} : ending.skim = .ok () ↔ ending = .closed := by
  cases ending <;> simp [ListEnd.skim, ListEnd.close]

theorem ObjectEnd.skim_eq_ok {ending : ObjectEnd} : ending.skim = .ok () ↔ ending = .closed := by
  cases ending <;> simp [ObjectEnd.skim, ObjectEnd.close]

theorem Blanks.append {b b' : List Char} (h : Blanks b) (h' : Blanks b') : Blanks (b ++ b') :=
  List.forall_mem_append.2 ⟨h, h'⟩

theorem exists_blanks (s : List Char) : ∃ b, Blanks b ∧ s = b ++ skipBlanks s :=
  ⟨s.takeWhile isBlank, fun _ hc => List.mem_takeWhile_imp hc,
    (List.takeWhile_append_dropWhile).symm⟩

theorem skimItems_cons {item : Tree} {items : List Tree} :
    skimItems (item :: items) = .ok () ↔ item.skim = .ok () ∧ skimItems items = .ok () := by
  rw [skimItems, bind_eq_ok]
  exact ⟨fun ⟨_, h⟩ => h, fun h => ⟨(), h⟩⟩

theorem skimMembers_cons {key : Literal} {value : Tree} {members : List (Literal × Tree)} :
    skimMembers ((key, value) :: members) = .ok () ↔
      key.form = .ok () ∧ value.skim = .ok () ∧ skimMembers members = .ok () := by
  rw [skimMembers, bind_eq_ok]
  simp only [bind_eq_ok]
  exact ⟨fun ⟨_, h, _, h'⟩ => ⟨h, h'⟩, fun ⟨h, h'⟩ => ⟨(), h, (), h'⟩⟩

theorem Tree.skim_list {items : List Tree} {ending : ListEnd} :
    (Tree.list items ending).skim = .ok () ↔ skimItems items = .ok () ∧ ending = .closed := by
  rw [Tree.skim, bind_eq_ok]
  simp only [ListEnd.skim_eq_ok]
  exact ⟨fun ⟨_, h⟩ => h, fun h => ⟨(), h⟩⟩

theorem Tree.skim_object {members : List (Literal × Tree)} {ending : ObjectEnd} :
    (Tree.object members ending).skim = .ok () ↔
      skimMembers members = .ok () ∧ ending = .closed := by
  rw [Tree.skim, bind_eq_ok]
  simp only [ObjectEnd.skim_eq_ok]
  exact ⟨fun ⟨_, h⟩ => h, fun h => ⟨(), h⟩⟩

/-! ## Rows of items and members -/

theorem Joined.cons {part s : List Char} {parts : List (List Char)} (hne : parts ≠ [])
    (h : Joined parts s) : Joined (part :: parts) (part ++ ',' :: s) := by
  obtain ⟨next, parts, rfl⟩ := List.exists_cons_of_ne_nil hne
  obtain rfl : s = next ++ parts.flatMap (',' :: ·) := h
  rfl

theorem Tree.spelt_list {items : List Item} {s : List Char} (hsound : ∀ i ∈ items, i.Sound)
    (hjoined : Joined (items.map Item.chars) s) :
    (Tree.list (items.map Item.tree) .closed).Spelt ('[' :: (s ++ [']'])) :=
  .list hjoined (fun i hi => ⟨(hsound i hi).front, (hsound i hi).back⟩)
    fun i hi => (hsound i hi).spelt

theorem Tree.spelt_object {members : List Member} {s : List Char}
    (hsound : ∀ m ∈ members, m.Sound) (hjoined : Joined (members.map Member.chars) s) :
    (Tree.object (members.map Member.entry) .closed).Spelt ('{' :: (s ++ ['}'])) :=
  .object hjoined
    (fun m hm => ⟨(hsound m hm).front, (hsound m hm).gap, (hsound m hm).value.front,
      (hsound m hm).value.back⟩)
    (fun m hm => (hsound m hm).key) fun m hm => (hsound m hm).value.spelt

def ItemsSpelt (trees : List Tree) (s : List Char) : Prop :=
  ∃ item items, trees = (item :: items).map Item.tree ∧ (∀ i ∈ item :: items, i.Sound) ∧
    Joined ((item :: items).map Item.chars) s

def MembersSpelt (entries : List (Literal × Tree)) (s : List Char) : Prop :=
  ∃ member members, entries = (member :: members).map Member.entry ∧
    (∀ m ∈ member :: members, m.Sound) ∧ Joined ((member :: members).map Member.chars) s

namespace ItemsSpelt

theorem single {i : Item} (h : i.Sound) : ItemsSpelt [i.tree] i.chars :=
  ⟨i, [], rfl, by simpa using h, by simp [Joined]⟩

theorem cons {i : Item} {trees : List Tree} {s : List Char} (h : i.Sound)
    (others : ItemsSpelt trees s) : ItemsSpelt (i.tree :: trees) (i.chars ++ ',' :: s) := by
  obtain ⟨next, items, rfl, hsound, hjoined⟩ := others
  exact ⟨i, next :: items, rfl, List.forall_mem_cons.2 ⟨h, hsound⟩, hjoined.cons (by simp)⟩

theorem blanks {b s : List Char} {trees : List Tree} (hb : Blanks b) (h : ItemsSpelt trees s) :
    ItemsSpelt trees (b ++ s) := by
  obtain ⟨item, items, rfl, hsound, rfl⟩ := h
  obtain ⟨hfirst, hothers⟩ := List.forall_mem_cons.1 hsound
  refine ⟨{ item with front := b ++ item.front }, items, rfl, ?_, ?_⟩
  · exact List.forall_mem_cons.2 ⟨⟨hb.append hfirst.front, hfirst.spelt, hfirst.back⟩, hothers⟩
  · simp [Joined, Item.chars]

theorem spelt {trees : List Tree} {s : List Char} (h : ItemsSpelt trees s) :
    (Tree.list trees .closed).Spelt ('[' :: (s ++ [']'])) := by
  obtain ⟨item, items, rfl, hsound, hjoined⟩ := h
  exact Tree.spelt_list hsound hjoined

end ItemsSpelt

namespace MembersSpelt

theorem single {m : Member} (h : m.Sound) : MembersSpelt [m.entry] m.chars :=
  ⟨m, [], rfl, by simpa using h, by simp [Joined]⟩

theorem cons {m : Member} {entries : List (Literal × Tree)} {s : List Char} (h : m.Sound)
    (others : MembersSpelt entries s) :
    MembersSpelt (m.entry :: entries) (m.chars ++ ',' :: s) := by
  obtain ⟨next, members, rfl, hsound, hjoined⟩ := others
  exact ⟨m, next :: members, rfl, List.forall_mem_cons.2 ⟨h, hsound⟩, hjoined.cons (by simp)⟩

theorem blanks {b s : List Char} {entries : List (Literal × Tree)} (hb : Blanks b)
    (h : MembersSpelt entries s) : MembersSpelt entries (b ++ s) := by
  obtain ⟨member, members, rfl, hsound, rfl⟩ := h
  obtain ⟨hfirst, hothers⟩ := List.forall_mem_cons.1 hsound
  refine ⟨{ member with front := b ++ member.front }, members, rfl, ?_, ?_⟩
  · exact List.forall_mem_cons.2
      ⟨⟨hb.append hfirst.front, hfirst.key, hfirst.gap, hfirst.value⟩, hothers⟩
  · simp [Joined, Member.chars]

theorem spelt {entries : List (Literal × Tree)} {s : List Char} (h : MembersSpelt entries s) :
    (Tree.object entries .closed).Spelt ('{' :: (s ++ ['}'])) := by
  obtain ⟨member, members, rfl, hsound, hjoined⟩ := h
  exact Tree.spelt_object hsound hjoined

end MembersSpelt

namespace Tree

theorem readWord_eq {value t : Tree} {expected s rest : List Char}
    (h : readWord value expected s = (t, rest)) (hok : t.skim = .ok ()) :
    t = value ∧ s = expected ++ rest := by
  induction expected generalizing s with
  | nil =>
    cases h
    exact ⟨rfl, rfl⟩
  | cons e expected ih =>
    cases s with
    | nil =>
      cases h
      cases hok
    | cons c s =>
      rw [readWord] at h
      split_ifs at h with heq
      · obtain ⟨ht, rfl⟩ := ih h
        exact ⟨ht, by rw [heq]; rfl⟩
      · cases h
        cases hok

theorem readNumber_eq {t : Tree} {s rest : List Char} (h : readNumber s = (t, rest))
    (hok : t.skim = .ok ()) : ∃ n, t = .number n ∧ NumberText.scan s = (.ok n, rest) := by
  unfold readNumber at h
  split at h <;> cases h
  · exact ⟨_, rfl, by assumption⟩
  · cases hok
  · cases hok

/-- How the items of a closed list go on: with the bracket, or with a comma and more of them. -/
theorem readItems_cases {fuel : Nat} {s rest : List Char} {trees : List Tree}
    (h : readItems fuel s = (trees, .closed, rest)) :
    ∃ below t after b, readValue below s = (t, after) ∧ fuel = below + 1 ∧ Blanks b ∧
      ((trees = [t] ∧ after = b ++ ']' :: rest) ∨
        ∃ others b' more, trees = t :: others ∧ Blanks b' ∧ after = b ++ ',' :: (b' ++ more) ∧
          readItems below more = (others, .closed, rest)) := by
  cases fuel with
  | zero => cases h
  | succ below =>
    rw [readItems] at h
    rcases hfirst : readValue below s with ⟨t, after⟩
    obtain ⟨b, hb, hafter⟩ := exists_blanks after
    refine ⟨below, t, after, b, hfirst, rfl, hb, ?_⟩
    rw [hfirst] at h
    simp only at h
    split at h <;> rename_i hskip <;> rw [hskip] at hafter
    · cases h
    · cases h
      exact .inl ⟨rfl, hafter⟩
    · rename_i tail
      obtain ⟨b', hb', htail⟩ := exists_blanks tail
      split at h
      · cases h
      · cases h
      · rcases hothers : readItems below (skipBlanks tail) with ⟨others, ending, rest'⟩
        rw [hothers] at h
        cases h
        exact .inr ⟨others, b', skipBlanks tail, rfl, hb', htail ▸ hafter, hothers⟩
    · cases h

/-- How the members of a closed object go on: a name, a colon and a value, and then the bracket, or
a comma and more of them. -/
theorem readMembers_cases {fuel : Nat} {s rest : List Char} {trees : List (Literal × Tree)}
    (h : readMembers fuel s = (trees, .closed, rest)) :
    ∃ below front inside key after gap value t afterValue b,
      fuel = below + 1 ∧ Blanks front ∧ s = front ++ '"' :: inside ∧
      Literal.scan [] inside = (key, after) ∧ Blanks gap ∧ after = gap ++ ':' :: value ∧
      readValue below value = (t, afterValue) ∧ Blanks b ∧
      ((trees = [(key, t)] ∧ afterValue = b ++ '}' :: rest) ∨
        ∃ others b' more, trees = (key, t) :: others ∧ Blanks b' ∧
          afterValue = b ++ ',' :: (b' ++ more) ∧
          readMembers below more = (others, .closed, rest)) := by
  cases fuel with
  | zero => cases h
  | succ below =>
    rw [readMembers] at h
    obtain ⟨front, hfront, hs⟩ := exists_blanks s
    split at h
    · rename_i inside hskip
      rw [hskip] at hs
      rcases hkey : Literal.scan [] inside with ⟨key, after⟩
      obtain ⟨gap, hgap, hafter⟩ := exists_blanks after
      rw [hkey] at h
      simp only at h
      split at h <;> rename_i hcolon <;> rw [hcolon] at hafter
      · cases h
      · rename_i value
        rcases hvalue : readValue below value with ⟨t, afterValue⟩
        obtain ⟨b, hb, hafterValue⟩ := exists_blanks afterValue
        refine ⟨below, front, inside, key, after, gap, value, t, afterValue, b, rfl, hfront, hs,
          hkey, hgap, hafter, hvalue, hb, ?_⟩
        rw [hvalue] at h
        simp only at h
        split at h <;> rename_i hskip <;> rw [hskip] at hafterValue
        · cases h
        · cases h
          exact .inl ⟨rfl, hafterValue⟩
        · rename_i tail
          obtain ⟨b', hb', htail⟩ := exists_blanks tail
          split at h
          · cases h
          · cases h
          · rcases hothers : readMembers below (skipBlanks tail) with ⟨others, ending, rest'⟩
            rw [hothers] at h
            cases h
            exact .inr ⟨others, b', skipBlanks tail, rfl, hb', htail ▸ hafterValue, hothers⟩
        · cases h
      · cases h
    · cases h

/-- With some fuel the reader takes a text of what it reads, unless that is at fault. -/
structure Recognised (fuel : Nat) : Prop where
  value : ∀ {s t rest}, readValue fuel s = (t, rest) → t.skim = .ok () →
    ∃ front text, Blanks front ∧ t.Spelt text ∧ s = front ++ (text ++ rest)
  items : ∀ {s trees rest}, readItems fuel s = (trees, .closed, rest) → skimItems trees = .ok () →
    ∃ inside, ItemsSpelt trees inside ∧ s = inside ++ ']' :: rest
  members : ∀ {s entries rest}, readMembers fuel s = (entries, .closed, rest) →
    skimMembers entries = .ok () →
      ∃ inside, MembersSpelt entries inside ∧ s = inside ++ '}' :: rest

theorem Recognised.items_succ {fuel : Nat} (ih : Recognised fuel) {s rest : List Char}
    {trees : List Tree} (h : readItems (fuel + 1) s = (trees, .closed, rest))
    (hok : skimItems trees = .ok ()) :
    ∃ inside, ItemsSpelt trees inside ∧ s = inside ++ ']' :: rest := by
  obtain ⟨_, t, after, b, hvalue, ⟨⟩, hb, hcase⟩ := readItems_cases h
  rcases hcase with ⟨rfl, rfl⟩ | ⟨others, b', more, rfl, hb', rfl, hmore⟩
  · obtain ⟨front, text, hfront, hspelt, rfl⟩ := ih.value hvalue (skimItems_cons.1 hok).1
    exact ⟨_, .single (i := ⟨front, text, b, t⟩) ⟨hfront, hspelt, hb⟩, by simp [Item.chars]⟩
  · obtain ⟨hfirst, hothers⟩ := skimItems_cons.1 hok
    obtain ⟨front, text, hfront, hspelt, rfl⟩ := ih.value hvalue hfirst
    obtain ⟨inside, hinside, rfl⟩ := ih.items hmore hothers
    refine ⟨_, .cons (i := ⟨front, text, b, t⟩) ⟨hfront, hspelt, hb⟩ (hinside.blanks hb'), ?_⟩
    simp [Item.chars]

theorem Recognised.members_succ {fuel : Nat} (ih : Recognised fuel) {s rest : List Char}
    {entries : List (Literal × Tree)} (h : readMembers (fuel + 1) s = (entries, .closed, rest))
    (hok : skimMembers entries = .ok ()) :
    ∃ inside, MembersSpelt entries inside ∧ s = inside ++ '}' :: rest := by
  obtain ⟨_, front, inside, key, _, gap, value, t, _, b, ⟨⟩, hfront, rfl, hkey, hgap, rfl, hvalue,
    hb, hcase⟩ := readMembers_cases h
  -- The member that comes first, once its value is known to have no fault.
  have hmember (hform : key.form = .ok ()) (hskim : t.skim = .ok ()) (after : List Char)
      (hafter : readValue fuel value = (t, b ++ after)) : ∃ m : Member, m.Sound ∧
        m.entry = (key, t) ∧ front ++ '"' :: inside = m.chars ++ after := by
    obtain ⟨name, hname, rfl⟩ := Literal.spelt_of_form hkey hform
    obtain ⟨front', text, hfront', hspelt, rfl⟩ := ih.value hafter hskim
    refine ⟨⟨front, name, gap, key, ⟨front', text, b, t⟩⟩,
      ⟨hfront, hname, hgap, hfront', hspelt, hb⟩, rfl, ?_⟩
    simp [Member.chars, Item.chars]
  rcases hcase with ⟨rfl, rfl⟩ | ⟨others, b', more, rfl, hb', rfl, hmore⟩
  · obtain ⟨hform, hskim, -⟩ := skimMembers_cons.1 hok
    obtain ⟨m, hsound, hentry, heq⟩ := hmember hform hskim _ hvalue
    rw [← hentry]
    exact ⟨_, .single hsound, heq⟩
  · obtain ⟨hform, hskim, hothers⟩ := skimMembers_cons.1 hok
    obtain ⟨m, hsound, hentry, heq⟩ := hmember hform hskim _ hvalue
    obtain ⟨inside, hinside, rfl⟩ := ih.members hmore hothers
    rw [← hentry, heq]
    exact ⟨_, .cons hsound (hinside.blanks hb'), by simp⟩

theorem Recognised.value_succ {fuel : Nat} (ih : Recognised fuel) {s rest : List Char} {t : Tree}
    (h : readValue (fuel + 1) s = (t, rest)) (hok : t.skim = .ok ()) :
    ∃ front text, Blanks front ∧ t.Spelt text ∧ s = front ++ (text ++ rest) := by
  obtain ⟨front, hfront, hs⟩ := exists_blanks s
  suffices hmain : ∃ text, t.Spelt text ∧ skipBlanks s = text ++ rest by
    obtain ⟨text, hspelt, hskip⟩ := hmain
    exact ⟨front, text, hfront, hspelt, hskip ▸ hs⟩
  clear hs
  -- One case for each mark that a value may start with.
  rw [readValue] at h
  split at h <;> rename_i hskip <;> rw [hskip]
  · cases h
    cases hok
  · obtain ⟨rfl, rfl⟩ := readWord_eq h hok
    exact ⟨_, .null, rfl⟩
  · obtain ⟨rfl, rfl⟩ := readWord_eq h hok
    exact ⟨_, .bool true, rfl⟩
  · obtain ⟨rfl, rfl⟩ := readWord_eq h hok
    exact ⟨_, .bool false, rfl⟩
  · rename_i inside
    rcases hscan : Literal.scan [] inside with ⟨l, rest'⟩
    rw [hscan] at h
    cases h
    obtain ⟨text, hspelt, rfl⟩ := Literal.spelt_of_form hscan hok
    exact ⟨_, .text hspelt, by simp⟩
  · rename_i inside
    obtain ⟨b, hb, hinside⟩ := exists_blanks inside
    split at h
    · cases h
      exact absurd (skim_list.1 hok).2 (by decide)
    · rename_i hskip'
      rw [hskip'] at hinside
      cases h
      exact ⟨_, @Spelt.list [] b hb (List.forall_mem_nil _) (List.forall_mem_nil _),
        by simp [hinside]⟩
    · rcases hitems : readItems fuel (skipBlanks inside) with ⟨items, ending, rest'⟩
      rw [hitems] at h
      cases h
      obtain ⟨hskim, rfl⟩ := skim_list.1 hok
      obtain ⟨within, hwithin, heq⟩ := ih.items hitems hskim
      refine ⟨_, (hwithin.blanks hb).spelt, ?_⟩
      rw [hinside, heq]
      simp
  · rename_i inside
    obtain ⟨b, hb, hinside⟩ := exists_blanks inside
    split at h
    · cases h
      exact absurd (skim_object.1 hok).2 (by decide)
    · rename_i hskip'
      rw [hskip'] at hinside
      cases h
      exact ⟨_, @Spelt.object [] b hb (List.forall_mem_nil _) (List.forall_mem_nil _)
        (List.forall_mem_nil _), by simp [hinside]⟩
    · rcases hmembers : readMembers fuel (skipBlanks inside) with ⟨members, ending, rest'⟩
      rw [hmembers] at h
      cases h
      obtain ⟨hskim, rfl⟩ := skim_object.1 hok
      obtain ⟨within, hwithin, heq⟩ := ih.members hmembers hskim
      refine ⟨_, (hwithin.blanks hb).spelt, ?_⟩
      rw [hinside, heq]
      simp
  · split_ifs at h
    · obtain ⟨n, rfl, hscan⟩ := readNumber_eq h hok
      obtain ⟨text, hspelt, heq⟩ := NumberText.spelt_of_scan hscan
      exact ⟨text, .number hspelt, heq⟩
    · cases h
      cases hok

theorem recognised (fuel : Nat) : Recognised fuel := by
  induction fuel with
  | zero =>
    refine ⟨?_, ?_, ?_⟩
    · intro s t rest h hok
      cases h
      cases hok
    · intro s trees rest h
      cases h
    · intro s entries rest h
      cases h
  | succ fuel ih => exact ⟨ih.value_succ, ih.items_succ, ih.members_succ⟩

/-! ## Whole texts -/

/-- A value with blanks around it is read from its text. -/
theorem read_chars {i : Item} (h : i.Sound) : Tree.read i.chars = (i.tree, i.back) := by
  have hlen : i.chars.length = i.front.length + (i.text.length + i.back.length) := by
    simp [Item.chars]
  have hback : Ends i.back := by
    rw [← List.append_nil i.back]
    exact Ends.append h.back ends_nil
  rw [Tree.read, Item.chars, readValue_blanks h.front]
  exact h.spelt.reads _ _ (by simp; omega) hback

/-- A text whose tree has no fault, and which is over behind it but for blanks, is a text of the
tree. -/
theorem exists_item_of_read {s rest : List Char} {t : Tree} (h : Tree.read s = (t, rest))
    (hok : t.skim = .ok ()) (hrest : endOfText rest = .ok ()) :
    ∃ i : Item, i.Sound ∧ i.chars = s ∧ i.tree = t := by
  obtain ⟨front, text, hfront, hspelt, rfl⟩ := (recognised _).value h hok
  obtain ⟨b, hb, hsplit⟩ := exists_blanks rest
  have hnil : skipBlanks rest = [] := by
    unfold endOfText at hrest
    split_ifs at hrest with hempty
    exact List.isEmpty_iff.1 hempty
  rw [hnil, List.append_nil] at hsplit
  exact ⟨⟨front, text, rest, t⟩, ⟨hfront, hspelt, hsplit ▸ hb⟩, rfl, rfl⟩

theorem Spelt.of_list {trees : List Tree} {ending : ListEnd} {s : List Char}
    (h : (Tree.list trees ending).Spelt s) :
    ending = .closed ∧ ∃ (items : List Item) (inside : List Char), items.map Item.tree = trees ∧
      (∀ i ∈ items, i.Sound) ∧ Joined (items.map Item.chars) inside ∧
        s = '[' :: (inside ++ [']']) := by
  cases h with
  | @list items inside joined blank spelt =>
    exact ⟨rfl, items, inside, rfl, fun i hi => ⟨(blank i hi).1, spelt i hi, (blank i hi).2⟩,
      joined, rfl⟩

theorem Spelt.of_object {entries : List (Literal × Tree)} {ending : ObjectEnd} {s : List Char}
    (h : (Tree.object entries ending).Spelt s) :
    ending = .closed ∧ ∃ (members : List Member) (inside : List Char),
      members.map Member.entry = entries ∧ (∀ m ∈ members, m.Sound) ∧
        Joined (members.map Member.chars) inside ∧ s = '{' :: (inside ++ ['}']) := by
  cases h with
  | @object members inside joined blank key spelt =>
    refine ⟨rfl, members, inside, rfl, fun m hm => ?_, joined, rfl⟩
    obtain ⟨hfront, hgap, hfront', hback⟩ := blank m hm
    exact ⟨hfront, key m hm, hgap, hfront', spelt m hm, hback⟩

end Tree

theorem endOfText_blanks {b : List Char} (h : Blanks b) : endOfText b = .ok () := by
  have hskip : skipBlanks b = [] := by
    rw [← List.append_nil b, skipBlanks_append h]
    rfl
  rw [endOfText, hskip]
  rfl

theorem Value.ofText_chars {i : Item} (h : i.Sound) :
    Value.ofText (String.ofList i.chars) = i.tree.value maxDepth := by
  rw [Value.ofText, String.toList_ofList, Tree.read_chars h]
  show (i.tree.value maxDepth >>= fun v => endOfText i.back >>= fun _ => pure v) = _
  rw [endOfText_blanks h.back]
  cases i.tree.value maxDepth <;> rfl

def ListText (items : List Item) (s : List Char) : Prop :=
  ∃ front inside back, Blanks front ∧ Blanks back ∧ (∀ i ∈ items, i.Sound) ∧
    Joined (items.map Item.chars) inside ∧ s = front ++ ('[' :: (inside ++ [']']) ++ back)

def ObjectText (members : List Member) (s : List Char) : Prop :=
  ∃ front inside back, Blanks front ∧ Blanks back ∧ (∀ m ∈ members, m.Sound) ∧
    Joined (members.map Member.chars) inside ∧ s = front ++ ('{' :: (inside ++ ['}']) ++ back)

theorem ListText.sound {items : List Item} {s : List Char} (h : ListText items s) :
    ∀ i ∈ items, i.Sound := by
  obtain ⟨_, _, _, -, -, hsound, -⟩ := h
  exact hsound

theorem ObjectText.sound {members : List Member} {s : List Char} (h : ObjectText members s) :
    ∀ m ∈ members, m.Sound := by
  obtain ⟨_, _, _, -, -, hsound, -⟩ := h
  exact hsound

theorem ListText.exists_item {items : List Item} {s : List Char} (h : ListText items s) :
    ∃ i : Item, i.Sound ∧ i.chars = s ∧ i.tree = .list (items.map Item.tree) .closed := by
  obtain ⟨front, inside, back, hfront, hback, hsound, hjoined, rfl⟩ := h
  exact ⟨⟨front, _, back, _⟩, ⟨hfront, Tree.spelt_list hsound hjoined, hback⟩, rfl, rfl⟩

theorem ObjectText.exists_item {members : List Member} {s : List Char} (h : ObjectText members s) :
    ∃ i : Item, i.Sound ∧ i.chars = s ∧ i.tree = .object (members.map Member.entry) .closed := by
  obtain ⟨front, inside, back, hfront, hback, hsound, hjoined, rfl⟩ := h
  exact ⟨⟨front, _, back, _⟩, ⟨hfront, Tree.spelt_object hsound hjoined, hback⟩, rfl, rfl⟩

theorem Item.Sound.listText {i : Item} (h : i.Sound) {trees : List Tree} {ending : ListEnd}
    (htree : i.tree = .list trees ending) :
    ending = .closed ∧ ∃ items, items.map Item.tree = trees ∧ ListText items i.chars := by
  obtain ⟨rfl, items, inside, rfl, hsound, hjoined, htext⟩ := (htree ▸ h.spelt).of_list
  refine ⟨rfl, items, rfl, i.front, inside, i.back, h.front, h.back, hsound, hjoined, ?_⟩
  rw [Item.chars, htext]

theorem Item.Sound.objectText {i : Item} (h : i.Sound) {entries : List (Literal × Tree)}
    {ending : ObjectEnd} (htree : i.tree = .object entries ending) :
    ending = .closed ∧
      ∃ members, members.map Member.entry = entries ∧ ObjectText members i.chars := by
  obtain ⟨rfl, members, inside, rfl, hsound, hjoined, htext⟩ := (htree ▸ h.spelt).of_object
  refine ⟨rfl, members, rfl, i.front, inside, i.back, h.front, h.back, hsound, hjoined, ?_⟩
  rw [Item.chars, htext]

end LiveRuns.Json
