/-
Cutting a text at a mark.

`split mark s` has one part more than `s` has marks, empty parts included, so the parts with a mark
between each two are the text again.
-/

namespace LiveRuns.Text

/-- Cut a text at every occurrence of a character. -/
def split (mark : Char) (s : List Char) : List (List Char) :=
  s.foldr (fun c parts =>
    if c = mark then [] :: parts
    else match parts with
      | [] => [[c]]
      | part :: parts => (c :: part) :: parts) [[]]

@[simp] theorem split_nil (mark : Char) : split mark [] = [[]] := rfl

theorem split_ne_nil (mark : Char) (s : List Char) : split mark s ≠ [] := by
  cases s with
  | nil => simp
  | cons c s =>
    simp only [split, List.foldr_cons]
    split
    · simp
    · split <;> simp

@[simp] theorem split_cons_mark (mark : Char) (s : List Char) :
    split mark (mark :: s) = [] :: split mark s := by
  simp [split]

theorem split_cons_of_ne {mark c : Char} (h : c ≠ mark) (s : List Char) :
    split mark (c :: s) = (split mark s).modifyHead (c :: ·) := by
  have hs := split_ne_nil mark s
  simp only [split, List.foldr_cons, h, if_false] at hs ⊢
  split
  · simp_all
  · simp_all

theorem split_of_not_mem {mark : Char} {s : List Char} (h : mark ∉ s) : split mark s = [s] := by
  induction s with
  | nil => rfl
  | cons c s ih =>
    have hc : c ≠ mark := fun heq => h (heq ▸ List.mem_cons_self)
    have hs : mark ∉ s := fun hmem => h (List.mem_cons_of_mem c hmem)
    rw [split_cons_of_ne hc, ih hs, List.modifyHead_cons]

/-- Texts with a mark between them are cut one after the other. -/
theorem split_append_mark (mark : Char) (s t : List Char) :
    split mark (s ++ mark :: t) = split mark s ++ split mark t := by
  induction s with
  | nil => rw [List.nil_append, split_cons_mark, split_nil, List.singleton_append]
  | cons c s ih =>
    rw [List.cons_append]
    by_cases hc : c = mark
    · rw [hc, split_cons_mark, split_cons_mark, ih, List.cons_append]
    · obtain ⟨part, parts, hs⟩ := List.exists_cons_of_ne_nil (split_ne_nil mark s)
      rw [split_cons_of_ne hc, split_cons_of_ne hc, ih, hs, List.cons_append, List.modifyHead_cons,
        List.modifyHead_cons, List.cons_append]

theorem of_mem_split {mark : Char} {s part : List Char} (h : part ∈ split mark s) :
    mark ∉ part ∧ ∀ c ∈ part, c ∈ s := by
  induction s generalizing part with
  | nil =>
    obtain rfl : part = [] := by simpa using h
    simp
  | cons c s ih =>
    obtain ⟨first, parts, hs⟩ := List.exists_cons_of_ne_nil (split_ne_nil mark s)
    rw [hs] at ih
    have hlater : ∀ other ∈ first :: parts, mark ∉ other ∧ ∀ d ∈ other, d ∈ c :: s :=
      fun other hmem => ⟨(ih hmem).1, fun d hd => List.mem_cons_of_mem c ((ih hmem).2 d hd)⟩
    by_cases hc : c = mark
    · subst hc
      rw [split_cons_mark, hs] at h
      rcases List.mem_cons.1 h with rfl | h
      · simp
      · exact hlater part h
    · rw [split_cons_of_ne hc, hs, List.modifyHead_cons] at h
      rcases List.mem_cons.1 h with rfl | h
      · obtain ⟨hmark, hmem⟩ := hlater first (List.mem_cons_self ..)
        simp only [List.mem_cons, not_or, forall_eq_or_imp, true_or, true_and]
        exact ⟨⟨Ne.symm hc, hmark⟩, fun d hd => List.mem_cons.1 (hmem d hd)⟩
      · exact hlater part (List.mem_cons_of_mem first h)

/-- What holds of the mark and in every part holds in the parts with the mark between them. -/
theorem forall_mem_intercalate {P : Char → Prop} {mark : Char} (hmark : P mark)
    {parts : List (List Char)} (h : ∀ part ∈ parts, ∀ c ∈ part, P c) :
    ∀ c ∈ [mark].intercalate parts, P c := by
  induction parts with
  | nil => simp
  | cons part parts ih =>
    obtain ⟨hpart, hparts⟩ := List.forall_mem_cons.1 h
    cases parts with
    | nil => simpa using hpart
    | cons next parts =>
      rw [List.intercalate_cons_cons]
      intro c hc
      rcases List.mem_append.1 hc with hc | hc
      · rcases List.mem_append.1 hc with hc | hc
        · exact hpart c hc
        · exact List.mem_singleton.1 hc ▸ hmark
      · exact ih hparts c hc

/-- The parts with the mark between them are the text. -/
theorem intercalate_split (mark : Char) (s : List Char) : [mark].intercalate (split mark s) = s := by
  induction s with
  | nil => simp
  | cons c s ih =>
    obtain ⟨part, parts, hs⟩ := List.exists_cons_of_ne_nil (split_ne_nil mark s)
    rw [hs] at ih
    by_cases h : c = mark
    · subst h
      rw [split_cons_mark, hs, List.intercalate_cons_cons, ih]
      rfl
    · rw [split_cons_of_ne h, hs, List.modifyHead_cons]
      cases parts with
      | nil => simpa using ih
      | cons next parts =>
        rw [List.intercalate_cons_cons] at ih ⊢
        rw [← ih]
        rfl

end LiveRuns.Text
