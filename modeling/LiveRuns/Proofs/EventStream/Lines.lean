import LiveRuns.Proofs.EventStream.Whole

/-!
Lines and groups of bytes and of text.

A mark that ends a line is one ASCII byte and one character, so splitting and decoding commute: the
lines of the decoded text are the decoded lines of the bytes, `linesFrom_decode`, and so are the
groups.  A stream can therefore be split while it is bytes, `readWhole_eq`.
-/

namespace LiveRuns.EventStream

/-! ## One line -/

section

variable {α : Type} [DecidableEq α] {cr lf : α} {line rest : List α}

theorem linesFrom_lf (h : lf ≠ cr) (line rest : List α) :
    linesFrom cr lf line (lf :: rest) = line.reverse :: linesFrom cr lf [] rest := by
  rw [linesFrom, if_neg (fun hc => h hc.1), if_pos (.inr rfl)]

theorem linesFrom_cr (h : lf ≠ cr) (line rest : List α) :
    linesFrom cr lf line (cr :: rest) =
      line.reverse ::
        linesFrom cr lf [] (if rest.head? = some lf then rest.tail else rest) := by
  by_cases hpair : rest.head? = some lf
  · obtain ⟨rest, rfl⟩ := List.head?_eq_some_iff.mp hpair
    rw [linesFrom, if_pos ⟨rfl, hpair⟩, if_pos hpair, linesFrom_lf h]
    rfl
  · rw [linesFrom, if_neg (fun hc => hpair hc.2), if_pos (.inl rfl), if_neg hpair]

theorem linesFrom_of_ne {c : α} (hcr : c ≠ cr) (hlf : c ≠ lf) (line rest : List α) :
    linesFrom cr lf line (c :: rest) = linesFrom cr lf (c :: line) rest := by
  rw [linesFrom, if_neg (fun hc => hcr hc.1), if_neg (fun hc => hc.elim hcr hlf)]

theorem linesFrom_append {front : List α} (hcr : cr ∉ front) (hlf : lf ∉ front)
    (line rest : List α) :
    linesFrom cr lf line (front ++ rest) = linesFrom cr lf (front.reverse ++ line) rest := by
  induction front generalizing line with
  | nil => rfl
  | cons c front ih =>
    simp only [List.mem_cons, not_or] at hcr hlf
    rw [List.cons_append, linesFrom_of_ne (Ne.symm hcr.1) (Ne.symm hlf.1), ih hcr.2 hlf.2,
      List.reverse_cons, List.append_assoc]
    rfl

end

/-- The groups of lines that are translated one by one, if only empty lines become empty. -/
theorem groupsFrom_map {α β : Type} {f : List α → List β}
    (hf : ∀ line, f line = [] ↔ line = []) (group lines : List (List α)) :
    groupsFrom (group.map f) (lines.map f) = (groupsFrom group lines).map (List.map f) := by
  induction lines generalizing group with
  | nil => rfl
  | cons line lines ih =>
    simp only [List.map_cons, groupsFrom]
    by_cases h : line = []
    · rw [if_pos h, if_pos ((hf line).mpr h), List.map_cons, List.map_reverse]
      exact congrArg _ (ih [])
    · rw [if_neg h, if_neg (fun hc => h ((hf line).mp hc))]
      exact ih (line :: group)

/-! ## Decoded marks -/

theorem decode_append_lf (first second : List UInt8) :
    Utf8.decode (first ++ lf :: second) =
      Utf8.decode first ++ '\n' :: Utf8.decode second :=
  Utf8.decode_append_ascii first second (by decide)

theorem decode_append_cr (first second : List UInt8) :
    Utf8.decode (first ++ cr :: second) =
      Utf8.decode first ++ '\r' :: Utf8.decode second :=
  Utf8.decode_append_ascii first second (by decide)

theorem lf_not_mem_decode {bytes : List UInt8} (h : lf ∉ bytes) : '\n' ∉ Utf8.decode bytes := by
  intro hmem
  obtain ⟨b, hb, heq⟩ := Utf8.exists_of_mem_decode (by constructor <;> decide) hmem
  obtain rfl : lf = b := UInt8.toNat_inj.mp heq
  exact h hb

theorem cr_not_mem_decode {bytes : List UInt8} (h : cr ∉ bytes) : '\r' ∉ Utf8.decode bytes := by
  intro hmem
  obtain ⟨b, hb, heq⟩ := Utf8.exists_of_mem_decode (by constructor <;> decide) hmem
  obtain rfl : cr = b := UInt8.toNat_inj.mp heq
  exact h hb

theorem head_decode_eq_lf_iff {bytes : List UInt8} :
    (Utf8.decode bytes).head? = some '\n' ↔ bytes.head? = some lf := by
  constructor
  · intro h
    by_cases hmem : lf ∈ bytes
    · -- What stands before the first line feed is empty, since its text has none.
      obtain ⟨front, rest, rfl, hfront⟩ := List.eq_append_cons_of_mem hmem
      rw [decode_append_lf] at h
      cases hdecoded : Utf8.decode front with
      | nil =>
        rw [Utf8.decode_eq_nil_iff.mp hdecoded]
        rfl
      | cons c text =>
        rw [hdecoded] at h
        obtain rfl : c = '\n' := Option.some.inj h
        exact absurd (hdecoded ▸ List.mem_cons_self) (lf_not_mem_decode hfront)
    · exact absurd (List.mem_of_mem_head? h) (lf_not_mem_decode hmem)
  · intro h
    obtain ⟨rest, rfl⟩ := List.head?_eq_some_iff.mp h
    rw [← List.nil_append (lf :: rest), decode_append_lf]
    rfl

/-! ## Splitting and decoding -/

/-- The lines of a decoded text are the decoded lines of its bytes. -/
theorem linesFrom_decode {line : List UInt8} (hcr : cr ∉ line) (hlf : lf ∉ line)
    (bytes : List UInt8) :
    linesFrom '\r' '\n' [] (Utf8.decode (line ++ bytes)) =
      (linesFrom cr lf line.reverse bytes).map Utf8.decode := by
  -- The unfinished line stays bytes, since it may end within a character.
  induction bytes generalizing line with
  | nil =>
    have htext := linesFrom_append (cr_not_mem_decode hcr) (lf_not_mem_decode hlf) [] []
    rw [List.append_nil] at htext ⊢
    rw [htext]
    rfl
  | cons b rest ih =>
    have hfront : ∀ text, linesFrom '\r' '\n' [] (Utf8.decode line ++ text) =
        linesFrom '\r' '\n' (Utf8.decode line).reverse text := by
      intro text
      rw [linesFrom_append (cr_not_mem_decode hcr) (lf_not_mem_decode hlf), List.append_nil]
    have hnext : linesFrom '\r' '\n' [] (Utf8.decode rest) =
        (linesFrom cr lf [] rest).map Utf8.decode := by
      simpa using @ih [] List.not_mem_nil List.not_mem_nil
    by_cases hbcr : b = cr
    · subst hbcr
      rw [decode_append_cr, hfront]
      by_cases hpair : rest.head? = some lf
      · -- Both carriage returns are passed over, and the line feeds end the line.
        obtain ⟨after, rfl⟩ := List.head?_eq_some_iff.mp hpair
        have hline := ih hcr hlf
        rw [decode_append_lf, hfront] at hline
        rw [linesFrom, linesFrom, if_pos ⟨rfl, head_decode_eq_lf_iff.mpr hpair⟩,
          if_pos ⟨rfl, hpair⟩, ← hline, ← List.nil_append (lf :: after), decode_append_lf]
        rfl
      · have htext : (Utf8.decode rest).head? ≠ some '\n' :=
          fun h => hpair (head_decode_eq_lf_iff.mp h)
        rw [linesFrom_cr (by decide), linesFrom_cr (by decide), if_neg htext, if_neg hpair,
          hnext, List.map_cons, List.reverse_reverse, List.reverse_reverse]
    · by_cases hblf : b = lf
      · subst hblf
        rw [decode_append_lf, hfront, linesFrom_lf (by decide), linesFrom_lf (by decide), hnext,
          List.map_cons, List.reverse_reverse, List.reverse_reverse]
      · have hstep := @ih (line ++ [b])
          (by simpa using ⟨hcr, Ne.symm hbcr⟩) (by simpa using ⟨hlf, Ne.symm hblf⟩)
        rw [List.append_assoc, List.singleton_append, List.reverse_append] at hstep
        rw [hstep, linesFrom_of_ne hbcr hblf]
        rfl

/-- A stream may be split into lines and groups while it is bytes. -/
theorem readWhole_eq (bytes : List UInt8) :
    readWhole bytes =
      (groupsFrom [] (linesFrom cr lf [] bytes)).filterMap
        (fun group => Frame.ofGroup (group.map Utf8.decode)) := by
  have hlines := @linesFrom_decode [] List.not_mem_nil List.not_mem_nil bytes
  rw [List.nil_append, List.reverse_nil] at hlines
  have hgroups := groupsFrom_map (fun line => Utf8.decode_eq_nil_iff) []
    (linesFrom cr lf [] bytes)
  rw [List.map_nil] at hgroups
  rw [readWhole, hlines, hgroups, List.filterMap_map]
  rfl

end LiveRuns.EventStream
