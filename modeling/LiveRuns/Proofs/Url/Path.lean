import LiveRuns.Proofs.Url.Percent
import LiveRuns.Url.Parser
import Mathlib

/-!
Paths of segments.

A path that has been read holds no slash inside a segment, `slashFree_readSegments`, so its segments
can be told from its text, `text_injective`.  A segment of characters that paths hold as they are,
other than the two of dots alone, is read as it stands, `readSegments_plain`.
-/

namespace LiveRuns.Url

def SlashFree (names : List String) : Prop := ∀ name ∈ names, '/' ∉ name.toList

/-! ## Texts -/

namespace Path

theorem text_cons (name : String) (names : List String) :
    (segments (name :: names)).text = '/' :: (name.toList ++ (segments names).text) := by
  simp [text]

theorem text_append (above names : List String) :
    (segments (above ++ names)).text = (segments above).text ++ (segments names).text := by
  simp [text]

theorem text_eq_join {names : List String} (h : names ≠ []) :
    (segments names).text = '/' :: ['/'].intercalate (names.map String.toList) := by
  obtain ⟨name, names, rfl⟩ := List.exists_cons_of_ne_nil h
  clear h
  induction names generalizing name with
  | nil => simp [text]
  | cons second names ih =>
    rw [text_cons, ih second]
    simp [List.intercalate]

theorem takeWhile_append_text {s : List Char} (h : '/' ∉ s) (names : List String) :
    (s ++ (segments names).text).takeWhile (· ≠ '/') = s := by
  have hall : ∀ c ∈ s, decide (c ≠ '/') = true := by
    intro c hc
    simp only [decide_eq_true_eq]
    rintro rfl
    exact h hc
  rw [List.takeWhile_append_of_pos hall]
  cases names with
  | nil => simp [text]
  | cons name names => simp [text_cons]

theorem text_injective {names names' : List String} (h : SlashFree names) (h' : SlashFree names')
    (heq : (segments names).text = (segments names').text) : names = names' := by
  induction names generalizing names' with
  | nil =>
    cases names' with
    | nil => rfl
    | cons name' names' =>
      rw [text_cons] at heq
      cases heq
  | cons name names ih =>
    cases names' with
    | nil =>
      rw [text_cons] at heq
      cases heq
    | cons name' names' =>
      obtain ⟨hname, hnames⟩ := List.forall_mem_cons.1 h
      obtain ⟨hname', hnames'⟩ := List.forall_mem_cons.1 h'
      rw [text_cons, text_cons] at heq
      have htail := List.tail_eq_of_cons_eq heq
      have hfirst : name.toList = name'.toList := by
        rw [← takeWhile_append_text hname names, htail, takeWhile_append_text hname' names']
      rw [hfirst] at htail
      rw [String.toList_injective hfirst, ih hnames hnames' (List.append_cancel_left htail)]

/-- A path ends in a slash if its last segment is empty. -/
theorem getLast?_text_iff {names : List String} (h : SlashFree names) :
    (segments names).text.getLast? = some '/' ↔ names.getLast? = some "" := by
  induction names using List.reverseRecOn with
  | nil => simp [text]
  | append_singleton names name _ =>
    have hname : '/' ∉ name.toList := h name (List.mem_append_right _ List.mem_cons_self)
    have htext : (segments (names ++ [name])).text =
        (segments names).text ++ '/' :: name.toList := by
      rw [text_append, text_cons]
      simp [text]
    rw [htext, List.getLast?_concat]
    rcases List.eq_nil_or_concat name.toList with hnil | ⟨front, c, hconcat⟩
    · have hempty : name = "" := String.toList_injective hnil
      simp [hempty]
    · have hc : c ≠ '/' := by
        rintro rfl
        exact hname (by simp [hconcat])
      have hne : name ≠ "" := by
        rintro rfl
        simp at hconcat
      have hlast : ('/' :: (front ++ [c])).getLast? = some c := by
        rw [← List.cons_append, List.getLast?_concat]
      simp [hconcat, hlast, hc, hne]

end Path

/-! ## Segments hold no slash -/

theorem SlashFree.concat {names : List String} (h : SlashFree names) {name : String}
    (hname : '/' ∉ name.toList) : SlashFree (names ++ [name]) := by
  refine List.forall_mem_append.2 ⟨h, ?_⟩
  simpa [List.forall_mem_cons] using hname

/-- Under other schemes than that of files a segment is added, left out or takes the last away. -/
theorem addSegment_cases (last : Bool) (above : List String) (segment : List Char) :
    addSegment false last above segment =
      if plainDots segment = ['.', '.'] then above.dropLast ++ (if last then [""] else [])
      else if plainDots segment = ['.'] then above ++ (if last then [""] else [])
      else above ++ [String.ofList (percentEncode pathSet segment)] := by
  cases last <;> simp [addSegment, dropSegment]

theorem slashFree_addSegment {above : List String} (h : SlashFree above) {segment : List Char}
    (hsegment : '/' ∉ segment) (last : Bool) : SlashFree (addSegment false last above segment) := by
  have hend : SlashFree (if last then [""] else []) := by
    cases last <;> simp [SlashFree]
  rw [addSegment_cases]
  by_cases hdots : plainDots segment = ['.', '.']
  · rw [if_pos hdots]
    have habove : SlashFree above.dropLast := fun name hname =>
      h name ((List.dropLast_sublist above).subset hname)
    exact List.forall_mem_append.2 ⟨habove, hend⟩
  · rw [if_neg hdots]
    by_cases hdot : plainDots segment = ['.']
    · rw [if_pos hdot]
      exact List.forall_mem_append.2 ⟨h, hend⟩
    · rw [if_neg hdot]
      refine h.concat ?_
      rw [String.toList_ofList]
      exact not_mem_percentEncode (by decide) fun hslash => absurd hslash hsegment

theorem slashFree_readSegments {special : Bool} {above : List String} (h : SlashFree above)
    {segment : List Char} (hsegment : '/' ∉ segment) (s : List Char) :
    SlashFree (readSegments special false above segment s).1 := by
  have hreverse {segment : List Char} (hsegment : '/' ∉ segment) : '/' ∉ segment.reverse := by
    simpa using hsegment
  -- The segment that is being read, held in reverse, has no slash so far.
  induction s generalizing above segment with
  | nil => exact slashFree_addSegment h (hreverse hsegment) true
  | cons c s ih =>
    rw [readSegments]
    split_ifs with hend hslash
    · exact slashFree_addSegment h (hreverse hsegment) true
    · exact ih (slashFree_addSegment h (hreverse hsegment) false) (by simp)
    · refine ih h ?_
      have hne : '/' ≠ c := fun heq => hslash (.inl heq.symm)
      simp [hne, hsegment]

/-! ## Plain segments -/

def isPathChar (c : Char) : Bool :=
  c.isAlphanum || c ∈ ['-', '.', '_', '~', '!', '$', '&', '\'', '(', ')', '*', '+', ',', ';', '=',
    ':', '@']

/-- A segment of such characters, other than one dot and two dots. -/
structure Plain (name : List Char) : Prop where
  ne_nil : name ≠ []
  chars : ∀ c ∈ name, isPathChar c = true
  ne_dot : name ≠ ['.']
  ne_dots : name ≠ ['.', '.']

theorem toNat_lt_of_isPathChar {c : Char} (h : isPathChar c = true) : c.toNat < 128 := by
  simp only [isPathChar, Bool.or_eq_true, decide_eq_true_eq] at h
  rcases h with h | h
  · simp only [Char.isAlphanum, Char.isAlpha, Char.isUpper, Char.isLower, Char.isDigit,
      Bool.or_eq_true, Bool.and_eq_true, decide_eq_true_eq, ge_iff_le, UInt32.le_iff_toNat_le] at h
    have : c.toNat = c.val.toNat := rfl
    simp at h
    omega
  · have hall : ∀ d ∈ ['-', '.', '_', '~', '!', '$', '&', '\'', '(', ')', '*', '+', ',', ';', '=',
        ':', '@'], d.toNat < 128 := by simp
    exact hall c h

/-- What holds of each of them has to be looked at for few characters only. -/
theorem forall_isPathChar {P : Char → Prop}
    (h : ∀ n < 128, isPathChar (Char.ofNat n) = true → P (Char.ofNat n)) {c : Char}
    (hc : isPathChar c = true) : P c := by
  have hnat : Char.ofNat c.toNat = c := Char.ofNat_toNat c
  have hchar := h c.toNat (toNat_lt_of_isPathChar hc)
  rw [hnat] at hchar
  exact hchar hc

theorem ne_mark_of_isPathChar {c : Char} (h : isPathChar c = true) :
    c ≠ '/' ∧ c ≠ '\\' ∧ c ≠ '?' ∧ c ≠ '#' :=
  forall_isPathChar (P := fun c => c ≠ '/' ∧ c ≠ '\\' ∧ c ≠ '?' ∧ c ≠ '#') (by decide) h

theorem pathSet_of_isPathChar {c : Char} (h : isPathChar c = true) : pathSet c = false :=
  forall_isPathChar (P := fun c => pathSet c = false) (by decide) h

theorem space_lt_of_isPathChar {c : Char} (h : isPathChar c = true) : ' ' < c :=
  forall_isPathChar (P := fun c => ' ' < c) (by decide) h

theorem plainDots_of_not_mem {s : List Char} (h : '%' ∉ s) : plainDots s = s := by
  fun_induction plainDots s with
  | case1 | case2 => simp at h
  | case3 c rest _ _ ih =>
    rw [ih fun hmem => h (List.mem_cons_of_mem c hmem)]
  | case4 => rfl

theorem percentEncode_of_forall {set : Char → Bool} {s : List Char} (h : ∀ c ∈ s, set c = false) :
    percentEncode set s = s := by
  induction s with
  | nil => rfl
  | cons c s ih =>
    obtain ⟨hc, hs⟩ := List.forall_mem_cons.1 h
    have hcons : percentEncode set (c :: s) = (if set c then escapedChar c else [c]) ++
        percentEncode set s := rfl
    rw [hcons, hc, ih hs]
    rfl

theorem addSegment_plain {name : String} (h : Plain name.toList) (last : Bool)
    (above : List String) : addSegment false last above name.toList = above ++ [name] := by
  have hpercent : '%' ∉ name.toList := fun hmem => absurd (h.chars '%' hmem) (by decide)
  have hencode : percentEncode pathSet name.toList = name.toList :=
    percentEncode_of_forall fun c hc => pathSet_of_isPathChar (h.chars c hc)
  rw [addSegment_cases, plainDots_of_not_mem hpercent, if_neg h.ne_dots, if_neg h.ne_dot, hencode,
    String.ofList_toList]

theorem Plain.mark_free {name : List Char} (h : Plain name) :
    ∀ c ∈ name, c ≠ '/' ∧ c ≠ '\\' ∧ c ≠ '?' ∧ c ≠ '#' := fun c hc =>
  ne_mark_of_isPathChar (h.chars c hc)

theorem Plain.exists_cons {name : List Char} (h : Plain name) :
    ∃ c more, name = c :: more ∧ isPathChar c = true := by
  obtain ⟨c, more, rfl⟩ := List.exists_cons_of_ne_nil h.ne_nil
  exact ⟨c, more, rfl, h.chars c List.mem_cons_self⟩

/-- Characters that end no segment are read into the current one. -/
theorem readSegments_append (special file : Bool) (above : List String) (seen : List Char)
    {s : List Char} (h : ∀ c ∈ s, c ≠ '/' ∧ c ≠ '\\' ∧ c ≠ '?' ∧ c ≠ '#') (rest : List Char) :
    readSegments special file above seen (s ++ rest) =
      readSegments special file above (s.reverse ++ seen) rest := by
  induction s generalizing seen with
  | nil => rfl
  | cons c s ih =>
    obtain ⟨⟨hslash, hback, hquery, hhash⟩, hs⟩ := List.forall_mem_cons.1 h
    rw [List.cons_append, readSegments, if_neg (by simp [hquery, hhash]),
      if_neg (by simp [hslash, hback]), ih _ hs]
    simp

theorem readSegments_last (special : Bool) {name : String} (h : Plain name.toList)
    (above : List String) :
    readSegments special false above [] name.toList = (above ++ [name], []) := by
  have hread := readSegments_append special false above [] h.mark_free []
  rw [List.append_nil] at hread
  rw [hread, readSegments, List.append_nil, List.reverse_reverse, addSegment_plain h]

theorem readSegments_slash (special : Bool) {name : String} (h : Plain name.toList)
    (above : List String) (rest : List Char) :
    readSegments special false above [] (name.toList ++ '/' :: rest) =
      readSegments special false (above ++ [name]) [] rest := by
  rw [readSegments_append special false above [] h.mark_free, readSegments, if_neg (by decide),
    if_pos (.inl rfl), List.append_nil, List.reverse_reverse, addSegment_plain h]

theorem readSegments_plain (special : Bool) {names : List String} (hne : names ≠ [])
    (h : ∀ name ∈ names, Plain name.toList) (above : List String) :
    readSegments special false above [] (['/'].intercalate (names.map String.toList)) =
      (above ++ names, []) := by
  obtain ⟨name, names, rfl⟩ := List.exists_cons_of_ne_nil hne
  clear hne
  induction names generalizing name above with
  | nil =>
    have hlast := readSegments_last special (h name List.mem_cons_self) above
    simpa [List.intercalate] using hlast
  | cons second names ih =>
    obtain ⟨hname, hnames⟩ := List.forall_mem_cons.1 h
    have hjoin : ['/'].intercalate ((name :: second :: names).map String.toList) =
        name.toList ++ '/' :: ['/'].intercalate ((second :: names).map String.toList) := by
      simp [List.intercalate]
    rw [hjoin, readSegments_slash special hname, ih (above ++ [name]) second hnames,
      List.append_assoc]
    rfl

end LiveRuns.Url
