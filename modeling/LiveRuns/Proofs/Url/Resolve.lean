import LiveRuns.Proofs.Except
import LiveRuns.Proofs.Url.Path
import LiveRuns.Url.Endpoint
import Mathlib.Data.List.DropRight

/-!
Texts resolved against a base.

A URL under one of the schemes that servers are asked by has a path of segments,
`exists_segments_of_ofText`, so every text without a scheme can be resolved against it.  Unless such
a text starts with a slash it is read onto the path of the base, `resolveRelative_path`, and never
leaves its server, `join_server`.
-/

namespace LiveRuns.Url

/-! ## URLs that have been read -/

@[simp] theorem complete_path (scheme : String) (authority : Option Authority)
    (path : Path × List Char) : (complete scheme authority path).path = path.1 := rfl

theorem exists_complete_of_readAfterSlashes {scheme : String} {s : List Char} {u : Url}
    (h : readAfterSlashes scheme s = .ok u) :
    ∃ authority rest, u = complete scheme (some authority) (readPathStart scheme rest) := by
  unfold readAfterSlashes at h
  obtain ⟨⟨authority, rest⟩, -, h⟩ := bind_eq_ok.1 h
  cases h
  exact ⟨authority, rest, rfl⟩

theorem scheme_of_readFileHost {s : List Char} {u : Url} (h : readFileHost s = .ok u) :
    u.scheme = "file" := by
  unfold readFileHost at h
  simp only at h
  split_ifs at h
  · cases h
    rfl
  · cases h
    rfl
  · obtain ⟨host, -, h⟩ := bind_eq_ok.1 h
    cases h
    rfl

theorem scheme_of_resolveFile {s : List Char} {u : Url} (h : resolveFile none s = .ok u) :
    u.scheme = "file" := by
  have hwithin (s : List Char) (h : resolveFile.resolveWithin none s = .ok u) :
      u.scheme = "file" := by
    unfold resolveFile.resolveWithin at h
    split at h
    · simp only at h
      split_ifs at h <;> cases h <;> rfl
    · simp only at h
      split_ifs at h <;> cases h <;> rfl
    · cases h
      rfl
    · simp_all
  unfold resolveFile at h
  split at h
  · simp only at h
    split_ifs at h
    · exact scheme_of_readFileHost h
    · exact hwithin _ h
  · exact hwithin _ h

/-- A text that is read alone has the scheme that stands in front. -/
theorem scheme_of_readWithScheme {scheme : String} {s : List Char} {u : Url}
    (h : readWithScheme none scheme s = .ok u) : u.scheme = scheme := by
  unfold readWithScheme at h
  simp only [Option.filter_none] at h
  split_ifs at h with hfile hspecial
  · rw [hfile]
    exact scheme_of_resolveFile h
  · obtain ⟨authority, rest, rfl⟩ := exists_complete_of_readAfterSlashes h
    rfl
  · split at h
    · obtain ⟨authority, rest, rfl⟩ := exists_complete_of_readAfterSlashes h
      rfl
    · cases h
      rfl
    · cases h
      rfl

/-- Under the other special schemes a path is read as segments whatever it starts with. -/
theorem exists_readPath_of_isSpecial {scheme : String} (h : isSpecial scheme = true)
    (s : List Char) : ∃ rest, readPathStart scheme s = readPath scheme [] rest := by
  unfold readPathStart
  split
  · exact ⟨_, rfl⟩
  · exact ⟨_, if_pos h⟩
  · exact ⟨_, if_pos h⟩
  · refine ⟨_, if_neg ?_⟩
    exact fun hnot => hnot.1 h

theorem readPath_eq {scheme : String} (h : scheme ≠ "file") (above : List String)
    (s : List Char) :
    readPath scheme above s =
      (.segments (readSegments (isSpecial scheme) false above [] s).1,
        (readSegments (isSpecial scheme) false above [] s).2) := by
  simp [readPath, h]

theorem special_of_http {scheme : String} (h : scheme = "http" ∨ scheme = "https") :
    isSpecial scheme = true ∧ scheme ≠ "file" := by
  rcases h with rfl | rfl <;> decide

/-- A URL that servers are asked by has a path of segments without slashes. -/
theorem exists_segments_of_ofText {text : String} {base : Url} (h : ofText text = .ok base)
    (hscheme : base.scheme = "http" ∨ base.scheme = "https") :
    ∃ names, base.path = .segments names ∧ SlashFree names := by
  obtain ⟨hspecial, hfile⟩ := special_of_http hscheme
  unfold ofText read at h
  simp only at h
  split at h
  · rename_i scheme rest _
    obtain rfl := scheme_of_readWithScheme h
    unfold readWithScheme at h
    simp only [Option.filter_none, if_neg hfile, if_pos hspecial] at h
    obtain ⟨authority, rest, hbase⟩ := exists_complete_of_readAfterSlashes h
    obtain ⟨s, hpath⟩ := exists_readPath_of_isSpecial hspecial rest
    rw [hpath, readPath_eq hfile] at hbase
    refine ⟨(readSegments (isSpecial base.scheme) false [] [] s).1, ?_, ?_⟩
    · rw [hbase]
      rfl
    · exact slashFree_readSegments (by simp [SlashFree]) (by simp) s
  · cases h

/-! ## Texts without a scheme -/

def StartsWithScheme (s : List Char) : Prop :=
  ∃ first more rest, s = first :: (more ++ ':' :: rest) ∧ first.isAlpha = true ∧
    ∀ c ∈ more, isSchemeChar c = true

theorem readScheme?_eq_none {s : List Char} (h : ¬ StartsWithScheme s) : readScheme? s = none := by
  unfold readScheme?
  simp only
  split
  · rename_i first more rest htake hdrop
    refine if_neg fun hfirst => h ⟨first, more, rest, ?_, hfirst, fun c hc => ?_⟩
    · have hsplit := List.take_append_drop (s.takeWhile isSchemeChar).length s
      have htaken : s.take (s.takeWhile isSchemeChar).length = s.takeWhile isSchemeChar :=
        (List.prefix_iff_eq_take.1 (List.takeWhile_prefix isSchemeChar)).symm
      rw [htaken, hdrop, htake] at hsplit
      exact hsplit.symm
    · have hmem : c ∈ s.takeWhile isSchemeChar := htake ▸ List.mem_cons_of_mem first hc
      exact List.mem_takeWhile_imp hmem
  · rfl

/-- Whether a character is no mark that ends the first segment of a text. -/
def inFirst (c : Char) : Bool := c ≠ '/' && c ≠ '?' && c ≠ '#'

theorem inFirst_of_isSchemeChar {c : Char} (h : isSchemeChar c = true) : inFirst c = true := by
  simp only [inFirst, Bool.and_eq_true, decide_eq_true_eq]
  refine ⟨⟨?_, ?_⟩, ?_⟩ <;> rintro rfl <;> exact absurd h (by decide)

/-- Where a mark ends a text that neither a scheme nor its colon holds, it ends behind them. -/
theorem takeWhile_scheme {p : Char → Bool} (hscheme : ∀ c, isSchemeChar c = true → p c = true)
    (hcolon : p ':' = true) {first : Char} {more : List Char} (hfirst : first.isAlpha = true)
    (hmore : ∀ c ∈ more, isSchemeChar c = true) (rest : List Char) :
    (first :: (more ++ ':' :: rest)).takeWhile p =
      first :: (more ++ ':' :: rest.takeWhile p) := by
  have hletter : isSchemeChar first = true := by simp [isSchemeChar, Char.isAlphanum, hfirst]
  rw [List.takeWhile_cons_of_pos (hscheme first hletter),
    List.takeWhile_append_of_pos fun c hc => hscheme c (hmore c hc),
    List.takeWhile_cons_of_pos hcolon]

/-- The colon of a scheme stands in the first segment. -/
theorem colon_mem_of_startsWithScheme {s : List Char} (h : StartsWithScheme s) (tail : List Char) :
    ':' ∈ (s ++ tail).takeWhile inFirst := by
  obtain ⟨first, more, rest, rfl, hfirst, hmore⟩ := h
  have htake := takeWhile_scheme (fun _ => inFirst_of_isSchemeChar) (by decide) hfirst hmore
    (rest ++ tail)
  rw [List.cons_append, List.append_assoc, List.cons_append, htake]
  simp

/-! ## Blanks around a text -/

/-- A text that starts with no blank and holds no tab and no line end is only cut at its end. -/
theorem tidy_prefix {s : List Char} (hhead : ∀ c ∈ s.head?, ¬ c ≤ ' ')
    (hfree : ∀ c ∈ s, c ≠ '\t' ∧ c ≠ '\n' ∧ c ≠ '\r') : tidy s <+: s := by
  have hkept : s.dropWhile (fun c => decide (c ≤ ' ')) = s := by
    cases s with
    | nil => rfl
    | cons c s => rw [List.dropWhile_cons_of_neg (by simpa using hhead c rfl)]
  have hcut := List.rdropWhile_prefix (fun c => decide (c ≤ ' ')) s
  rw [tidy, hkept]
  rw [List.filter_eq_self.2]
  · exact hcut
  · intro c hc
    have hmem : c ∈ s := hcut.subset hc
    simp [hfree c hmem]

/-- A text without controls and spaces is not changed. -/
theorem tidy_of_forall {s : List Char} (h : ∀ c ∈ s, ' ' < c) : tidy s = s := by
  have hkept {s : List Char} (h : ∀ c ∈ s, ' ' < c) :
      s.dropWhile (fun c => decide (c ≤ ' ')) = s := by
    cases s with
    | nil => rfl
    | cons c s =>
      have hc : ¬ c ≤ ' ' := Char.not_le.2 (h c List.mem_cons_self)
      rw [List.dropWhile_cons_of_neg (by simpa using hc)]
  have hreverse : ∀ c ∈ s.reverse, ' ' < c := fun c hc => h c (List.mem_reverse.1 hc)
  rw [tidy, hkept h, hkept hreverse, List.reverse_reverse, List.filter_eq_self.2]
  intro c hc
  have hplain : c ≠ '\t' ∧ c ≠ '\n' ∧ c ≠ '\r' := by
    refine ⟨?_, ?_, ?_⟩ <;> rintro rfl <;> exact absurd (h _ hc) (by decide)
  simp [hplain]

/-! ## Resolving -/

theorem resolveTail?_eq_none (base : Url) {c : Char} (h : c ≠ '?' ∧ c ≠ '#') (s : List Char) :
    resolveTail? base (c :: s) = none := by
  unfold resolveTail?
  split <;> simp_all

/-- A text that starts with no mark is read onto the path of the base. -/
theorem resolveRelative_path (base : Url) {c : Char}
    (h : c ≠ '/' ∧ c ≠ '\\' ∧ c ≠ '?' ∧ c ≠ '#') (s : List Char) :
    resolveRelative base (c :: s) =
      .ok (complete base.scheme base.authority
        (readPath base.scheme (aboveLast base) (c :: s))) := by
  obtain ⟨hslash, hback, hquery, hhash⟩ := h
  unfold resolveRelative
  rw [resolveTail?_eq_none base ⟨hquery, hhash⟩]
  simp only
  split
  · simp_all
  · simp_all
  · simp_all
  · simp_all

theorem join_eq {base : Url} {names : List String} (hpath : base.path = .segments names)
    (hfile : base.scheme ≠ "file") {text : String} (hscheme : readScheme? (tidy text.toList) = none)
    (hhash : (tidy text.toList).head? ≠ some '#') :
    base.join text = resolveRelative base (tidy text.toList) := by
  have hbase : base.isHierarchical = true := by rw [isHierarchical, hpath]
  unfold join read
  simp only [hscheme]
  rw [if_neg hhash, if_neg (by simp [hbase]), if_neg hfile]

/-- A text without a scheme, which starts with no slash, is read on the server of the base. -/
theorem join_server {base : Url} {names : List String} (hpath : base.path = .segments names)
    (hfile : base.scheme ≠ "file") {text : String} (hscheme : readScheme? (tidy text.toList) = none)
    (hhead : ∀ c ∈ (tidy text.toList).head?, c ≠ '/' ∧ c ≠ '\\') :
    ∃ u, base.join text = .ok u ∧ u.scheme = base.scheme ∧ u.authority = base.authority := by
  by_cases hhash : (tidy text.toList).head? = some '#'
  · unfold join read
    simp only [hscheme, if_pos hhash]
    exact ⟨_, rfl, rfl, rfl⟩
  · rw [join_eq hpath hfile hscheme hhash]
    generalize tidy text.toList = s at *
    cases s with
    | nil => exact ⟨_, rfl, rfl, rfl⟩
    | cons c s =>
      obtain ⟨hslash, hback⟩ := hhead c rfl
      by_cases hquery : c = '?'
      · subst hquery
        exact ⟨_, rfl, rfl, rfl⟩
      · rw [resolveRelative_path base ⟨hslash, hback, hquery, by simpa using hhash⟩]
        exact ⟨_, rfl, rfl, rfl⟩

/-! ## Directories -/

def directoryText (path : List Char) : List Char :=
  if path.getLast? = some '/' then path else path ++ ['/']

theorem asDirectory_eq {base : Url} {names : List String} (hpath : base.path = .segments names) :
    base.asDirectory = { base with
      path := .segments (if names.getLast? = some "" then names else names ++ [""]) } := by
  rw [asDirectory, hpath]
  simp only
  split_ifs
  · rw [← hpath]
  · rfl

@[simp] theorem asDirectory_scheme (base : Url) : base.asDirectory.scheme = base.scheme := by
  unfold asDirectory
  split <;> split_ifs <;> rfl

@[simp] theorem asDirectory_authority (base : Url) :
    base.asDirectory.authority = base.authority := by
  unfold asDirectory
  split <;> split_ifs <;> rfl

/-- A base read as a directory has an empty segment at its end, and the text of its path is that of
the base with a slash at its end. -/
theorem exists_above {base : Url} {names : List String} (hpath : base.path = .segments names)
    (hfree : SlashFree names) :
    ∃ above, base.asDirectory.path = .segments (above ++ [""]) ∧
      directoryText base.path.text = (Path.segments above).text ++ ['/'] := by
  have hslash : (Path.segments [""]).text = ['/'] := by simp [Path.text]
  have hlast := Path.getLast?_text_iff hfree
  rw [asDirectory_eq hpath, hpath, directoryText]
  by_cases hempty : names.getLast? = some ""
  · obtain ⟨above, rfl⟩ := List.getLast?_eq_some_iff.1 hempty
    refine ⟨above, ?_, ?_⟩
    · rw [if_pos hempty]
    · rw [if_pos (hlast.2 hempty), Path.text_append, hslash]
  · refine ⟨names, ?_, ?_⟩
    · rw [if_neg hempty]
    · rw [if_neg (mt hlast.1 hempty)]

/-- A slash at the end of the path of a base does not matter. -/
theorem asDirectory_of_slash {base base' : Url} {names names' : List String}
    (hpath : base.path = .segments names) (hfree : SlashFree names)
    (hpath' : base'.path = .segments names') (hfree' : SlashFree names')
    (hrest : { base with path := base'.path } = base')
    (hlast : base.path.text.getLast? ≠ some '/')
    (htext : base'.path.text = base.path.text ++ ['/']) :
    base'.asDirectory = base.asDirectory := by
  have hslash : (Path.segments (names ++ [""])).text = base.path.text ++ ['/'] := by
    rw [Path.text_append, hpath]
    simp [Path.text]
  have hnames : names' = names ++ [""] := by
    refine Path.text_injective hfree' (hfree.concat (by simp)) ?_
    rw [hslash, ← htext, hpath']
  have hopen : names.getLast? ≠ some "" := by
    rw [hpath] at hlast
    exact mt (Path.getLast?_text_iff hfree).2 hlast
  have hclosed : (names ++ [""]).getLast? = some "" := List.getLast?_concat
  rw [asDirectory_eq hpath, asDirectory_eq hpath', hnames, if_pos hclosed, if_neg hopen, ← hrest]

end LiveRuns.Url
