import LiveRuns.Proofs.Url.Resolve

/-!
Hosts and paths hold no marks.

In the text of a URL a `?` begins the query and a `#` the fragment.  Neither is ever read into a
host or a path: a host holds no character that is forbidden in hosts, and a path escapes both.  So
the text of every host and of every path that has been read is `Unmarked`.
-/

namespace LiveRuns.Url

/-! ## Texts without marks -/

/-- Neither a query nor a fragment begins inside a text. -/
def Unmarked (s : List Char) : Prop := ∀ c ∈ s, c ≠ '?' ∧ c ≠ '#'

theorem unmarked_nil : Unmarked [] := nofun

theorem Unmarked.append {s t : List Char} (hs : Unmarked s) (ht : Unmarked t) :
    Unmarked (s ++ t) := List.forall_mem_append.2 ⟨hs, ht⟩

theorem Unmarked.cons {c : Char} {s : List Char} (hc : c ≠ '?' ∧ c ≠ '#') (hs : Unmarked s) :
    Unmarked (c :: s) := List.forall_mem_cons.2 ⟨hc, hs⟩

theorem unmarked_iff {s : List Char} : Unmarked s ↔ '?' ∉ s ∧ '#' ∉ s := by
  constructor
  · intro h
    exact ⟨fun hmem => (h _ hmem).1 rfl, fun hmem => (h _ hmem).2 rfl⟩
  · rintro ⟨hquery, hhash⟩ c hc
    exact ⟨fun heq => hquery (heq ▸ hc), fun heq => hhash (heq ▸ hc)⟩

/-- A text is unmarked if the marks are refused and nothing in it is. -/
theorem unmarked_of_not_any {refused : Char → Bool} {s : List Char} (h : ¬ s.any refused = true)
    (hmarks : refused '?' = true ∧ refused '#' = true) : Unmarked s := by
  rw [List.any_eq_true] at h
  exact unmarked_iff.2 ⟨fun hmem => h ⟨_, hmem, hmarks.1⟩, fun hmem => h ⟨_, hmem, hmarks.2⟩⟩

/-- Escaping leaves no mark of the set, and adds none. -/
theorem unmarked_percentEncode {set : Char → Bool} {s : List Char}
    (h : Unmarked s ∨ set '?' = true ∧ set '#' = true) : Unmarked (percentEncode set s) := by
  refine unmarked_iff.2 ⟨?_, ?_⟩
  · refine not_mem_percentEncode (by decide) fun hmem => ?_
    rcases h with h | h
    · exact absurd rfl (h _ hmem).1
    · exact h.1
  · refine not_mem_percentEncode (by decide) fun hmem => ?_
    rcases h with h | h
    · exact absurd rfl (h _ hmem).2
    · exact h.2

theorem not_mem_toDigits {base : Nat} (hbase : 1 < base) {c : Char}
    (hc : ∀ n, Nat.digitChar n ≠ c) (n : Nat) : c ∉ Nat.toDigits base n := by
  induction n using Nat.strongRecOn with
  | _ n ih =>
    rw [Nat.toDigits_eq_if hbase]
    split_ifs with hsmall
    · simpa using (hc n).symm
    · have hless : n / base < n := Nat.div_lt_self (by omega) hbase
      simpa [ih _ hless] using (hc (n % base)).symm

theorem unmarked_toDigits {base : Nat} (hbase : 1 < base) (n : Nat) :
    Unmarked (Nat.toDigits base n) :=
  unmarked_iff.2 ⟨not_mem_toDigits hbase (fun _ => Nat.digitChar_ne _ (by decide)) n,
    not_mem_toDigits hbase (fun _ => Nat.digitChar_ne _ (by decide)) n⟩

/-! ## Hosts -/

theorem unmarked_ipv4Text (n : Nat) : Unmarked (ipv4Text n) := by
  have hbyte (i : Nat) : Unmarked (Nat.toDigits 10 (n / Nat.pow 256 i % 256)) :=
    unmarked_toDigits (by decide) _
  have hdot : '.' ≠ '?' ∧ '.' ≠ '#' := by decide
  exact (((hbyte 3).append (.cons hdot (hbyte 2))).append (.cons hdot (hbyte 1))).append
    (.cons hdot (hbyte 0))

theorem unmarked_groupsText (pieces : List Nat) : Unmarked (groupsText pieces) := by
  refine Text.forall_mem_intercalate (by decide) (List.forall_mem_map.2 fun piece _ => ?_)
  exact unmarked_toDigits (by decide) piece

theorem unmarked_ipv6Text (pieces : List Nat) : Unmarked (ipv6Text pieces) := by
  unfold ipv6Text
  simp only
  split_ifs
  · exact unmarked_groupsText pieces
  · exact (unmarked_groupsText _).append (.cons (by decide) (.cons (by decide)
      (unmarked_groupsText _)))

theorem unmarked_bracketed {s : List Char} {host : Host} (h : bracketed s = .ok host) :
    Unmarked host.text := by
  unfold bracketed at h
  split_ifs at h
  split at h
  · cases h
    exact .cons (by decide) ((unmarked_ipv6Text _).append (.cons (by decide) unmarked_nil))
  · cases h

theorem unmarked_specialHost {s : List Char} {host : Host} (h : specialHost s = .ok host) :
    Unmarked host.text := by
  unfold specialHost at h
  split_ifs at h with hbracket
  · exact unmarked_bracketed h
  split at h
  · cases h
  simp only at h
  split_ifs at h with hforbidden hempty hnumber
  · split at h
    · cases h
      exact unmarked_ipv4Text _
    · cases h
  · cases h
    rw [Host.text, String.toList_ofList]
    exact unmarked_of_not_any hforbidden (by decide)

theorem unmarked_plainHost {s : List Char} {host : Host} (h : plainHost s = .ok host) :
    Unmarked host.text := by
  unfold plainHost at h
  split_ifs at h with hbracket hforbidden hempty
  · exact unmarked_bracketed h
  · cases h
    exact unmarked_nil
  · cases h
    rw [Host.text, String.toList_ofList]
    exact unmarked_percentEncode (.inl (unmarked_of_not_any hforbidden (by decide)))

/-- The host of an authority is one of the two kinds. -/
theorem exists_host_of_readAuthority {scheme : String} {s rest : List Char} {a : Authority}
    (h : readAuthority scheme s = .ok (a, rest)) :
    ∃ t, specialHost t = .ok a.host ∨ plainHost t = .ok a.host := by
  unfold readAuthority at h
  -- What is read after the user, after the host and after the port, each within the one before.
  extract_lets special whole server at h
  have hserver (x : List Char × List Char) (h : server x = .ok (a, rest)) :
      ∃ t, specialHost t = .ok a.host ∨ plainHost t = .ok a.host := by
    replace h := (of_guard h).2
    extract_lets withHost at h
    have hwithHost (host : Host) (h : withHost host = .ok (a, rest)) : a.host = host := by
      replace h := (of_guard h).2
      extract_lets withPort at h
      have hwithPort (x : Option Nat × List Char) (h : withPort x = .ok (a, rest)) :
          a.host = host := by
        replace h := (of_guard h).2
        cases h
        rfl
      simp only at h
      split at h
      · obtain ⟨x, -, h⟩ := bind_eq_ok.1 h
        exact hwithPort x h
      · exact hwithPort (none, _) h
    simp only at h
    split at h
    · obtain ⟨host, hspecial, h⟩ := bind_eq_ok.1 h
      exact ⟨_, .inl (hwithHost host h ▸ hspecial)⟩
    · obtain ⟨host, hplain, h⟩ := bind_eq_ok.1 h
      exact ⟨_, .inr (hwithHost host h ▸ hplain)⟩
  split at h
  · exact hserver ([], s) h
  · rename_i user _ _
    exact hserver (user, _) (of_guard h).2

theorem unmarked_readAuthority {scheme : String} {s rest : List Char} {a : Authority}
    (h : readAuthority scheme s = .ok (a, rest)) : Unmarked a.host.text := by
  obtain ⟨t, hspecial | hplain⟩ := exists_host_of_readAuthority h
  · exact unmarked_specialHost hspecial
  · exact unmarked_plainHost hplain

/-! ## Paths -/

theorem unmarked_segments {names : List String} :
    Unmarked (Path.segments names).text ↔ ∀ name ∈ names, Unmarked name.toList := by
  constructor
  · intro h name hname c hc
    exact h c (List.mem_flatMap.2 ⟨name, hname, List.mem_cons_of_mem _ hc⟩)
  · intro h c hc
    obtain ⟨name, hname, hmem⟩ := List.mem_flatMap.1 hc
    rcases List.mem_cons.1 hmem with rfl | hmem
    · decide
    · exact h name hname c hmem

abbrev UnmarkedNames (names : List String) : Prop := ∀ name ∈ names, Unmarked name.toList

theorem unmarkedNames_nil : UnmarkedNames [] := List.forall_mem_nil _

theorem UnmarkedNames.sublist {names names' : List String} (h : UnmarkedNames names)
    (hsub : names'.Sublist names) : UnmarkedNames names' := fun name hname =>
  h name (hsub.subset hname)

theorem UnmarkedNames.concat {names : List String} (h : UnmarkedNames names) {s : List Char}
    (hs : Unmarked s) : UnmarkedNames (names ++ [String.ofList s]) := by
  refine List.forall_mem_append.2 ⟨h, ?_⟩
  simpa [List.forall_mem_cons] using hs

theorem dropSegment_sublist (file : Bool) (above : List String) :
    (dropSegment file above).Sublist above := by
  unfold dropSegment
  split
  · split_ifs
    · exact List.Sublist.refl _
    · exact List.nil_sublist _
  · exact List.dropLast_sublist _

theorem exists_of_isDrive {segment : List Char} (h : isDrive segment = true) :
    ∃ letter mark, segment = [letter, mark] ∧ letter.isAlpha = true := by
  unfold isDrive at h
  split at h
  · rename_i letter mark
    exact ⟨letter, mark, rfl, (Bool.and_eq_true_iff.1 h).1⟩
  · cases h

/-- A segment of any characters adds no mark, since a path escapes both. -/
theorem unmarked_addSegment {above : List String} (h : UnmarkedNames above) (file last : Bool)
    (segment : List Char) : UnmarkedNames (addSegment file last above segment) := by
  have hnil : String.ofList [] = "" := rfl
  have hdrop := h.sublist (dropSegment_sublist file above)
  unfold addSegment
  simp only
  split_ifs with hdots hlast hdot hlast hdrive
  · exact hdrop.concat unmarked_nil
  · exact hdrop
  · exact h.concat unmarked_nil
  · exact h
  · simp only [Bool.and_eq_true] at hdrive
    obtain ⟨letter, mark, rfl, halpha⟩ := exists_of_isDrive hdrive.2
    refine unmarkedNames_nil.concat (.cons ?_ (.cons (by decide) unmarked_nil))
    constructor
    · rintro rfl
      exact absurd halpha (by decide)
    · rintro rfl
      exact absurd halpha (by decide)
  · exact h.concat (unmarked_percentEncode (.inr (by decide)))

theorem unmarked_readSegments {above : List String} (h : UnmarkedNames above)
    (special file : Bool) (segment s : List Char) :
    UnmarkedNames (readSegments special file above segment s).1 := by
  -- The segment that is being read may hold anything, and only the names above it matter.
  induction s generalizing above segment with
  | nil => exact unmarked_addSegment h file true segment.reverse
  | cons c s ih =>
    rw [readSegments]
    split_ifs
    · exact unmarked_addSegment h file true segment.reverse
    · exact ih (unmarked_addSegment h file false segment.reverse) []
    · exact ih h (c :: segment)

theorem trimFilePath_sublist (names : List String) : (trimFilePath names).Sublist names := by
  fun_induction trimFilePath names with
  | case1 name names ih => exact ih.trans (List.sublist_cons_self "" (name :: names))
  | case2 names => exact List.Sublist.refl names

theorem unmarked_readPath {above : List String} (h : UnmarkedNames above) (scheme : String)
    (s : List Char) : Unmarked (readPath scheme above s).1.text := by
  have hnames := unmarked_readSegments h (isSpecial scheme) (scheme = "file") [] s
  unfold readPath
  simp only
  refine unmarked_segments.2 ?_
  split_ifs
  · exact hnames.sublist (trimFilePath_sublist _)
  · exact hnames

theorem unmarked_readPathStart (scheme : String) (s : List Char) :
    Unmarked (readPathStart scheme s).1.text := by
  have hread (s : List Char) : Unmarked (readPath scheme [] s).1.text :=
    unmarked_readPath unmarkedNames_nil scheme s
  have hnone : Unmarked (Path.segments []).text := unmarked_nil
  unfold readPathStart
  split
  · exact hread _
  · split_ifs
    · exact hread _
    · exact hread _
  · split_ifs
    · exact hread _
    · exact hnone
  · split_ifs
    · exact hnone
    · exact hread _

theorem unmarked_readBarePath (s : List Char) : Unmarked (readBarePath s).1.text := by
  unfold readBarePath
  rw [Path.text, String.toList_ofList]
  refine unmarked_percentEncode (.inl fun c hc => ?_)
  simpa using List.mem_takeWhile_imp hc

end LiveRuns.Url
