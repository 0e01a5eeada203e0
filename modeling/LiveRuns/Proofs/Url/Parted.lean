import LiveRuns.Proofs.Url.Form
import LiveRuns.Proofs.Url.Unmarked

/-!
Marks part a URL.

In the text of a URL the first `?` begins the query and the first `#` the fragment.  That is so
because nothing in front holds one of these marks, and no query holds a `#`: every URL that has been
read is `Parted`, `parted_read`, and so is every endpoint, `parted_endpoint`.  Pairs that are
appended to a query leave it so, `Parted.withPairs`.
-/

namespace LiveRuns.Url

/-- A URL whose text is parted by its marks: the first `?` begins the query, the first `#` the
fragment. -/
structure Parted (u : Url) : Prop where
  scheme : Unmarked u.scheme.toList
  host : ∀ a ∈ u.authority, Unmarked a.host.text
  path : Unmarked u.path.text
  query : ∀ query ∈ u.query, '#' ∉ query.toList

theorem hash_not_mem_readTail (scheme : String) (s : List Char) :
    ∀ query ∈ (readTail scheme s).1, '#' ∉ query.toList := by
  intro query hquery
  unfold readTail at hquery
  simp only at hquery
  split at hquery
  · cases hquery
    rw [String.toList_ofList]
    refine not_mem_percentEncode (by decide) fun hmem => ?_
    simpa using List.mem_takeWhile_imp hmem
  · cases hquery

theorem parted_complete {scheme : String} {authority : Option Authority}
    {path : Path × List Char} (hscheme : Unmarked scheme.toList)
    (hhost : ∀ a ∈ authority, Unmarked a.host.text) (hpath : Unmarked path.1.text) :
    (complete scheme authority path).Parted :=
  ⟨hscheme, hhost, hpath, hash_not_mem_readTail scheme path.2⟩

theorem Parted.withTail {base : Url} (h : base.Parted) (s : List Char) :
    (withTail base s).Parted :=
  ⟨h.scheme, h.host, h.path, hash_not_mem_readTail base.scheme s⟩

theorem Parted.of_resolveTail? {base : Url} (h : base.Parted) {s : List Char} {u : Url}
    (hu : resolveTail? base s = some u) : u.Parted := by
  unfold resolveTail? at hu
  split at hu
  · cases hu
    exact ⟨h.scheme, h.host, h.path, h.query⟩
  · cases hu
    exact h.withTail _
  · cases hu
    exact ⟨h.scheme, h.host, h.path, h.query⟩
  · cases hu

theorem parted_readAfterSlashes {scheme : String} (hscheme : Unmarked scheme.toList)
    {s : List Char} {u : Url} (h : readAfterSlashes scheme s = .ok u) : u.Parted := by
  unfold readAfterSlashes at h
  obtain ⟨⟨authority, rest⟩, hauthority, h⟩ := bind_eq_ok.1 h
  cases h
  refine parted_complete hscheme ?_ (unmarked_readPathStart scheme rest)
  rintro a ⟨⟩
  exact unmarked_readAuthority hauthority

theorem Parted.names {base : Url} (h : base.Parted) {names : List String}
    (hnames : base.path = .segments names) : UnmarkedNames names := by
  have hpath := h.path
  rwa [hnames, unmarked_segments] at hpath

theorem Parted.names_aboveLast {base : Url} (h : base.Parted) :
    UnmarkedNames (aboveLast base) := by
  unfold aboveLast
  split
  · rename_i names hnames
    exact (h.names hnames).sublist (dropSegment_sublist _ _)
  · nofun

/-! ## Files -/

theorem unmarked_file : Unmarked "file".toList := unmarked_iff.2 (by decide)

theorem unmarked_localAuthority : ∀ a ∈ some localAuthority, Unmarked a.host.text := by
  rintro a ⟨⟩
  exact unmarked_nil

theorem parted_localFile (s : List Char) :
    (complete "file" (some localAuthority) (readPath "file" [] s)).Parted :=
  parted_complete unmarked_file unmarked_localAuthority
    (unmarked_readPath unmarkedNames_nil "file" s)

theorem parted_readFileHost {s : List Char} {u : Url} (h : readFileHost s = .ok u) :
    u.Parted := by
  unfold readFileHost at h
  extract_lets host rest _ withHost at h
  have hwithHost (host : Host) (hhost : Unmarked host.text) (h : withHost host = .ok u) :
      u.Parted := by
    cases h
    refine parted_complete unmarked_file ?_ (unmarked_readPathStart _ _)
    rintro a ⟨⟩
    show Unmarked (if host = .name "localhost" then Host.empty else host).text
    split_ifs
    · exact unmarked_nil
    · exact hhost
  split_ifs at h
  · cases h
    exact parted_localFile s
  · exact hwithHost .empty unmarked_nil h
  · obtain ⟨host, hhost, h⟩ := bind_eq_ok.1 h
    exact hwithHost host (unmarked_specialHost hhost) h

/-- The drive of a base is one of its segments. -/
theorem unmarked_baseDrive {base : Option Url} (hbase : ∀ b ∈ base, b.Parted) :
    UnmarkedNames (baseDrive base) := by
  unfold baseDrive
  split
  · rename_i drive names hpath
    split_ifs
    · obtain ⟨b, rfl, hb⟩ := Option.map_eq_some_iff.1 hpath
      have hnames := (hbase b rfl).names hb
      exact hnames.sublist (List.singleton_sublist.2 List.mem_cons_self)
    · nofun
  · nofun

theorem parted_resolveWithin {base : Option Url} (hbase : ∀ b ∈ base, b.Parted) {s : List Char}
    {u : Url} (h : resolveFile.resolveWithin base s = .ok u) : u.Parted := by
  have hauthority : ∀ a ∈ some ((base.bind Url.authority).getD localAuthority),
      Unmarked a.host.text := by
    rintro a ⟨⟩
    cases base with
    | none => exact unmarked_nil
    | some b =>
      have hhost := (hbase b rfl).host
      cases hb : b.authority with
      | none => simpa [hb] using unmarked_localAuthority
      | some a => simpa [hb] using hhost a hb
  have hrooted (s : List Char) :
      (complete "file" (some ((base.bind Url.authority).getD localAuthority))
        (readPath "file" (baseDrive base) s)).Parted :=
    parted_complete unmarked_file hauthority (unmarked_readPath (unmarked_baseDrive hbase) "file" s)
  unfold resolveFile.resolveWithin at h
  split at h
  · simp only at h
    split_ifs at h
    · cases h
      exact parted_localFile _
    · cases h
      exact hrooted _
  · simp only at h
    split_ifs at h
    · cases h
      exact parted_localFile _
    · cases h
      exact hrooted _
  · cases h
    exact parted_localFile s
  · rename_i base _ _
    split at h
    · rename_i u' htail
      cases h
      exact (hbase base rfl).of_resolveTail? htail
    · split_ifs at h
      · cases h
        exact parted_localFile s
      · cases h
        exact parted_complete unmarked_file (hbase base rfl).host
          (unmarked_readPath (hbase base rfl).names_aboveLast "file" s)

theorem parted_resolveFile {base : Option Url} (hbase : ∀ b ∈ base, b.Parted) {s : List Char}
    {u : Url} (h : resolveFile base s = .ok u) : u.Parted := by
  unfold resolveFile at h
  split at h
  · simp only at h
    split_ifs at h
    · exact parted_readFileHost h
    · exact parted_resolveWithin hbase h
  · exact parted_resolveWithin hbase h

/-! ## Resolving -/

theorem Parted.of_resolveRelative {base : Url} (h : base.Parted) {s : List Char} {u : Url}
    (hu : resolveRelative base s = .ok u) : u.Parted := by
  have hrooted (s : List Char) :
      (complete base.scheme base.authority (readPath base.scheme [] s)).Parted :=
    parted_complete h.scheme h.host (unmarked_readPath unmarkedNames_nil base.scheme s)
  have hbeside (s : List Char) :
      (complete base.scheme base.authority (readPath base.scheme (aboveLast base) s)).Parted :=
    parted_complete h.scheme h.host (unmarked_readPath h.names_aboveLast base.scheme s)
  unfold resolveRelative at hu
  split at hu
  · rename_i u' htail
    cases hu
    exact h.of_resolveTail? htail
  · simp only at hu
    split at hu
    · exact parted_readAfterSlashes h.scheme hu
    · split_ifs at hu
      · exact parted_readAfterSlashes h.scheme hu
      · cases hu
        exact hrooted _
      · cases hu
        exact hbeside _
    · split_ifs at hu
      · cases hu
        exact hrooted _
      · cases hu
        exact hbeside _
    · cases hu
      exact h

theorem parted_readWithScheme {base : Option Url} (hbase : ∀ b ∈ base, b.Parted)
    {scheme : String} (hscheme : Unmarked scheme.toList) {s : List Char} {u : Url}
    (h : readWithScheme base scheme s = .ok u) : u.Parted := by
  -- A base counts only if it has the scheme of the text.
  have hsame : ∀ b ∈ base.filter (·.scheme = scheme), b.Parted := fun b hb =>
    hbase b (Option.mem_filter_iff.1 hb).1
  unfold readWithScheme at h
  simp only at h
  by_cases hfile : scheme = "file"
  · rw [if_pos hfile] at h
    exact parted_resolveFile hsame h
  rw [if_neg hfile] at h
  by_cases hspecial : isSpecial scheme = true
  · rw [if_pos hspecial] at h
    split at h
    · rename_i b hb
      split_ifs at h
      · exact (hsame b hb).of_resolveRelative h
      · exact parted_readAfterSlashes hscheme h
    · exact parted_readAfterSlashes hscheme h
  · rw [if_neg hspecial] at h
    split at h
    · exact parted_readAfterSlashes hscheme h
    · cases h
      exact parted_complete hscheme nofun (unmarked_readPath unmarkedNames_nil scheme _)
    · cases h
      exact parted_complete hscheme nofun (unmarked_readBarePath s)

/-- The characters of a scheme are all letters, digits and three signs. -/
theorem unmarked_readScheme? {s rest : List Char} {scheme : String}
    (h : readScheme? s = some (scheme, rest)) : Unmarked scheme.toList := by
  have hlower {c : Char} (hc : isSchemeChar c = true) : c.toLower ≠ '?' ∧ c.toLower ≠ '#' := by
    refine forall_isPathChar (P := fun c => c.toLower ≠ '?' ∧ c.toLower ≠ '#') (by decide) ?_
    simp only [isSchemeChar, Bool.or_eq_true, decide_eq_true_eq] at hc
    rcases hc with ((hc | rfl) | rfl) | rfl
    · simp [isPathChar, hc]
    · decide
    · decide
    · decide
  unfold readScheme? at h
  simp only at h
  split at h
  · split_ifs at h
    cases h
    rw [String.toList_ofList]
    intro c hc
    obtain ⟨d, hd, rfl⟩ := List.mem_map.1 hc
    exact hlower (List.mem_takeWhile_imp hd)
  · cases h

/-- Every URL that has been read is parted by its marks, if that against which it has been read
is. -/
theorem parted_read {base : Option Url} (hbase : ∀ b ∈ base, b.Parted) {text : String} {u : Url}
    (h : read base text = .ok u) : u.Parted := by
  unfold read at h
  simp only at h
  split at h
  · rename_i scheme rest hscheme
    exact parted_readWithScheme hbase (unmarked_readScheme? hscheme) h
  · split at h
    · cases h
    · rename_i base
      have hparted := hbase base rfl
      split_ifs at h
      · cases h
        exact ⟨hparted.scheme, hparted.host, hparted.path, hparted.query⟩
      · exact parted_resolveFile hbase h
      · exact hparted.of_resolveRelative h

/-! ## Queries with more pairs -/

/-- Pairs that are appended to a query bring no mark that ends it. -/
theorem Parted.withPairs {u : Url} (h : u.Parted) (pairs : List (String × String)) :
    (u.withPairs pairs).Parted := by
  have hold : '#' ∉ (u.query.getD "").toList := by
    cases hquery : u.query with
    | none => simp
    | some query => exact h.query query hquery
  have hnew : '#' ∉ formQuery pairs := hash_not_mem_formQuery pairs
  refine ⟨h.scheme, h.host, h.path, fun query hquery => ?_⟩
  have htext := query_withPairs u pairs
  rw [Option.mem_def.1 hquery, Option.getD_some] at htext
  rw [htext]
  split_ifs
  · exact hnew
  · exact hold
  · simp [hold, hnew]

/-! ## Endpoints -/

theorem Parted.asDirectory {base : Url} (h : base.Parted) : base.asDirectory.Parted := by
  unfold Url.asDirectory
  split
  · rename_i names hnames
    split_ifs
    · exact h
    · have hlast : Unmarked (Path.segments (names ++ [""])).text :=
        unmarked_segments.2 ((h.names hnames).concat unmarked_nil)
      exact ⟨h.scheme, h.host, hlast, h.query⟩
  · rename_i text htext
    split_ifs
    · exact h
    · have hpath := h.path
      rw [htext] at hpath
      have hlast : Unmarked (Path.bare (String.ofList (text.toList ++ ['/']))).text := by
        rw [Path.text, String.toList_ofList]
        exact hpath.append (.cons (by decide) unmarked_nil)
      exact ⟨h.scheme, h.host, hlast, h.query⟩

/-- Every endpoint beneath a URL that has been read is parted by its marks. -/
theorem parted_endpoint {text path : String} {base u : Url} (hbase : ofText text = .ok base)
    (h : base.endpoint path = .ok u) : u.Parted := by
  have hnone : ∀ b ∈ (none : Option Url), b.Parted := by
    rintro b ⟨⟩
  have hdirectory : base.asDirectory.Parted := (parted_read hnone hbase).asDirectory
  have hsome : ∀ b ∈ some base.asDirectory, b.Parted := by
    rintro b ⟨⟩
    exact hdirectory
  unfold endpoint join at h
  exact parted_read hsome h

end LiveRuns.Url
