import LiveRuns.Proofs.Url.Endpoint
import LiveRuns.Watch.Plan

/-!
Endpoints beneath a base.

The segments of a path are put below those of the base, in place of an empty one at their end,
`join_plain`.  This holds as long as the first of them does not start with a scheme, since a colon
may stand in a segment and the slashes in front of it are gone when the path is joined.  With a
scheme the path is that of another server, or the base's own scheme is taken away and what is read
is shorter than what was given, `join_scheme`.
-/

namespace LiveRuns.Url

theorem join_cons (name : String) (names : List String) :
    ['/'].intercalate ((name :: names).map String.toList) =
      name.toList ++ (Path.segments names).text := by
  have htext := Path.text_eq_join (List.cons_ne_nil name names)
  rw [Path.text_cons] at htext
  exact (List.cons.inj htext).2.symm

theorem mem_text {names : List String} (h : ∀ name ∈ names, Plain name.toList) :
    ∀ c ∈ (Path.segments names).text, c = '/' ∨ isPathChar c = true := by
  intro c hc
  obtain ⟨name, hmem, hc⟩ := List.mem_flatMap.1 hc
  exact (List.mem_cons.1 hc).imp_right ((h name hmem).chars c)

theorem mem_join {names : List String} (h : ∀ name ∈ names, Plain name.toList) :
    ∀ c ∈ ['/'].intercalate (names.map String.toList), c = '/' ∨ isPathChar c = true := by
  intro c hc
  cases names with
  | nil => simp at hc
  | cons first names =>
    have htext := mem_text h c
    rw [Path.text_eq_join (List.cons_ne_nil first names)] at htext
    exact htext (List.mem_cons_of_mem '/' hc)

/-- A scheme in front of segments stands in front of the first of them. -/
theorem startsWithScheme_of_append_text {s : List Char} (hslash : '/' ∉ s) (names : List String)
    (h : StartsWithScheme (s ++ (Path.segments names).text)) : StartsWithScheme s := by
  obtain ⟨first, more, rest, heq, hfirst, hmore⟩ := h
  have hne {c : Char} (hc : isSchemeChar c = true) : decide (c ≠ '/') = true := by
    simp only [decide_eq_true_eq]
    rintro rfl
    exact absurd hc (by decide)
  have htake := Path.takeWhile_append_text hslash names
  rw [heq, takeWhile_scheme (fun _ => hne) (by decide) hfirst hmore] at htake
  exact ⟨first, more, _, htake.symm, hfirst, hmore⟩

theorem tidy_join {names : List String} (h : ∀ name ∈ names, Plain name.toList) :
    tidy (['/'].intercalate (names.map String.toList)) =
      ['/'].intercalate (names.map String.toList) := by
  refine tidy_of_forall fun c hc => ?_
  rcases mem_join h c hc with rfl | hc
  · decide
  · exact space_lt_of_isPathChar hc

/-- Plain segments without a scheme are put below those of the base, in place of an empty one at
their end. -/
theorem join_plain {base : Url} {above : List String}
    (hpath : base.path = .segments (above ++ [""])) (hfile : base.scheme ≠ "file") {first : String}
    {names : List String} (hplain : ∀ name ∈ first :: names, Plain name.toList)
    (hfirst : ¬ StartsWithScheme first.toList) :
    base.join (String.ofList (['/'].intercalate ((first :: names).map String.toList))) =
      .ok ⟨base.scheme, base.authority, .segments (above ++ first :: names), none, none⟩ := by
  have hfirstPlain := hplain first List.mem_cons_self
  have htidy := tidy_join hplain
  have hnone : ¬ StartsWithScheme (['/'].intercalate ((first :: names).map String.toList)) := by
    intro h
    rw [join_cons] at h
    exact hfirst (startsWithScheme_of_append_text
      (fun hmem => (hfirstPlain.mark_free '/' hmem).1 rfl) names h)
  have hread := readSegments_plain (isSpecial base.scheme) (List.cons_ne_nil first names) hplain
    above
  -- The text starts with the first character of the first segment.
  obtain ⟨c, more, hchars, hc⟩ := hfirstPlain.exists_cons
  have hmark := ne_mark_of_isPathChar hc
  rw [join_cons, hchars, List.cons_append] at htidy hnone hread ⊢
  have hlast : aboveLast base = above := by simp [aboveLast, dropSegment, hpath, hfile]
  rw [join_eq hpath hfile, String.toList_ofList, htidy, resolveRelative_path base hmark, hlast,
    readPath_eq hfile, hread]
  · rfl
  · rw [String.toList_ofList, htidy]
    exact readScheme?_eq_none hnone
  · rw [String.toList_ofList, htidy]
    simpa using hmark.2.2.2

/-! ## Schemes in front -/

theorem readScheme?_append {first : Char} {more : List Char} (hfirst : first.isAlpha = true)
    (hmore : ∀ c ∈ more, isSchemeChar c = true) (rest : List Char) :
    readScheme? (first :: (more ++ ':' :: rest)) =
      some (String.ofList ((first :: more).map Char.toLower), rest) := by
  have hletter : isSchemeChar first = true := by simp [isSchemeChar, Char.isAlphanum, hfirst]
  have htake : (first :: (more ++ ':' :: rest)).takeWhile isSchemeChar = first :: more := by
    rw [List.takeWhile_cons_of_pos hletter, List.takeWhile_append_of_pos hmore,
      List.takeWhile_cons_of_neg (by decide), List.append_nil]
  unfold readScheme?
  simp only [htake, List.length_cons, List.drop_succ_cons, List.drop_left, if_pos hfirst]

theorem readWithScheme_of_ne {base : Url} {scheme : String} (h : base.scheme ≠ scheme)
    (s : List Char) : readWithScheme (some base) scheme s = readWithScheme none scheme s := by
  have hfilter : (some base).filter (·.scheme = scheme) = none := by simp [h]
  unfold readWithScheme
  rw [hfilter]
  rfl

/-- The text of what is read onto a path is no longer than that of the path and what is read. -/
theorem length_addSegment_le (last : Bool) (above : List String) {segment : List Char}
    (h : ∀ c ∈ segment, pathSet c = false) :
    (Path.segments (addSegment false last above segment)).text.length ≤
      (Path.segments above).text.length + (segment.length + 1) := by
  have hend : (Path.segments (if last then [""] else [])).text.length ≤ 1 := by
    cases last <;> simp [Path.text]
  have hdrop : (Path.segments above.dropLast).text.length ≤ (Path.segments above).text.length := by
    rcases List.eq_nil_or_concat above with rfl | ⟨front, name, rfl⟩
    · exact le_refl _
    · rw [List.concat_eq_append, List.dropLast_concat, Path.text_append, List.length_append]
      omega
  rw [addSegment_cases]
  by_cases hdots : plainDots segment = ['.', '.']
  · rw [if_pos hdots, Path.text_append, List.length_append]
    omega
  · rw [if_neg hdots]
    by_cases hdot : plainDots segment = ['.']
    · rw [if_pos hdot, Path.text_append, List.length_append]
      omega
    · rw [if_neg hdot, percentEncode_of_forall h, Path.text_append, List.length_append]
      simp [Path.text]

theorem length_readSegments_le (special : Bool) {s : List Char} (hs : ∀ c ∈ s, pathSet c = false)
    (above : List String) {seen : List Char} (hseen : ∀ c ∈ seen, pathSet c = false) :
    (Path.segments (readSegments special false above seen s).1).text.length ≤
      (Path.segments above).text.length + (seen.length + s.length + 1) := by
  have hadd (above : List String) {seen : List Char} (hseen : ∀ c ∈ seen, pathSet c = false)
      (last : Bool) := @length_addSegment_le last above seen.reverse fun c hc =>
    hseen c (List.mem_reverse.1 hc)
  simp only [List.length_reverse] at hadd
  -- The characters of the segment that is being read, `seen`, are still to be counted.
  induction s generalizing above seen with
  | nil => exact hadd above hseen true
  | cons c s ih =>
    obtain ⟨hc, hs⟩ := List.forall_mem_cons.1 hs
    rw [readSegments, List.length_cons]
    split_ifs
    · have := hadd above hseen true
      show (Path.segments (addSegment false true above seen.reverse)).text.length ≤ _
      omega
    · have hfirst := hadd above hseen false
      have hrest := @ih hs (addSegment false false above seen.reverse) []
        (List.forall_mem_nil _)
      rw [List.length_nil] at hrest
      omega
    · have hrest := ih hs above (List.forall_mem_cons.2 ⟨hc, hseen⟩)
      rw [List.length_cons] at hrest
      omega

/-- What is left of plain segments behind a scheme: nothing, or a text with at most one slash in
front. -/
inductive Rest : List Char → Prop where
  | nil : Rest []
  | plain {c : Char} (s : List Char) (h : isPathChar c = true) : Rest (c :: s)
  | slash {c : Char} (s : List Char) (h : isPathChar c = true) : Rest ('/' :: c :: s)

theorem rest_append {s : List Char} (hs : ∀ c ∈ s, isPathChar c = true) {names : List String}
    (hnames : ∀ name ∈ names, Plain name.toList) : Rest (s ++ (Path.segments names).text) := by
  cases s with
  | cons c s => exact .plain _ (hs c List.mem_cons_self)
  | nil =>
    cases names with
    | nil => exact .nil
    | cons name names =>
      obtain ⟨c, more, hchars, hc⟩ := (hnames name List.mem_cons_self).exists_cons
      rw [List.nil_append, Path.text_cons, hchars]
      exact .slash _ hc

/-- Behind the scheme of the base itself such a text is read without the scheme. -/
theorem readWithScheme_self {base : Url} (hspecial : isSpecial base.scheme = true)
    (hfile : base.scheme ≠ "file") {s : List Char} (h : Rest s) :
    readWithScheme (some base) base.scheme s = resolveRelative base s := by
  have hshort : (s.takeWhile fun c => c = '/' || c = '\\').length < 2 := by
    cases h with
    | nil => decide
    | plain s hc =>
      obtain ⟨hslash, hback, -⟩ := ne_mark_of_isPathChar hc
      rw [List.takeWhile_cons_of_neg (by simp [hslash, hback])]
      decide
    | slash s hc =>
      obtain ⟨hslash, hback, -⟩ := ne_mark_of_isPathChar hc
      rw [List.takeWhile_cons_of_pos (by decide),
        List.takeWhile_cons_of_neg (by simp [hslash, hback])]
      decide
  have hsame : (some base).filter (·.scheme = base.scheme) = some base := by simp
  unfold readWithScheme
  rw [hsame]
  simp only [if_neg hfile, if_pos hspecial]
  exact if_pos hshort

theorem length_resolveRelative_le {base : Url} {above : List String}
    (hpath : base.path = .segments (above ++ [""])) (hfile : base.scheme ≠ "file") {s : List Char}
    (hrest : Rest s) (hchars : ∀ c ∈ s, pathSet c = false) {u : Url}
    (h : resolveRelative base s = .ok u) :
    u.path.text.length ≤ (Path.segments above).text.length + (s.length + 1) := by
  cases hrest with
  | nil =>
    cases h
    rw [hpath, Path.text_append]
    simp [Path.text]
  | @plain c s hc =>
    rw [resolveRelative_path base (ne_mark_of_isPathChar hc)] at h
    cases h
    have hlast : aboveLast base = above := by simp [aboveLast, dropSegment, hpath, hfile]
    have hlength := @length_readSegments_le (isSpecial base.scheme) _ hchars above []
      (List.forall_mem_nil _)
    rw [complete_path, readPath_eq hfile, hlast]
    simpa using hlength
  | @slash c s hc =>
    obtain ⟨hslash, hback, -⟩ := ne_mark_of_isPathChar hc
    have hread : resolveRelative base ('/' :: c :: s) =
        .ok (complete base.scheme base.authority (readPath base.scheme [] (c :: s))) := by
      unfold resolveRelative
      rw [resolveTail?_eq_none base (by decide)]
      simp only
      split <;> rename_i heq <;> cases heq
      · exact absurd rfl hslash
      · simp [hslash, hback]
    rw [hread] at h
    cases h
    have hlength := @length_readSegments_le (isSpecial base.scheme) _
      (List.forall_mem_cons.1 hchars).2 [] [] (List.forall_mem_nil _)
    rw [complete_path, readPath_eq hfile]
    simp [Path.text] at hlength ⊢
    omega

/-- Behind a scheme the segments are put elsewhere: on another server, or without the scheme. -/
theorem join_scheme {base : Url} {above : List String}
    (hpath : base.path = .segments (above ++ [""])) (hspecial : isSpecial base.scheme = true)
    (hfile : base.scheme ≠ "file") {first : String} {names : List String}
    (hplain : ∀ name ∈ first :: names, Plain name.toList) (hfirst : StartsWithScheme first.toList)
    {u : Url} (h : base.join (String.ofList
      (['/'].intercalate ((first :: names).map String.toList))) = .ok u) :
    u.scheme ≠ base.scheme ∨
      u.path.text.length < (Path.segments above).text.length +
        (['/'].intercalate ((first :: names).map String.toList)).length := by
  obtain ⟨letter, more, rest, hchars, hletter, hmore⟩ := hfirst
  obtain ⟨hfirstPlain, hnames⟩ := List.forall_mem_cons.1 hplain
  have htidy := tidy_join hplain
  have hjoin : ['/'].intercalate ((first :: names).map String.toList) =
      letter :: (more ++ ':' :: (rest ++ (Path.segments names).text)) := by
    rw [join_cons, hchars]
    simp
  have hrest : Rest (rest ++ (Path.segments names).text) :=
    rest_append (fun c hc => hfirstPlain.chars c (by simp [hchars, hc])) hnames
  have hset : ∀ c ∈ rest ++ (Path.segments names).text, pathSet c = false := by
    intro c hc
    have hmem : c ∈ ['/'].intercalate ((first :: names).map String.toList) := by
      rw [hjoin]
      exact List.mem_cons_of_mem _ (List.mem_append_right _ (List.mem_cons_of_mem _ hc))
    rcases mem_join hplain c hmem with rfl | hc
    · decide
    · exact pathSet_of_isPathChar hc
  unfold join read at h
  rw [String.toList_ofList, htidy, hjoin] at h
  simp only [readScheme?_append hletter hmore] at h
  -- The scheme of the base itself is dropped with its colon, and so the path becomes shorter.
  by_cases hsame : base.scheme = String.ofList ((letter :: more).map Char.toLower)
  · right
    rw [← hsame, readWithScheme_self hspecial hfile hrest] at h
    have hlength := length_resolveRelative_le hpath hfile hrest hset h
    rw [hjoin, List.length_cons, List.length_append, List.length_cons]
    omega
  · left
    rw [readWithScheme_of_ne hsame] at h
    rw [scheme_of_readWithScheme h]
    exact fun heq => hsame heq.symm

/-! ## Endpoints -/

/-- The text of a path of segments, with one slash in front and some more. -/
def slashed (more : Nat) (names : List String) : String :=
  String.ofList (List.replicate (more + 1) '/' ++ ['/'].intercalate (names.map String.toList))

structure Beneath (base : Url) (names : List String) (u : Url) : Prop where
  scheme : u.scheme = base.scheme
  authority : u.authority = base.authority
  path : u.path.text =
    directoryText base.path.text ++ ['/'].intercalate (names.map String.toList)
  query : u.query = none
  fragment : u.fragment = none

theorem endpoint_slashed (base : Url) {first : String} {names : List String}
    (hplain : ∀ name ∈ first :: names, Plain name.toList) (more : Nat) :
    base.endpoint (slashed more (first :: names)) =
      base.asDirectory.join
        (String.ofList (['/'].intercalate ((first :: names).map String.toList))) := by
  have hdrop : (['/'].intercalate ((first :: names).map String.toList)).dropWhile (· = '/') =
      ['/'].intercalate ((first :: names).map String.toList) := by
    obtain ⟨c, more, hchars, hc⟩ := (hplain first List.mem_cons_self).exists_cons
    have hslash := (ne_mark_of_isPathChar hc).1
    rw [join_cons, hchars, List.cons_append, List.dropWhile_cons_of_neg (by simpa using hslash)]
  have hslashes := endpoint_replicate base (more + 1)
    (String.ofList (['/'].intercalate ((first :: names).map String.toList)))
  rw [String.toList_ofList] at hslashes
  rw [slashed, hslashes, endpoint, String.toList_ofList, hdrop]

/-- A plan lists and streams the runs at the endpoints of its two paths. -/
theorem endpoints_of_ofSettings {settings : Settings} {base : Url} {plan : Watch.Plan}
    (hbase : settings.base = .ok base) (h : Watch.Plan.ofSettings settings = .ok plan) :
    base.endpoint settings.runsPath = .ok plan.listing ∧
      base.endpoint settings.streamPath = .ok plan.stream := by
  have hok {e : Except Url.Fault Url} {u : Url} (h : e.mapError Failure.url = .ok u) :
      e = .ok u := by
    cases e with
    | error why => cases h
    | ok found =>
      cases h
      rfl
  obtain ⟨_, hread, h⟩ := bind_eq_ok.1 h
  obtain rfl : base = _ := Except.ok.inj (hbase.symm.trans hread)
  obtain ⟨params, -, h⟩ := bind_eq_ok.1 h
  obtain ⟨options, -, h⟩ := bind_eq_ok.1 h
  obtain ⟨listing, hlisting, h⟩ := bind_eq_ok.1 h
  obtain ⟨stream, hstream, h⟩ := bind_eq_ok.1 h
  cases h
  exact ⟨hok hlisting, hok hstream⟩

/-- An endpoint lies beneath its base just if the first of its segments does not start with a
scheme; and the runs are listed and streamed at the same endpoint if the settings give one path for
both. -/
theorem endpoint_beneath {text : String} {base : Url} (hbase : ofText text = .ok base)
    (hscheme : base.scheme = "http" ∨ base.scheme = "https") {first : String} {names : List String}
    (hplain : ∀ name ∈ first :: names, Plain name.toList) (more : Nat) :
    ((∃ u, base.endpoint (slashed more (first :: names)) = .ok u ∧
        Beneath base (first :: names) u) ↔ ¬ StartsWithScheme first.toList) ∧
      ∀ (settings : Settings) (plan : Watch.Plan), settings.baseUrl = text →
        settings.runsPath = slashed more (first :: names) →
          settings.streamPath = slashed more (first :: names) →
            Watch.Plan.ofSettings settings = .ok plan →
              base.endpoint (slashed more (first :: names)) = .ok plan.listing ∧
                plan.stream = plan.listing := by
  obtain ⟨hspecial, hfile⟩ := special_of_http hscheme
  obtain ⟨segments, hsegments, hfree⟩ := exists_segments_of_ofText hbase hscheme
  obtain ⟨above, hdirectory, htext⟩ := exists_above hsegments hfree
  refine ⟨⟨?_, fun hfirst => ?_⟩, fun settings plan hurl hruns hstream hplan => ?_⟩
  · rintro ⟨u, hu, hbeneath⟩ hfirst
    rw [endpoint_slashed base hplain] at hu
    rcases join_scheme hdirectory (by simpa using hspecial) (by simpa using hfile) hplain hfirst hu
      with hne | hlt
    · exact hne (by simpa using hbeneath.scheme)
    · rw [hbeneath.path, htext, List.length_append, List.length_append] at hlt
      omega
  · rw [endpoint_slashed base hplain, join_plain hdirectory (by simpa using hfile) hplain hfirst]
    refine ⟨_, rfl, by simp, by simp, ?_, rfl, rfl⟩
    rw [htext, Path.text_append, Path.text_eq_join (List.cons_ne_nil first names)]
    simp
  · have hsettings : settings.base = .ok base := by
      rw [Settings.base, hurl, hbase]
    obtain ⟨hlisting, hstreamed⟩ := endpoints_of_ofSettings hsettings hplan
    rw [hruns] at hlisting
    rw [hstream, hlisting] at hstreamed
    exact ⟨hlisting, (Except.ok.inj hstreamed).symm⟩

def ofPrefix : Url := ⟨"http", some { host := .name "host" }, .segments ["prefix"], none, none⟩

theorem ofText_ofPrefix : ofText "http://host/prefix" = .ok ofPrefix := by cbv

theorem plain_versioned : ∀ name ∈ ["api:v1", "runs"], Plain name.toList := by
  have hapi : Plain "api:v1".toList :=
    ⟨by decide, List.all_eq_true.1 (by decide), by decide, by decide⟩
  have hruns : Plain "runs".toList :=
    ⟨by decide, List.all_eq_true.1 (by decide), by decide, by decide⟩
  exact List.forall_mem_cons.2 ⟨hapi, List.forall_mem_cons.2 ⟨hruns, nofun⟩⟩

/-- Settings with one path for the listing and the stream. -/
def onePath : Settings where
  baseUrl := "http://host/prefix"
  runsPath := slashed 1 ["runs", "api:v1"]
  streamPath := slashed 1 ["runs", "api:v1"]
  maxRuns := 1
  retryDelay := 0
  logJson := false

theorem endpoint_beneath_prefix :
    ofText "http://host/prefix" = .ok ofPrefix ∧
      (∀ name ∈ ["runs", "api:v1"], Plain name.toList) ∧
      (∃ u, ofPrefix.endpoint (slashed 1 ["runs", "api:v1"]) = .ok u ∧
        Beneath ofPrefix ["runs", "api:v1"] u) ∧
      ∃ plan, Watch.Plan.ofSettings onePath = .ok plan ∧
        ofPrefix.endpoint (slashed 1 ["runs", "api:v1"]) = .ok plan.listing ∧
          plan.stream = plan.listing := by
  have hplain : ∀ name ∈ ["runs", "api:v1"], Plain name.toList := fun name hname =>
    plain_versioned name ((List.Perm.swap "api:v1" "runs" []).subset hname)
  have hfirst : ¬ StartsWithScheme "runs".toList := by
    rintro ⟨letter, more, rest, hchars, -⟩
    have hcolon : ':' ∈ "runs".toList := by simp [hchars]
    exact absurd hcolon (by decide)
  obtain ⟨hbeneath, hsame⟩ := endpoint_beneath ofText_ofPrefix (.inl rfl) hplain 1
  obtain ⟨u, hu, hlies⟩ := hbeneath.2 hfirst
  have hbase : onePath.base = .ok ofPrefix := by
    rw [Settings.base, show onePath.baseUrl = "http://host/prefix" from rfl, ofText_ofPrefix]
  have hlisting : (ofPrefix.endpoint onePath.runsPath).mapError Failure.url = .ok u := by
    rw [show onePath.runsPath = slashed 1 ["runs", "api:v1"] from rfl, hu]
    rfl
  have hplan : Watch.Plan.ofSettings onePath = .ok ⟨u, u, ⟨{}, none⟩, ⟨1, 0⟩, false⟩ :=
    bind_eq_ok.2 ⟨ofPrefix, hbase, bind_eq_ok.2 ⟨_, rfl, bind_eq_ok.2 ⟨_, rfl,
      bind_eq_ok.2 ⟨u, hlisting, bind_eq_ok.2 ⟨u, hlisting, rfl⟩⟩⟩⟩⟩
  exact ⟨ofText_ofPrefix, hplain, ⟨u, hu, hlies⟩, _, hplan,
    hsame onePath _ rfl rfl rfl hplan⟩

/-- Not every endpoint lies beneath its base. -/
theorem not_all_endpoints_beneath :
    ¬ ∀ (text : String) (base : Url) (first : String) (names : List String) (more : Nat),
      ofText text = .ok base → base.scheme = "http" →
        (∀ name ∈ first :: names, Plain name.toList) →
          ∃ u, base.endpoint (slashed more (first :: names)) = .ok u ∧
            Beneath base (first :: names) u := by
  intro hall
  obtain ⟨u, hu, hbeneath⟩ :=
    hall _ ofPrefix "api:v1" ["runs"] 0 ofText_ofPrefix rfl plain_versioned
  have helsewhere : ofPrefix.endpoint (slashed 0 ["api:v1", "runs"]) =
      .ok ⟨"api", none, .bare "v1/runs", none, none⟩ := by cbv
  cases hu.symm.trans helsewhere
  exact absurd hbeneath.scheme (by decide)

end LiveRuns.Url
