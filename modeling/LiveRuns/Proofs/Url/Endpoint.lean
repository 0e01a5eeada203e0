import LiveRuns.Proofs.Url.Resolve

/-!
Endpoints stay on their server.

A path is joined to a base without the slashes in front of it, and could then still be taken for a
URL of its own by a scheme, or for one on another server by backslashes.  A `Relative` path has
neither, so whatever else it holds, the endpoint has the scheme, the user, the host and the port of
the base.
-/

namespace LiveRuns.Url

/-- A path that cannot be taken for anything but a path behind a server: once its slashes in front
are dropped, it starts with no blank, holds no backslash, tab or line end, and has no colon in its
first segment. -/
structure Relative (path : String) : Prop where
  head : ∀ c ∈ (path.toList.dropWhile (· = '/')).head?, ¬ c ≤ ' '
  marks : ∀ c ∈ path.toList.dropWhile (· = '/'), c ≠ '\\' ∧ c ≠ '\t' ∧ c ≠ '\r' ∧ c ≠ '\n'
  colon : ':' ∉ (path.toList.dropWhile (· = '/')).takeWhile inFirst

/-- What is left of such a path is read neither with a scheme nor from the root. -/
theorem Relative.tidied {path : String} (h : Relative path) :
    readScheme? (tidy (path.toList.dropWhile (· = '/'))) = none ∧
      ∀ c ∈ (tidy (path.toList.dropWhile (· = '/'))).head?, c ≠ '/' ∧ c ≠ '\\' := by
  obtain ⟨hhead, hmarks, hcolon⟩ := h
  have hslash := List.head?_dropWhile_not (· = '/') path.toList
  obtain ⟨tail, htail⟩ := tidy_prefix hhead fun c hc =>
    ⟨(hmarks c hc).2.1, (hmarks c hc).2.2.2, (hmarks c hc).2.2.1⟩
  generalize path.toList.dropWhile (· = '/') = s at *
  constructor
  · refine readScheme?_eq_none fun hscheme => hcolon ?_
    rw [← htail]
    exact colon_mem_of_startsWithScheme hscheme tail
  · intro c hc
    have hfirst : c ∈ s.head? := by
      rw [← htail, List.head?_append, Option.mem_def.1 hc]
      rfl
    rw [Option.mem_def.1 hfirst] at hslash
    exact ⟨by simpa using hslash, (hmarks c (List.mem_of_mem_head? hfirst)).1⟩

theorem endpoint_replicate (base : Url) (n : Nat) (path : String) :
    base.endpoint (String.ofList (List.replicate n '/' ++ path.toList)) = base.endpoint path := by
  have hdrop : (List.replicate n '/' ++ path.toList).dropWhile (· = '/') =
      path.toList.dropWhile (· = '/') := by
    refine List.dropWhile_append_of_pos fun c hc => ?_
    simp [List.eq_of_mem_replicate hc]
  rw [endpoint, endpoint, String.toList_ofList, hdrop]

/-- An endpoint stays on the server of its base, whether the path of the base ends in a slash or
not, and however many slashes the path starts with. -/
theorem endpoint_within {text : String} {base : Url} (hbase : ofText text = .ok base)
    (hscheme : base.scheme = "http" ∨ base.scheme = "https") {path : String}
    (hpath : Relative path) :
    (∃ u, base.endpoint path = .ok u ∧ u.scheme = base.scheme ∧ u.authority = base.authority) ∧
      (∀ (text' : String) (base' : Url), ofText text' = .ok base' →
        { base with path := base'.path } = base' → base.path.text.getLast? ≠ some '/' →
          base'.path.text = base.path.text ++ ['/'] →
            base'.endpoint path = base.endpoint path) ∧
      ∀ n, base.endpoint (String.ofList (List.replicate n '/' ++ path.toList)) =
        base.endpoint path := by
  obtain ⟨names, hnames, hfree⟩ := exists_segments_of_ofText hbase hscheme
  refine ⟨?_, fun text' base' hbase' hrest hlast htext => ?_,
    fun n => endpoint_replicate base n path⟩
  · obtain ⟨htidy, hhead⟩ := hpath.tidied
    have hfile := (special_of_http hscheme).2
    obtain ⟨above, hdirectory, -⟩ := exists_above hnames hfree
    rw [← String.toList_ofList (l := path.toList.dropWhile (· = '/'))] at htidy hhead
    have hserver := join_server hdirectory (by simpa using hfile) htidy hhead
    rwa [asDirectory_scheme, asDirectory_authority] at hserver
  · have hscheme' : base'.scheme = "http" ∨ base'.scheme = "https" := by rwa [← hrest]
    obtain ⟨names', hnames', hfree'⟩ := exists_segments_of_ofText hbase' hscheme'
    rw [endpoint, endpoint, asDirectory_of_slash hnames hfree hnames' hfree' hrest hlast htext]

/-- A base with a user, a password and a port. -/
def ofUser (names : List String) : Url :=
  ⟨"http", some ⟨"u", "p", .name "h", some 8080⟩, .segments names, none, none⟩

theorem endpoint_within_climbing :
    ofText "http://u:p@h:8080/a" = .ok (ofUser ["a"]) ∧
      Relative "/../%2e%2E//x@y:z?q#f" ∧
      (∃ u, (ofUser ["a"]).endpoint "/../%2e%2E//x@y:z?q#f" = .ok u ∧ u.scheme = "http" ∧
        u.authority = some ⟨"u", "p", .name "h", some 8080⟩) ∧
      (ofUser ["a", ""]).endpoint "/../%2e%2E//x@y:z?q#f" =
        (ofUser ["a"]).endpoint "/../%2e%2E//x@y:z?q#f" ∧
      (ofUser ["a"]).endpoint "///../%2e%2E//x@y:z?q#f" =
        (ofUser ["a"]).endpoint "/../%2e%2E//x@y:z?q#f" := by
  have hopen : ofText "http://u:p@h:8080/a" = .ok (ofUser ["a"]) := by cbv
  have hclosed : ofText "http://u:p@h:8080/a/" = .ok (ofUser ["a", ""]) := by cbv
  have hrelative : Relative "/../%2e%2E//x@y:z?q#f" := ⟨by simp, by simp, by decide⟩
  obtain ⟨hserver, hslash, hleading⟩ := endpoint_within hopen (.inl rfl) hrelative
  exact ⟨hopen, hrelative, hserver, hslash _ _ hclosed rfl (by decide) (by decide), hleading 2⟩

end LiveRuns.Url
