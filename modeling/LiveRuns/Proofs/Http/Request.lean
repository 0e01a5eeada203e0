import LiveRuns.Channel
import LiveRuns.Proofs.Url.Parted
import LiveRuns.Proofs.Wire.Member
import LiveRuns.Snapshot

/-!
Requests carry their filter.

A request asks for an endpoint with pairs after those that the endpoint has itself, and for nothing
else: what is asked for is the text of the endpoint up to its query, and a query in which just these
pairs can be read.  `carries_get` is about any pairs, whatever characters are in them, and
`requests_carry` about those of a filter, whose times are read back to the millisecond.
-/

namespace LiveRuns

open LiveRuns.Url (readForm)

namespace Http

/-! ## What is asked for -/

/-- The text of a URL in front of its query, without user and password. -/
def front (u : Url) : List Char := { withoutUser u with query := none, fragment := none }.chars

def cutQuery (s : List Char) : List Char × List Char :=
  (s.takeWhile (· ≠ '?'), (s.dropWhile (· ≠ '?')).drop 1)

/-- A request asks for an endpoint with some pairs after its own. -/
structure Carries (endpoint : Url) (pairs : List (String × String)) (r : Request) : Prop where
  scheme : r.url.scheme = endpoint.scheme
  authority : r.url.authority = endpoint.authority
  path : r.url.path = endpoint.path
  front : (cutQuery r.target.toList).1 = front endpoint
  fragment : '#' ∉ r.target.toList
  pairs : readForm (cutQuery r.target.toList).2 = endpoint.queryPairs ++ pairs

theorem target_get (endpoint : Url) (pairs : List (String × String)) (accept : String) :
    (Request.get endpoint pairs accept).target.toList =
      front endpoint ++ Url.partText '?' (endpoint.withPairs pairs).query := by
  rw [Request.target, Url.text, String.toList_ofList]
  simp [Request.get, front, Url.chars, Url.withPairs, withoutUser, Url.partText, Url.authorityText]

theorem unmarked_text_withoutUser {a : Url.Authority} (h : Url.Unmarked a.host.text) :
    Url.Unmarked { a with username := "", password := "" }.text := by
  obtain ⟨username, password, host, port⟩ := a
  refine (Url.unmarked_nil.append h).append ?_
  cases port with
  | none => exact Url.unmarked_nil
  | some port => exact .cons (by decide) (Url.unmarked_toDigits (by decide) port)

theorem unmarked_front {u : Url} (h : u.Parted) : Url.Unmarked (front u) := by
  have hauthority : Url.Unmarked (Url.authorityText (withoutUser u)) := by
    cases hu : u.authority with
    | none =>
      simp only [Url.authorityText, withoutUser, hu, Option.map_none]
      split
      · exact Url.unmarked_iff.2 (by decide)
      · exact Url.unmarked_nil
    | some a =>
      simp only [Url.authorityText, withoutUser, hu, Option.map_some]
      exact .cons (by decide) (.cons (by decide) (unmarked_text_withoutUser (h.host a hu)))
  have htext : front u =
      u.scheme.toList ++ ':' :: Url.authorityText (withoutUser u) ++ u.path.text := by
    simp [front, Url.chars, Url.partText, withoutUser, Url.authorityText]
  rw [htext]
  exact (h.scheme.append (.cons (by decide) hauthority)).append h.path

theorem cutQuery_append {s : List Char} (h : '?' ∉ s) (query : Option String) :
    cutQuery (s ++ Url.partText '?' query) = (s, (query.getD "").toList) := by
  have hs : ∀ c ∈ s, decide (c ≠ '?') = true := by
    intro c hc
    simp only [decide_eq_true_eq]
    rintro rfl
    exact h hc
  rw [cutQuery, List.takeWhile_append_of_pos hs, List.dropWhile_append_of_pos hs]
  cases query <;> simp [Url.partText]

/-- Whatever the pairs hold, they are asked for after those of the endpoint, and nothing else
changes. -/
theorem carries_get {endpoint : Url} (h : endpoint.Parted) (pairs : List (String × String))
    (accept : String) : Carries endpoint pairs (.get endpoint pairs accept) := by
  have hfront := unmarked_front h
  have hcut := cutQuery_append (Url.unmarked_iff.1 hfront).1 (endpoint.withPairs pairs).query
  refine ⟨rfl, rfl, rfl, ?_, ?_, ?_⟩
  · rw [target_get, hcut]
  · rw [target_get, List.mem_append, not_or]
    refine ⟨(Url.unmarked_iff.1 hfront).2, ?_⟩
    cases hquery : (endpoint.withPairs pairs).query with
    | none => exact List.not_mem_nil
    | some query => simpa [Url.partText] using (h.withPairs pairs).query query hquery
  · rw [target_get, hcut]
    exact Url.queryPairs_withPairs endpoint pairs

end Http

/-! ## Filters -/

theorem lookup_pair? {α : Type} (name key : String) (write : α → String) (part : Option α) :
    (pair? name write part).lookup key = if key = name then part.map write else none := by
  cases part with
  | none => simp [pair?]
  | some a => by_cases h : key = name <;> simp [pair?, h]

namespace RunQuery

theorem lookup_pairs_from (q : RunQuery) :
    q.pairs.lookup "from" = q.since.map Timestamp.milliText := by
  simp [pairs, List.lookup_append, lookup_pair?]

theorem lookup_pairs_to (q : RunQuery) :
    q.pairs.lookup "to" = q.before.map Timestamp.milliText := by
  simp [pairs, List.lookup_append, lookup_pair?]

end RunQuery

theorem StreamParams.pairs_toQuery (p : StreamParams) : p.toQuery.pairs = p.pairs := by
  simp [RunQuery.pairs, toQuery, pairs, pair?]

namespace Wire

def timeOfText (s : String) : Except Error Timestamp :=
  decode timestamp (Json.Value.text s).toText

theorem timeOfText_milliText (t : Timestamp) : timeOfText t.milliText = .ok t.toMilli := by
  rw [timeOfText, decode_toText timestamp (Json.Value.FloatFree.text _)]
  refine bind_eq_ok.2 ⟨t.milliText, form_read_ofText t.milliText, ?_⟩
  simp only [Timestamp.ofText_milliText]

end Wire

/-- What is asked for with a filter is the endpoint and, after its own pairs, those of the filter,
the same ones for a stream and for the listing of its runs.  The times of a listing are told to the
millisecond. -/
theorem requests_carry {text path : String} {base endpoint : Url}
    (hbase : Url.ofText text = .ok base) (hendpoint : base.endpoint path = .ok endpoint) :
    (∀ query : RunQuery,
      Http.Carries endpoint query.pairs (Snapshot.request endpoint query) ∧
        (query.pairs.lookup "from").map Wire.timeOfText = query.since.map (.ok ·.toMilli) ∧
        (query.pairs.lookup "to").map Wire.timeOfText = query.before.map (.ok ·.toMilli)) ∧
      ∀ params : StreamParams,
        Http.Carries endpoint params.pairs (Channel.request endpoint params) ∧
          params.toQuery.pairs = params.pairs := by
  have hparted := Url.parted_endpoint hbase hendpoint
  have htimes (part : Option Timestamp) :
      (part.map Timestamp.milliText).map Wire.timeOfText = part.map (.ok ·.toMilli) := by
    cases part with
    | none => rfl
    | some t => simp [Wire.timeOfText_milliText]
  refine ⟨fun query => ⟨Http.carries_get hparted _ _, ?_, ?_⟩,
    fun params => ⟨Http.carries_get hparted _ _, params.pairs_toQuery⟩⟩
  · rw [query.lookup_pairs_from, htimes]
  · rw [query.lookup_pairs_to, htimes]

def Url.ofBase : Url :=
  ⟨"http", some ⟨"u", "p", .name "h", some 8080⟩, .segments ["a"], none, none⟩

def Url.ofOwnQuery : Url :=
  { Url.ofBase with
    path := .segments ["a", "runs"]
    query := some "agentId=own&k=%26"
    fragment := some "frag" }

theorem Url.endpoint_ofOwnQuery :
    Url.ofBase.endpoint "/runs?agentId=own&k=%26#frag" = .ok Url.ofOwnQuery := by
  -- Every reader is evaluated by itself, since all of them at once are too much to evaluate.
  have htidy : tidy "runs?agentId=own&k=%26#frag".toList =
      "runs?agentId=own&k=%26#frag".toList := by cbv
  have hscheme : readScheme? "runs?agentId=own&k=%26#frag".toList = none := by cbv
  have hpath : readPath "http" ["a"] "runs?agentId=own&k=%26#frag".toList =
      (.segments ["a", "runs"], "?agentId=own&k=%26#frag".toList) := by cbv
  have htail : readTail "http" "?agentId=own&k=%26#frag".toList =
      (some "agentId=own&k=%26", some "frag") := by cbv
  have hdrop : String.ofList ("/runs?agentId=own&k=%26#frag".toList.dropWhile (· = '/')) =
      "runs?agentId=own&k=%26#frag" := by cbv
  have hrelative : Url.ofBase.asDirectory.resolveRelative "runs?agentId=own&k=%26#frag".toList =
      .ok (complete "http" Url.ofBase.authority
        (readPath "http" ["a"] "runs?agentId=own&k=%26#frag".toList)) :=
    resolveRelative_path _ (c := 'r') (by decide) _
  have hhead : (tidy "runs?agentId=own&k=%26#frag".toList).head? ≠ some '#' := by
    rw [htidy]
    decide
  have hpath' : Url.ofBase.asDirectory.path = .segments ["a", ""] := rfl
  have hjoin := join_eq hpath' (by decide) (htidy ▸ hscheme) hhead
  rw [endpoint, hdrop, hjoin, htidy, hrelative, hpath]
  unfold complete
  rw [htail]
  rfl

/-- A filter by an agent whose id is full of marks, from a leap second in a year with a sign. -/
def RunQuery.ofMarks : RunQuery :=
  { agentId := some "a&status=x+#%;\n=é"
    since := some ⟨⟨12000, 6, 30, by decide⟩, ⟨23, 59, 60, 999999999, by decide⟩⟩ }

theorem requests_carry_ofMarks :
    Url.ofText "http://u:p@h:8080/a" = .ok Url.ofBase ∧
    Url.ofBase.endpoint "/runs?agentId=own&k=%26#frag" = .ok Url.ofOwnQuery ∧
    readForm (Http.cutQuery
        (Snapshot.request Url.ofOwnQuery RunQuery.ofMarks).target.toList).2 =
      [("agentId", "own"), ("k", "&"), ("agentId", "a&status=x+#%;\n=é"),
        ("from", "+12000-06-30T23:59:60.999Z")] := by
  have hbase : Url.ofText "http://u:p@h:8080/a" = .ok Url.ofBase := by cbv
  have hcarries := ((requests_carry hbase Url.endpoint_ofOwnQuery).1 RunQuery.ofMarks).1
  have hown : Url.ofOwnQuery.queryPairs = [("agentId", "own"), ("k", "&")] := by cbv
  have hpairs : RunQuery.ofMarks.pairs =
      [("agentId", "a&status=x+#%;\n=é"), ("from", "+12000-06-30T23:59:60.999Z")] := by cbv
  refine ⟨hbase, Url.endpoint_ofOwnQuery, ?_⟩
  rw [hcarries.pairs, hown, hpairs]
  rfl

end LiveRuns
