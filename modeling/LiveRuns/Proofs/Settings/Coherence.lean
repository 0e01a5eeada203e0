import LiveRuns.Proofs.Except
import LiveRuns.Proofs.Feed.Trace
import LiveRuns.Settings.Basic

/-!
One filter for the snapshot and for the stream.

Settings narrow the stream by agent and status, and the snapshot by time as well.  The two are derived
each by itself, and the snapshot has a filter of its own only where a bound in time is set.  They
cohere: every snapshot of a feed asks for the agent and the status of its stream, and beyond that just
for the bounds that are set, `coheres`; and a status that the stream cannot have is no less refused
where a bound is set, `feedOptions_eq_error`.
-/

namespace LiveRuns.Settings

variable {s : Settings}

/-! ## The parts of a filter -/

theorem streamParams_eq_ok {params : StreamParams} :
    s.streamParams = .ok params ↔ params.agentId = s.agentId ∧ s.statusFilter = .ok params.status := by
  rw [streamParams, bind_eq_ok]
  constructor
  · rintro ⟨status, hstatus, h⟩
    cases h
    exact ⟨rfl, hstatus⟩
  · rintro ⟨hagent, hstatus⟩
    exact ⟨params.status, hstatus, by rw [← hagent]; rfl⟩

theorem streamParams_eq_error {why : Failure} :
    s.streamParams = .error why ↔ s.statusFilter = .error why := by
  rw [streamParams]
  cases s.statusFilter <;> simp [bind, Except.bind, pure, Except.pure]

/-- A bound is there just if a text is, and is the instant that this says. -/
theorem map_ok_of_bound {key : String} {text? : Option String} {instant? : Option Timestamp}
    (h : bound key text? = .ok instant?) : instant?.map .ok = text?.map Timestamp.ofStrictText := by
  cases text? with
  | none =>
    cases h
    rfl
  | some text =>
    rw [bound] at h
    cases hread : Timestamp.ofStrictText text with
    | error why =>
      rw [hread] at h
      cases h
    | ok instant =>
      rw [hread] at h
      cases h
      rw [Option.map_some, Option.map_some, hread]

/-- A bound that is set is there. -/
theorem eq_none_of_bound {key : String} {text? : Option String}
    (h : bound key text? = .ok none) : text? = none := by
  have hmap := map_ok_of_bound h
  exact Option.map_eq_none_iff.1 hmap.symm

/-! ## The filter of the snapshot -/

theorem initialFetch_of_unbounded (hsince : s.since = none) (hbefore : s.before = none) :
    s.initialFetch = .ok none := by
  rw [initialFetch, hsince, hbefore]
  rfl

/-- Where a bound is set, the snapshot has a filter of its own. -/
theorem initialFetch_of_bounded (h : s.since ≠ none ∨ s.before ≠ none) :
    s.initialFetch = (do
      return some
        { agentId := s.agentId
          status := ← s.statusFilter
          since := ← bound "filter.from" s.since
          before := ← bound "filter.to" s.before }) := by
  have hset : ¬ (s.since.isNone && s.before.isNone) = true := by
    simp only [Bool.and_eq_true, Option.isNone_iff_eq_none]
    tauto
  rw [initialFetch, if_neg hset]

/-- The snapshot and the stream of a feed narrow the runs alike, but for the bounds that are set. -/
structure Coheres (s : Settings) (selection : Feed.Selection) : Prop where
  agentId : selection.query.agentId = selection.params.agentId
  status : selection.query.status = selection.params.status
  since : selection.query.since.map .ok = s.since.map Timestamp.ofStrictText
  before : selection.query.before.map .ok = s.before.map Timestamp.ofStrictText
  initialFetch : selection.initialFetch = none ↔ selection.query = selection.params.toQuery

theorem coheres {selection : Feed.Selection} (hparams : s.streamParams = .ok selection.params)
    (hfetch : s.initialFetch = .ok selection.initialFetch) : Coheres s selection := by
  obtain ⟨params, fetch⟩ := selection
  obtain ⟨hagent, hstatus⟩ := streamParams_eq_ok.1 hparams
  by_cases h : s.since ≠ none ∨ s.before ≠ none
  · rw [initialFetch_of_bounded h] at hfetch
    obtain ⟨status, hstatus', hfetch⟩ := bind_eq_ok.1 hfetch
    obtain ⟨since, hsince, hfetch⟩ := bind_eq_ok.1 hfetch
    obtain ⟨before, hbefore, hfetch⟩ := bind_eq_ok.1 hfetch
    cases hfetch
    have hsame := Except.ok.inj (hstatus'.symm.trans hstatus)
    refine ⟨hagent.symm, hsame, map_ok_of_bound hsince, map_ok_of_bound hbefore, nofun, ?_⟩
    -- A filter that is that of the stream has no bound, but one is set.
    intro hquery
    obtain rfl : since = none := congrArg RunQuery.since hquery
    obtain rfl : before = none := congrArg RunQuery.before hquery
    exact absurd h (by simp [eq_none_of_bound hsince, eq_none_of_bound hbefore])
  · simp only [ne_eq, not_or, not_not] at h
    obtain ⟨hsince, hbefore⟩ := h
    rw [initialFetch_of_unbounded hsince hbefore] at hfetch
    cases hfetch
    refine ⟨rfl, rfl, ?_, ?_, fun _ => rfl, fun _ => rfl⟩
    · rw [hsince]
      rfl
    · rw [hbefore]
      rfl

/-! ## The options of the feed -/

theorem feedOptions_of_pos (h : 1 ≤ s.maxRuns) :
    s.feedOptions = (do return ⟨← s.initialFetch, ⟨s.maxRuns, s.retryDelay⟩⟩) := by
  rw [feedOptions, if_neg (Nat.one_le_iff_ne_zero.1 h)]

theorem feedOptions_eq_error (h : s.since ≠ none ∨ s.before ≠ none) (hruns : 1 ≤ s.maxRuns)
    {why : Failure} (hparams : s.streamParams = .error why) : s.feedOptions = .error why := by
  rw [feedOptions_of_pos hruns, initialFetch_of_bounded h, streamParams_eq_error.1 hparams]
  rfl

theorem initialFetch_of_feedOptions {options : FeedOptions} (h : s.feedOptions = .ok options) :
    s.initialFetch = .ok options.initialFetch := by
  rw [feedOptions] at h
  obtain ⟨-, h⟩ := of_guard h
  obtain ⟨fetch, hfetch, h⟩ := bind_eq_ok.1 h
  cases h
  exact hfetch

/-- Where settings have a filter of the stream and options of the feed, every snapshot of the feed
asks for what its channels report, but for the bounds that are set; these do not bear on the stream;
and where one of them is set, the options are refused for the status that the stream is refused
for. -/
theorem snapshot_coheres (s : Settings) :
    (∀ params options, s.streamParams = .ok params → s.feedOptions = .ok options →
      Coheres s ⟨params, options.initialFetch⟩ ∧
        ∀ messages, (∀ other, .setParams other ∉ messages) →
          let effects := (Feed.course options.options ⟨params, options.initialFetch⟩ messages).2
          (∀ query ∈ Feed.queries effects,
            query = Feed.Selection.query ⟨params, options.initialFetch⟩) ∧
              ∀ opened ∈ Feed.openings effects, opened = params) ∧
    (∀ since before, { s with since, before }.streamParams = s.streamParams) ∧
      (s.since ≠ none ∨ s.before ≠ none → 1 ≤ s.maxRuns →
        ∀ why, s.streamParams = .error why → s.feedOptions = .error why) := by
  refine ⟨fun params options hparams hoptions => ⟨?_, fun messages hkept => ?_⟩, fun _ _ => rfl,
    fun hset hruns why => feedOptions_eq_error hset hruns⟩
  · exact coheres hparams (initialFetch_of_feedOptions hoptions)
  · exact (Feed.asks_course _ _ hkept).2

/-! ### A bound at an offset -/

def narrowed : Settings where
  baseUrl := "http://host"
  runsPath := "/runs"
  streamPath := "/stream"
  maxRuns := 5
  retryDelay := 0
  agentId := some "a"
  status := some " Running "
  since := some "2026-01-01T02:00:00+02:00"
  logJson := false

/-- The filter of its snapshot begins at midnight. -/
def narrowedQuery : RunQuery where
  agentId := some "a"
  status := some .running
  since := some ⟨⟨2026, 1, 1, by decide⟩, ⟨0, 0, 0, 0, by decide⟩⟩

theorem snapshot_coheres_narrowed :
    narrowed.streamParams = .ok ⟨some "a", some .running⟩ ∧
      narrowed.feedOptions = .ok ⟨some narrowedQuery, ⟨5, 0⟩⟩ ∧
        Coheres narrowed ⟨⟨some "a", some .running⟩, some narrowedQuery⟩ ∧
          { narrowed with status := some "x" }.feedOptions =
            .error (.settings (RunStatus.unknownText "x")) := by
  have hparams : narrowed.streamParams = .ok ⟨some "a", some .running⟩ := by rfl
  have hoptions : narrowed.feedOptions = .ok ⟨some narrowedQuery, ⟨5, 0⟩⟩ := by rfl
  have hrefused : { narrowed with status := some "x" }.streamParams =
      .error (.settings (RunStatus.unknownText "x")) := by rfl
  have hset : narrowed.since ≠ none := nofun
  refine ⟨hparams, hoptions, ((snapshot_coheres narrowed).1 _ _ hparams hoptions).1, ?_⟩
  exact (snapshot_coheres { narrowed with status := some "x" }).2.2 (.inl hset) (by decide) _ hrefused

end LiveRuns.Settings
