import LiveRuns.Proofs.Feed.Trace

/-!
Where a feed can stand.

A feed goes round in a circle: it fetches a snapshot, opens a channel, follows it, and waits after
a failure.  `Standing` lists the places, each with its phase and the one thing held there, and
`standing_course` says that a feed that has begun is always in one of them.  `ErrorKept` adds what
the error tells in each place.  Together with `lastView_course` they give the main result of this
file, `coherent_course`: phase, things held, error and published view always agree.
-/

namespace LiveRuns.Feed

/-! ## The places -/

inductive Standing (f : Feed) : Prop where
  | fetching (token : Token) (phase : f.phase = .connecting)
      (session : f.session = { snapshot := some token })
  | opening (token : Token) (phase : f.phase = .connecting)
      (session : f.session = { channel := some token })
  | following (token : Token) (phase : f.phase = .connected)
      (session : f.session = { channel := some token })
  | waiting (token : Token) (phase : f.phase = .reconnectPending)
      (session : f.session = { retry := some token })
  | closed (phase : f.phase = .closed) (session : f.session = {})

namespace Standing

variable {f : Feed} {token : Token}

theorem of_snapshot (h : Standing f) (hs : f.session.snapshot = some token) :
    f.phase = .connecting ∧ f.session = { snapshot := some token } := by
  cases h with
  | fetching t phase session =>
    rw [session] at hs
    obtain rfl : t = token := Option.some.inj hs
    exact ⟨phase, session⟩
  | opening t phase session | following t phase session | waiting t phase session
  | closed phase session =>
    rw [session] at hs
    cases hs

theorem of_retry (h : Standing f) (hs : f.session.retry = some token) :
    f.phase = .reconnectPending ∧ f.session = { retry := some token } := by
  cases h with
  | waiting t phase session =>
    rw [session] at hs
    obtain rfl : t = token := Option.some.inj hs
    exact ⟨phase, session⟩
  | fetching t phase session | opening t phase session | following t phase session
  | closed phase session =>
    rw [session] at hs
    cases hs

theorem of_channel (h : Standing f) (hs : f.session.channel = some token) :
    (f.phase = .connecting ∨ f.phase = .connected) ∧
      f.session = { channel := some token } := by
  cases h with
  | opening t phase session =>
    rw [session] at hs
    obtain rfl : t = token := Option.some.inj hs
    exact ⟨.inl phase, session⟩
  | following t phase session =>
    rw [session] at hs
    obtain rfl : t = token := Option.some.inj hs
    exact ⟨.inr phase, session⟩
  | fetching t phase session | waiting t phase session | closed phase session =>
    rw [session] at hs
    cases hs

theorem of_connected (h : Standing f) (hphase : f.phase = .connected) :
    ∃ token, f.session = { channel := some token } := by
  cases h with
  | following token phase session => exact ⟨token, session⟩
  | fetching token phase session | opening token phase session | waiting token phase session
  | closed phase session =>
    rw [phase] at hphase
    cases hphase

theorem of_reconnectPending (h : Standing f) (hphase : f.phase = .reconnectPending) :
    ∃ token, f.session = { retry := some token } := by
  cases h with
  | waiting token phase session => exact ⟨token, session⟩
  | fetching token phase session | opening token phase session | following token phase session
  | closed phase session =>
    rw [phase] at hphase
    cases hphase

theorem of_closed (h : Standing f) (hphase : f.phase = .closed) : f.session = {} := by
  cases h with
  | closed phase session => exact session
  | fetching token phase session | opening token phase session | following token phase session
  | waiting token phase session =>
    rw [phase] at hphase
    cases hphase

theorem tokens_length (h : Standing f) (hphase : f.phase ≠ .closed) :
    f.session.tokens.length = 1 := by
  cases h with
  | fetching token phase session | opening token phase session | following token phase session
  | waiting token phase session =>
    rw [session]
    rfl
  | closed phase session => exact absurd phase hphase

/-- From every place a message leads to a place. -/
theorem handle (h : Standing f) (message : Message) : Standing (f.handle message).1 := by
  induction message using handle_cases (f := f) with
  | refused => exact h
  | setParams selection => exact .fetching _ rfl rfl
  | dispose => exact .closed rfl rfl
  | snapshot token result hphase hheld =>
    obtain ⟨phase, session⟩ := h.of_snapshot hheld
    have hnext : ({ f.session with snapshot := none, channel := some (f.lastToken + 1) } : Session)
        = { channel := some (f.lastToken + 1) } := by rw [session]
    cases result with
    | ok runs => exact .opening (f.lastToken + 1) phase hnext
    | error failure => exact .opening (f.lastToken + 1) phase hnext
  | retryDue token => exact .fetching _ rfl rfl
  | signal token signal hphase hheld =>
    obtain ⟨phase, session⟩ := h.of_channel hheld
    cases signal with
    | opened => exact .following token rfl session
    | event event =>
      rcases phase with phase | phase
      · exact .opening token phase session
      · exact .following token phase session
    | malformed error => exact h
    | failed failure =>
      have hnext : ({ f.session with channel := none, retry := some (f.lastToken + 1) } : Session)
          = { retry := some (f.lastToken + 1) } := by rw [session]
      exact .waiting (f.lastToken + 1) rfl hnext

end Standing

/-- A feed that has begun stands in one of the places. -/
theorem standing_course (options : Options) (selection : Selection) (messages : List Message) :
    Standing (course options selection messages).1 := by
  induction messages using List.reverseRecOn with
  | nil => exact .fetching 1 rfl rfl
  | append_singleton messages message ih =>
    rw [course_concat]
    exact ih.handle message

/-! ## The error -/

def failure? : Feed × Message → Option Failure
  | (f, .signal token (.failed failure)) =>
    if f.Accepts (.signal token (.failed failure)) then some failure else none
  | _ => none

def lastFailure (past : List (Feed × Message)) : Option Failure :=
  (past.filterMap failure?).getLast?

theorem lastFailure_concat_of_none {past : List (Feed × Message)} {meeting : Feed × Message}
    (h : failure? meeting = none) : lastFailure (past ++ [meeting]) = lastFailure past := by
  simp [lastFailure, h]

theorem lastFailure_concat_of_some {past : List (Feed × Message)} {meeting : Feed × Message}
    {failure : Failure} (h : failure? meeting = some failure) :
    lastFailure (past ++ [meeting]) = some failure := by
  simp [lastFailure, h]

theorem failure?_of_not_accepts {f : Feed} {message : Message} (h : ¬ f.Accepts message) :
    failure? (f, message) = none := by
  unfold failure?
  split
  · next heq =>
    obtain ⟨rfl, rfl⟩ := Prod.mk.inj heq
    exact if_neg h
  · rfl

/-- What the error tells: nothing while the channel is followed, the last failure while the feed
waits for its timer, and something from then on until the channel is followed again. -/
structure ErrorKept (f : Feed) (last : Option Failure) : Prop where
  following : f.phase = .connected → f.error = none
  waiting : f.phase = .reconnectPending →
    ∃ failure, last = some failure ∧ f.error = some failure.message
  again : f.phase = .connecting → 0 < f.reconnectAttempts → f.error.isSome

theorem ErrorKept.handle {f : Feed} {past : List (Feed × Message)}
    (h : ErrorKept f (lastFailure past)) (hf : Standing f) (message : Message) :
    ErrorKept (f.handle message).1 (lastFailure (past ++ [(f, message)])) := by
  induction message using handle_cases (f := f) with
  | refused message hrefused =>
    rw [lastFailure_concat_of_none (failure?_of_not_accepts hrefused)]
    exact h
  | setParams selection =>
    exact ⟨fun hc => (nomatch hc), fun hc => (nomatch hc),
      fun _ ha => absurd ha (Nat.lt_irrefl 0)⟩
  | dispose => exact ⟨fun hc => (nomatch hc), fun hc => (nomatch hc), fun hc => (nomatch hc)⟩
  | snapshot token result hphase hheld =>
    -- Its phase tells that the feed waits for no timer and follows no channel.
    obtain ⟨phase, -⟩ := hf.of_snapshot hheld
    have hconnected : f.phase ≠ .connected := by rw [phase]; decide
    have hwaiting : f.phase ≠ .reconnectPending := by rw [phase]; decide
    cases result with
    | ok runs =>
      exact ⟨fun hc => absurd hc hconnected, fun hc => absurd hc hwaiting,
        fun _ ha => h.again phase ha⟩
    | error failure =>
      exact ⟨fun hc => absurd hc hconnected, fun hc => absurd hc hwaiting, fun _ _ => rfl⟩
  | retryDue token hphase hheld =>
    obtain ⟨phase, -⟩ := hf.of_retry hheld
    obtain ⟨failure, -, herror⟩ := h.waiting phase
    refine ⟨fun hc => (nomatch hc), fun hc => (nomatch hc), fun _ _ => ?_⟩
    show f.error.isSome
    rw [herror]
    rfl
  | signal token signal hphase hheld =>
    cases signal with
    | opened => exact ⟨fun _ => rfl, fun hc => (nomatch hc), fun hc => (nomatch hc)⟩
    | event event =>
      rw [lastFailure_concat_of_none rfl]
      exact ⟨h.following, h.waiting, h.again⟩
    | malformed error =>
      rw [lastFailure_concat_of_none rfl]
      exact h
    | failed failure =>
      have hlast : failure? (f, .signal token (.failed failure)) = some failure :=
        if_pos ⟨hphase, hheld⟩
      rw [lastFailure_concat_of_some hlast]
      exact ⟨fun hc => (nomatch hc), fun _ => ⟨failure, rfl, rfl⟩, fun hc => (nomatch hc)⟩

theorem errorKept_course (options : Options) (selection : Selection) (messages : List Message) :
    ErrorKept (course options selection messages).1
      (lastFailure (past options selection messages)) := by
  induction messages using List.reverseRecOn with
  | nil =>
    exact ⟨fun hc => (nomatch hc), fun hc => (nomatch hc), fun _ ha => absurd ha (Nat.lt_irrefl 0)⟩
  | append_singleton messages message ih =>
    rw [course_concat, past_concat]
    exact ih.handle (standing_course options selection messages) message

/-! ## All together -/

structure Coherent (f : Feed) (past : List (Feed × Message)) (published : View) : Prop where
  /-- A feed that is not closed holds one thing, so that something is still to come. -/
  one_held : f.phase ≠ .closed → f.session.tokens.length = 1
  none_held : f.phase = .closed → f.session = {}
  retry_iff : f.phase = .reconnectPending ↔ f.session.retry.isSome
  channel_of_connected : f.phase = .connected → f.session.channel.isSome
  connecting_of_snapshot : f.session.snapshot.isSome → f.phase = .connecting
  no_error_of_connected : f.phase = .connected → f.error = none
  error_of_waiting : f.phase = .reconnectPending →
    ∃ failure, lastFailure past = some failure ∧ f.error = some failure.message
  error_of_again : f.phase = .connecting → 0 < f.reconnectAttempts → f.error.isSome
  /-- Nothing is left unpublished, and every phase is told as its status. -/
  published_eq : published =
    { runs := f.runs
      connection :=
        match f.phase with
        | .idle | .closed => .disconnected
        | .connecting => .connecting
        | .connected => .connected
        | .reconnectPending => .error
      error := f.error
      reconnectAttempts := f.reconnectAttempts }

/-- In every course phase, things held, error and published view agree. -/
theorem coherent_course (options : Options) (selection : Selection) (messages : List Message) :
    Coherent (course options selection messages).1 (past options selection messages)
      (lastView (course options selection messages).2) := by
  have herror := errorKept_course options selection messages
  have hview := lastView_course options selection messages
  have hplace := standing_course options selection messages
  refine
    { one_held := hplace.tokens_length
      none_held := hplace.of_closed
      retry_iff := ⟨fun hphase => ?_, fun hheld => ?_⟩
      channel_of_connected := fun hphase => ?_
      connecting_of_snapshot := fun hheld => ?_
      no_error_of_connected := herror.following
      error_of_waiting := herror.waiting
      error_of_again := herror.again
      published_eq := hview }
  · obtain ⟨token, hsession⟩ := hplace.of_reconnectPending hphase
    rw [hsession]
    rfl
  · obtain ⟨token, htoken⟩ := Option.isSome_iff_exists.mp hheld
    exact (hplace.of_retry htoken).1
  · obtain ⟨token, hsession⟩ := hplace.of_connected hphase
    rw [hsession]
    rfl
  · obtain ⟨token, htoken⟩ := Option.isSome_iff_exists.mp hheld
    exact (hplace.of_snapshot htoken).1

end LiveRuns.Feed
