import LiveRuns.Proofs.Feed.Trace

/-!
A change of the filter is a new beginning.

What a feed does depends on its tokens only by comparing them and by taking the next one, so a
feed whose tokens are all raised by the same number does the same with messages raised alike:
`run_shift`.  A change of the filter leaves a feed that is a new one, raised by the number of
tokens given out before.  Messages that carry one of those tokens are not taken up, since the
tokens held are all later ones.  Together these are `run_setParams_eq_course`.
-/

namespace LiveRuns.Feed

/-! ## Raising the tokens -/

def Message.shift (n : Nat) : Message → Message
  | .snapshot token brought => .snapshot (n + token) brought
  | .retryDue token => .retryDue (n + token)
  | .signal token heard => .signal (n + token) heard
  | message => message

def Effect.shift (n : Nat) : Effect → Effect
  | .fetch token query => .fetch (n + token) query
  | .abort token => .abort (n + token)
  | .openChannel token params => .openChannel (n + token) params
  | .closeChannel token => .closeChannel (n + token)
  | .schedule token delay => .schedule (n + token) delay
  | .cancel token => .cancel (n + token)
  | .publish view => .publish view

def Session.shift (n : Nat) (s : Session) : Session where
  snapshot := s.snapshot.map (n + ·)
  channel := s.channel.map (n + ·)
  retry := s.retry.map (n + ·)

def shift (n : Nat) (f : Feed) : Feed :=
  { f with session := f.session.shift n, lastToken := n + f.lastToken }

def shiftStep (n : Nat) (step : Feed × List Effect) : Feed × List Effect :=
  (step.1.shift n, step.2.map (Effect.shift n))

theorem release_shift (n : Nat) (s : Session) :
    (s.shift n).release = s.release.map (Effect.shift n) := by
  obtain ⟨snapshot, channel, retry⟩ := s
  cases snapshot <;> cases channel <;> cases retry <;> rfl

theorem map_eq_some_shift {held : Option Token} {n token : Nat} :
    held.map (n + ·) = some (n + token) ↔ held = some token := by
  cases held <;> simp

section

variable (n : Nat) (f : Feed)

theorem startSession_shift : (f.shift n).startSession = shiftStep n f.startSession := by
  refine Prod.ext rfl ?_
  rw [startSession_effects, shiftStep, startSession_effects, List.map_append, ← release_shift]
  rfl

theorem restart_shift (selection : Selection) :
    (f.shift n).restart selection = shiftStep n (f.restart selection) := by
  refine Prod.ext rfl ?_
  rw [restart_effects, shiftStep, restart_effects, List.map_append, ← release_shift]
  rfl

theorem takeSnapshot_shift (result : Except Failure (List Run)) :
    (f.shift n).takeSnapshot result = shiftStep n (f.takeSnapshot result) := by
  refine Prod.ext (by cases result <;> rfl) ?_
  rw [takeSnapshot_effects, shiftStep, takeSnapshot_effects, List.map_append]
  have hclosing : ((f.shift n).session.channel.map Effect.closeChannel).toList =
      (f.session.channel.map Effect.closeChannel).toList.map (Effect.shift n) := by
    show ((f.session.channel.map (n + ·)).map Effect.closeChannel).toList = _
    cases f.session.channel <;> rfl
  rw [hclosing]
  cases result <;> rfl

theorem reconnect_shift : (f.shift n).reconnect = shiftStep n f.reconnect :=
  startSession_shift n
    { f with
      session := { f.session with retry := none }
      reconnectAttempts := f.reconnectAttempts + 1 }

theorem failChannel_shift (channel : Token) (failure : Failure) :
    (f.shift n).failChannel (n + channel) failure =
      shiftStep n (f.failChannel channel failure) := by
  refine Prod.ext rfl ?_
  rw [failChannel_effects, shiftStep, failChannel_effects, List.map_append, List.map_cons]
  have hcancel : ((f.shift n).session.retry.map Effect.cancel).toList =
      (f.session.retry.map Effect.cancel).toList.map (Effect.shift n) := by
    show ((f.session.retry.map (n + ·)).map Effect.cancel).toList = _
    cases f.session.retry <;> rfl
  rw [hcancel]
  rfl

theorem takeSignal_shift (channel : Token) (signal : Channel.Signal) :
    (f.shift n).takeSignal (n + channel) signal = shiftStep n (f.takeSignal channel signal) := by
  cases signal with
  | opened | event | malformed => rfl
  | failed failure => exact failChannel_shift n f channel failure

theorem close_shift : (f.shift n).close = shiftStep n f.close := by
  refine Prod.ext rfl ?_
  rw [close_effects, shiftStep, close_effects, List.map_append, ← release_shift]
  rfl

/-- Raising the tokens of a feed and of a message raises those of what the feed does. -/
theorem handle_shift (message : Message) :
    (f.shift n).handle (message.shift n) = shiftStep n (f.handle message) := by
  unfold handle
  by_cases hphase : f.phase = .closed
  · rw [if_pos hphase, if_pos (show (f.shift n).phase = .closed from hphase)]
    rfl
  · rw [if_neg hphase, if_neg (show ¬ (f.shift n).phase = .closed from hphase)]
    cases message with
    | setParams selection => exact restart_shift n f selection
    | dispose => exact close_shift n f
    -- The raised token is compared with the raised token held.
    | snapshot token result =>
      show (if f.session.snapshot.map (n + ·) = some (n + token) then _ else _) = _
      simp only [map_eq_some_shift, takeSnapshot_shift, apply_ite (shiftStep n)]
      rfl
    | retryDue token =>
      show (if f.session.retry.map (n + ·) = some (n + token) then _ else _) = _
      simp only [map_eq_some_shift, reconnect_shift, apply_ite (shiftStep n)]
      rfl
    | signal token signal =>
      show (if f.session.channel.map (n + ·) = some (n + token) then _ else _) = _
      simp only [map_eq_some_shift, takeSignal_shift, apply_ite (shiftStep n)]
      rfl

end

theorem tokens_shift (n : Nat) (s : Session) :
    (s.shift n).tokens = s.tokens.map (n + ·) := by
  obtain ⟨snapshot, channel, retry⟩ := s
  cases snapshot <;> cases channel <;> cases retry <;> rfl

/-! ## Old tokens -/

/-- A message as it is when its token is counted from a later one on; `none` if its token came
before. -/
def Message.since? (n : Nat) : Message → Option Message
  | .snapshot token brought => if token ≤ n then none else some (.snapshot (token - n) brought)
  | .retryDue token => if token ≤ n then none else some (.retryDue (token - n))
  | .signal token heard => if token ≤ n then none else some (.signal (token - n) heard)
  | message => some message

theorem Message.shift_of_since? {n : Nat} {message later : Message}
    (h : message.since? n = some later) : later.shift n = message := by
  cases message with
  | setParams | dispose =>
    cases h
    rfl
  | snapshot token | retryDue token | signal token =>
    simp only [Message.since?, Option.ite_none_left_eq_some, Option.some.injEq] at h
    obtain ⟨hlt, rfl⟩ := h
    rw [Message.shift, Nat.add_sub_of_le (Nat.le_of_not_le hlt)]

theorem Message.since?_eq_none_iff {n : Nat} {message : Message} :
    message.since? n = none ↔ ∃ token, message.token? = some token ∧ token ≤ n := by
  cases message with
  | setParams | dispose => simp [Message.since?, Message.token?]
  | snapshot token | retryDue token | signal token =>
    simp [Message.since?, Message.token?]

/-- A feed whose tokens are raised holds none that came before. -/
theorem not_accepts_shift {n : Nat} {f : Feed} {message : Message}
    (hpos : ∀ token ∈ f.session.tokens, 0 < token) (h : message.since? n = none) :
    ¬ (f.shift n).Accepts message := by
  intro haccepts
  obtain ⟨token, htoken, hle⟩ := Message.since?_eq_none_iff.mp h
  have hheld : token ∈ (f.session.shift n).tokens := mem_tokens_of_accepts haccepts htoken
  rw [tokens_shift, List.mem_map] at hheld
  obtain ⟨held, hmem, rfl⟩ := hheld
  exact absurd hle (Nat.not_le_of_lt (Nat.lt_add_of_pos_right (hpos held hmem)))

theorem tokens_pos_handle {f : Feed} (hpos : ∀ token ∈ f.session.tokens, 0 < token)
    (message : Message) : ∀ token ∈ (f.handle message).1.session.tokens, 0 < token := by
  intro token htoken
  rcases mem_tokens_handle htoken with hheld | rfl
  · exact hpos token hheld
  · exact Nat.succ_pos f.lastToken

theorem tokens_pos_course (options : Options) (selection : Selection) (messages : List Message) :
    ∀ token ∈ (course options selection messages).1.session.tokens, 0 < token := by
  induction messages using List.reverseRecOn with
  | nil =>
    intro token htoken
    obtain rfl : token = 1 := List.mem_singleton.mp htoken
    exact Nat.one_pos
  | append_singleton messages message ih =>
    rw [course_concat]
    exact tokens_pos_handle ih message

/-- Its tokens raised, a feed has something to do only with the messages that can be counted from
the raise on, and does with them what it would have done. -/
theorem run_shift (n : Nat) {f : Feed} (hpos : ∀ token ∈ f.session.tokens, 0 < token)
    (messages : List Message) :
    (f.shift n).run messages = shiftStep n (f.run (messages.filterMap (Message.since? n))) := by
  induction messages generalizing f with
  | nil => rfl
  | cons message messages ih =>
    cases hsince : message.since? n with
    | none =>
      have hrefused := handle_of_not_accepts (not_accepts_shift hpos hsince)
      rw [List.filterMap_cons_none hsince]
      simp only [run, hrefused, List.nil_append]
      exact ih hpos
    | some later =>
      rw [List.filterMap_cons_some hsince, ← Message.shift_of_since? hsince]
      simp only [run, handle_shift, shiftStep, ih (tokens_pos_handle hpos later), List.map_append]

/-! ## A change of the filter -/

/-- With another filter a feed is a new one whose tokens go on from those given out. -/
theorem restart_eq_shift (f : Feed) (next : Selection) :
    f.restart next =
      (((new f.options next).startSession.1).shift f.lastToken,
        f.session.release ++
          (new f.options next).startSession.2.map (Effect.shift f.lastToken)) := by
  refine Prod.ext rfl ?_
  rw [restart_effects]
  rfl

/-- After a change of the filter a feed does what a new one does, its tokens raised. -/
theorem run_setParams {f : Feed} (h : f.phase ≠ .closed) (next : Selection)
    (later : List Message) :
    let fresh := course f.options next (later.filterMap (Message.since? f.lastToken))
    f.run (.setParams next :: later) =
      (fresh.1.shift f.lastToken,
        f.session.release ++ fresh.2.map (Effect.shift f.lastToken)) := by
  have hpos := tokens_pos_course f.options next []
  rw [course_nil] at hpos
  have hhandle : f.handle (.setParams next) = f.restart next := by
    rw [handle, if_neg h]
  simp only [run, hhandle, restart_eq_shift, run_shift _ hpos, shiftStep, course,
    List.map_append, List.append_assoc]

/-- A reading that no token shows in sees the same of raised effects. -/
theorem filterMap_map_shift {α : Type} {reading : Effect → Option α} {n : Nat}
    (h : ∀ effect, reading (effect.shift n) = reading effect) (effects : List Effect) :
    (effects.map (Effect.shift n)).filterMap reading = effects.filterMap reading := by
  rw [List.filterMap_map]
  exact congrArg (List.filterMap · effects) (funext h)

/-- From a change of the filter on, a feed publishes, fetches and opens what a new feed with the
filter publishes, fetches and opens when the same messages come to it, their tokens counted from
the change on; and a message that carries a token given out before the change does nothing. -/
theorem run_setParams_eq_course (options : Options) (selection : Selection)
    (earlier : List Message) (next : Selection) (later : List Message)
    (h : (course options selection earlier).1.phase ≠ .closed) :
    let f := (course options selection earlier).1
    let changed := f.run (.setParams next :: later)
    let fresh := course options next (later.filterMap (Message.since? f.lastToken))
    views changed.2 = views fresh.2 ∧
      queries changed.2 = queries fresh.2 ∧
      openings changed.2 = openings fresh.2 ∧
      changed.2 = f.session.release ++ fresh.2.map (Effect.shift f.lastToken) ∧
      ∀ message, ∀ token ∈ issued (course options selection earlier).2,
        message.token? = some token → changed.1.handle message = (changed.1, []) := by
  intro f changed fresh
  have hchanged : changed = (fresh.1.shift f.lastToken,
      f.session.release ++ fresh.2.map (Effect.shift f.lastToken)) := by
    have hrun := run_setParams h next later
    rw [course_options] at hrun
    exact hrun
  have heffects : changed.2 = f.session.release ++ fresh.2.map (Effect.shift f.lastToken) :=
    congrArg Prod.snd hchanged
  refine ⟨?_, ?_, ?_, heffects, ?_⟩
  · rw [heffects, views_append, views_release, List.nil_append]
    exact filterMap_map_shift (fun effect => by cases effect <;> rfl) _
  · rw [heffects, queries_append, queries_release, List.nil_append]
    exact filterMap_map_shift (fun effect => by cases effect <;> rfl) _
  · rw [heffects, openings_append, openings_release, List.nil_append]
    exact filterMap_map_shift (fun effect => by cases effect <;> rfl) _
  · intro message token hissued htoken
    have hold : message.since? f.lastToken = none :=
      Message.since?_eq_none_iff.mpr ⟨token, htoken, le_lastToken_of_mem_issued hissued⟩
    rw [hchanged]
    exact handle_of_not_accepts (not_accepts_shift (tokens_pos_course options next _) hold)

/-- A feed that is following a channel changes to another agent: a late signal of the old channel
is passed over, and the new snapshot and channel are the first of a new feed. -/
theorem run_setParams_eq_course_following :
    let f := (course {} {} [.snapshot 1 (.ok []), .signal 2 .opened]).1
    let next : Selection := { params := { agentId := some "b" } }
    f.phase ≠ .closed ∧
      views (f.run
          [.setParams next, .signal 2 (.failed (.stream "reset")),
            .snapshot 3 (.ok [Run.ofId "r"]), .signal 4 .opened]).2 =
        views (course {} next [.snapshot 1 (.ok [Run.ofId "r"]), .signal 2 .opened]).2 :=
  ⟨by decide,
    (run_setParams_eq_course {} {} [.snapshot 1 (.ok []), .signal 2 .opened] _
      [.signal 2 (.failed (.stream "reset")), .snapshot 3 (.ok [Run.ofId "r"]), .signal 4 .opened]
      (by decide)).1⟩

end LiveRuns.Feed
