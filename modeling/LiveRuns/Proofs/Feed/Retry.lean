import LiveRuns.Proofs.Feed.Kept

/-!
A failed channel is retried on time.

A feed whose channel has failed waits for one timer and does nothing until the timer wakes it or its
owner sends a command; whichever comes first, the timer means nothing any more afterwards.  On the
virtual clock the wake comes just when the timer is due, since no path passes over a timer.  So
whatever else arrives, `retriesOnTime` holds of every point of every path behind a failure: nothing
is begun before the delay is over, and then one session is.
-/

namespace LiveRuns.Feed

/-! ## A feed that waits -/

structure Awaits (f : Feed) (timer : Token) : Prop where
  phase : f.phase = .reconnectPending
  session : f.session = { retry := some timer }
  issued : timer ≤ f.lastToken

/-- Whether a message ends the wait for a timer: a command, or the wake. -/
def Message.EndsWait (timer : Token) (message : Message) : Prop :=
  message.IsCommand ∨ message = .retryDue timer

theorem handle_failed {f : Feed} (h : Standing f) {channel : Token} {failure : Failure}
    (haccepts : f.Accepts (.signal channel (.failed failure))) :
    Awaits (f.handle (.signal channel (.failed failure))).1 (f.lastToken + 1) ∧
      (f.handle (.signal channel (.failed failure))).1.lastToken = f.lastToken + 1 ∧
      ∃ view, (f.handle (.signal channel (.failed failure))).2 =
        [.closeChannel channel, .schedule (f.lastToken + 1) f.options.retryDelay,
          .publish view] := by
  obtain ⟨hphase, hheld⟩ := haccepts
  obtain ⟨-, hsession⟩ := h.of_channel hheld
  have hhandle : f.handle (.signal channel (.failed failure)) = f.failChannel channel failure := by
    rw [handle, if_neg hphase]
    exact if_pos hheld
  rw [hhandle]
  refine ⟨⟨rfl, ?_, Nat.le_refl _⟩, rfl, (f.failChannel channel failure).1.view, ?_⟩
  · rw [failChannel, hsession]
    rfl
  · rw [failChannel_effects, hsession]
    rfl

namespace Awaits

variable {f : Feed} {timer : Token} {message : Message}

/-- Nothing else is heard while a feed waits. -/
theorem handle_of_not_endsWait (h : Awaits f timer) (hmessage : ¬ message.EndsWait timer) :
    f.handle message = (f, []) := by
  refine handle_of_not_accepts fun haccepts => hmessage ?_
  obtain ⟨-, hheld⟩ := haccepts
  rw [h.session] at hheld
  cases message with
  | setParams | dispose => exact .inl rfl
  | snapshot | signal => cases hheld
  | retryDue token =>
    cases hheld
    exact .inr rfl

/-- What ends the wait is taken up. -/
theorem accepts (h : Awaits f timer) (hmessage : message.EndsWait timer) : f.Accepts message := by
  have hphase : f.phase ≠ .closed := by rw [h.phase]; decide
  rcases hmessage with hcommand | rfl
  · cases message with
    | setParams | dispose => exact ⟨hphase, trivial⟩
    | snapshot | retryDue | signal => cases hcommand
  · refine ⟨hphase, ?_⟩
    show f.session.retry = some timer
    rw [h.session]

/-- The wake begins one session and does nothing else. -/
theorem handle_retryDue (h : Awaits f timer) :
    ∃ view, (f.handle (.retryDue timer)).2 =
      [.fetch (f.lastToken + 1) f.selection.query, .publish view] := by
  obtain ⟨hphase, hheld⟩ := h.accepts (.inr rfl)
  have hhandle : f.handle (.retryDue timer) = f.reconnect := by
    rw [handle, if_neg hphase]
    exact if_pos hheld
  rw [hhandle, reconnect_effects, h.session]
  exact ⟨_, rfl⟩

theorem cancel_mem (h : Awaits f timer) (hmessage : message.IsCommand) :
    .cancel timer ∈ (f.handle message).2 := by
  induction message using handle_cases (f := f) with
  | refused message hrefused => exact absurd (h.accepts (.inl hmessage)) hrefused
  | setParams selection =>
    rw [restart_effects, h.session]
    exact List.mem_cons_self
  | dispose =>
    rw [close_effects, h.session]
    exact List.mem_cons_self
  | snapshot | retryDue | signal => cases hmessage

theorem not_mem_tokens (h : Awaits f timer) (hmessage : message.EndsWait timer) :
    timer ∉ (f.handle message).1.session.tokens := by
  have hnext : timer ∉ [f.lastToken + 1] := by
    intro hmem
    have hissued := h.issued
    rw [List.mem_singleton.1 hmem] at hissued
    exact Nat.not_succ_le_self _ hissued
  induction message using handle_cases (f := f) with
  | refused message hrefused => exact absurd (h.accepts hmessage) hrefused
  | setParams | retryDue => exact hnext
  | dispose => exact List.not_mem_nil
  | snapshot | signal => rcases hmessage with hcommand | hwake <;> contradiction

/-- Once the wait has ended, a wake for it is never heard. -/
theorem handle_retryDue_run (h : Awaits f timer) {messages : List Message}
    (hended : ∃ message ∈ messages, message.EndsWait timer) :
    (f.run messages).1.handle (.retryDue timer) = ((f.run messages).1, []) := by
  induction messages with
  | nil =>
    obtain ⟨message, hmem, -⟩ := hended
    cases hmem
  | cons message messages ih =>
    by_cases hends : message.EndsWait timer
    · have hissued : timer ≤ (f.handle message).1.lastToken :=
        Nat.le_trans h.issued (lastToken_le_handle f message)
      have hfree := not_mem_tokens_run hissued (h.not_mem_tokens hends) messages
      exact handle_of_idle (idle_of_not_mem_tokens rfl hfree)
    · have hstill : (f.run (message :: messages)).1 = (f.run messages).1 := by
        rw [run, h.handle_of_not_endsWait hends]
      rw [hstill]
      obtain ⟨other, hmem, hother⟩ := hended
      rcases List.mem_cons.1 hmem with rfl | hmem
      · exact absurd hother hends
      · exact ih ⟨other, hmem, hother⟩

end Awaits

namespace Rehearsal

/-! ## Waiting on the clock -/

/-- A rehearsal whose feed has waited for a timer since another point: nothing has been begun, and
the wake is still to come, just when the timer is due. -/
structure Waits (r₀ : Rehearsal) (timer : Token) (due : Nat) (r : Rehearsal) : Prop where
  feed : r.feed = r₀.feed
  asked : r.asked = []
  queries : r.queries = r₀.queries
  channels : r.channels = r₀.channels
  timers : ∀ t ∈ r.timers, t.message = .retryDue timer → t.due = due
  wakes : .retryDue timer ∈ r.wakes → r.now = due
  coming : .retryDue timer ∈ r.wakes ∨ r.now ≤ due ∧ ∃ t ∈ r.timers, t.message = .retryDue timer

theorem deliver_of_still {r : Rehearsal} {message : Message}
    (h : r.feed.handle message = (r.feed, [])) : r.deliver message = r := by
  rw [deliver_eq, h]
  rfl

namespace Waits

variable {r₀ r r' : Rehearsal} {timer : Token} {due : Nat}

theorem now_le (h : Waits r₀ timer due r) : r.now ≤ due := by
  rcases h.coming with hwake | ⟨hnow, -⟩
  · exact Nat.le_of_eq (h.wakes hwake)
  · exact hnow

theorem takes (h : Waits r₀ timer due r) {message : Message} (hmessage : ¬ message.EndsWait timer)
    (htakes : r.Takes message r') : Waits r₀ timer due r' := by
  cases htakes with
  | command first | signal first =>
    exact ⟨h.feed, h.asked, h.queries, h.channels, h.timers, h.wakes, h.coming⟩
  | @wake wakes first =>
    have hsame (hmem : .retryDue timer ∈ r.wakes) : .retryDue timer ∈ wakes := by
      rw [first] at hmem
      rcases List.mem_cons.1 hmem with rfl | hmem
      · exact absurd (.inr rfl) hmessage
      · exact hmem
    refine ⟨h.feed, h.asked, h.queries, h.channels, h.timers, fun hmem => h.wakes ?_,
      h.coming.imp_left hsame⟩
    rw [first]
    exact List.mem_cons_of_mem message hmem

/-- The timer rings when it is due, and neither before nor after. -/
theorem ring (h : Waits r₀ timer due r) (hquiet : r.told? = none) :
    Waits r₀ timer due r.ring := by
  obtain ⟨⟨-, hwakes⟩, -⟩ := told?_eq_none.1 hquiet
  have hcoming := h.coming
  rw [hwakes] at hcoming
  obtain hmem | ⟨hnow, t, ht, hmessage⟩ := hcoming
  · cases hmem
  have hdue := h.timers t ht hmessage
  refine ⟨h.feed, h.asked, h.queries, h.channels,
    fun t' ht' => h.timers t' (List.mem_filter.1 ht').1, fun hmem => ?_, ?_⟩
  · obtain ⟨t', ht', hmessage'⟩ := List.mem_map.1 hmem
    obtain ⟨hold, hrings⟩ := List.mem_filter.1 ht'
    have hdue' := h.timers t' hold hmessage'
    have hrings : t'.due ≤ r.now := of_decide_eq_true hrings
    show r.now = due
    omega
  · by_cases hrings : t.due ≤ r.now
    · left
      exact List.mem_map.2 ⟨t, List.mem_filter.2 ⟨ht, decide_eq_true hrings⟩, hmessage⟩
    · exact .inr ⟨hnow, t, List.mem_filter.2 ⟨ht, decide_eq_true (Nat.not_le.1 hrings)⟩, hmessage⟩

theorem next (h : Waits r₀ timer due r) (hawaits : Awaits r₀.feed timer)
    (hstill : ∀ message, r.told? = some message → ¬ message.EndsWait timer)
    (hnext : r.next? = some r') : Waits r₀ timer due r' := by
  have hhappens := happens_of_next? hnext
  generalize htold : r.told? = told at hhappens
  cases hhappens with
  | @told message r₁ htakes =>
    have hends := hstill message htold
    have hwaits := h.takes hends htakes
    have hsame : r₁.feed.handle message = (r₁.feed, []) := by
      rw [hwaits.feed]
      exact hawaits.handle_of_not_endsWait hends
    rw [deliver_of_still hsame]
    exact hwaits
  | begun quiet first =>
    rw [h.asked] at first
    cases first
  | rung quiet due => exact h.ring quiet

/-- Time does not pass the timer. -/
theorem wait (h : Waits r₀ timer due r) (hidle : r.next? = none) {time : Nat}
    (htime : ∀ t ∈ r.timers, time ≤ t.due) : Waits r₀ timer due { r with now := time } := by
  obtain ⟨⟨-, hwakes⟩, -⟩ := told?_eq_none.1 (idle_of_next? hidle).1
  have hnone : .retryDue timer ∉ r.wakes := by
    rw [hwakes]
    exact List.not_mem_nil
  obtain hmem | ⟨hnow, t, ht, hmessage⟩ := h.coming
  · exact absurd hmem hnone
  · refine ⟨h.feed, h.asked, h.queries, h.channels, h.timers, fun hmem => absurd hmem hnone,
      .inr ⟨?_, t, ht, hmessage⟩⟩
    rw [← h.timers t ht hmessage]
    exact htime t ht

theorem disturbs (h : Waits r₀ timer due r) (hdisturbs : r.Disturbs r') :
    Waits r₀ timer due r' := by
  obtain ⟨commands, signals, owned, published, -, -⟩ := hdisturbs
  exact ⟨h.feed, h.asked, h.queries, h.channels, h.timers, h.wakes, h.coming⟩

end Waits

structure Ends (r₀ : Rehearsal) (timer : Token) (due : Nat) (mid : Log) (r₁ : Rehearsal)
    (message : Message) : Prop where
  waits : Waits r₀ timer due r₁
  kept : r₁.Kept
  still : ∀ x ∈ mid, ¬ x.2.EndsWait timer
  told : r₁.told? = some message
  endsWait : message.EndsWait timer

/-- On a path from a feed that waits it waits still, or there is a point at which the wait has
ended. -/
theorem Passes.waits_or_ends {r₀ r : Rehearsal} {timer : Token} {due : Nat} {log : Log}
    (hkept : r₀.Kept) (hawaits : Awaits r₀.feed timer) (hwaits : Waits r₀ timer due r₀)
    (h : Passes r₀ log r) :
    Waits r₀ timer due r ∧ (∀ x ∈ log, ¬ x.2.EndsWait timer) ∨
      ∃ mid r₁ message r₂ rest, Ends r₀ timer due mid r₁ message ∧ r₁.next? = some r₂ ∧
        Passes r₂ rest r ∧ log = mid ++ (r₁.now, message) :: rest := by
  -- The induction is on the path; once the wait has ended, what follows only makes `rest` longer.
  induction h with
  | here => exact .inl ⟨hwaits, List.forall_mem_nil _⟩
  | @next log r' r'' before hnext ih =>
    rcases ih with ⟨hstill, hlog⟩ | ⟨mid, r₁, message, r₂, rest, hends, hnext', hrest, rfl⟩
    · by_cases htold : ∃ message, r'.told? = some message ∧ message.EndsWait timer
      · obtain ⟨message, htold, hends⟩ := htold
        refine .inr ⟨log, r', message, r'', [], ⟨hstill, hkept.passes before, hlog, htold, hends⟩,
          hnext, .here, ?_⟩
        rw [htold]
        rfl
      · have hquiet (message : Message) (h : r'.told? = some message) :
            ¬ message.EndsWait timer := fun hends => htold ⟨message, h, hends⟩
        refine .inl ⟨hstill.next hawaits hquiet hnext, List.forall_mem_append.2 ⟨hlog, ?_⟩⟩
        intro x hx
        obtain ⟨message, hmessage, rfl⟩ := Option.map_eq_some_iff.1 (Option.mem_toList.1 hx)
        exact hquiet message hmessage
    · refine .inr ⟨mid, r₁, message, r₂, _, hends, hnext', hrest.next hnext, ?_⟩
      rw [List.append_assoc, List.cons_append]
  | wait before idle later htime ih =>
    rcases ih with ⟨hstill, hlog⟩ | ⟨mid, r₁, message, r₂, rest, hends, hnext, hrest, rfl⟩
    · exact .inl ⟨hstill.wait idle htime, hlog⟩
    · exact .inr ⟨mid, r₁, message, r₂, rest, hends, hnext, hrest.wait idle later htime, rfl⟩
  | outside before hdisturbs ih =>
    rcases ih with ⟨hstill, hlog⟩ | ⟨mid, r₁, message, r₂, rest, hends, hnext, hrest, rfl⟩
    · exact .inl ⟨hstill.disturbs hdisturbs, hlog⟩
    · exact .inr ⟨mid, r₁, message, r₂, rest, hends, hnext, hrest.outside hdisturbs, rfl⟩

/-- A wake is taken up just when the timer is due. -/
theorem Ends.now_eq {r₀ r₁ : Rehearsal} {timer : Token} {due : Nat} {mid : Log}
    (h : Ends r₀ timer due mid r₁ (.retryDue timer)) : r₁.now = due := by
  have hmem : .retryDue timer ∈ r₁.commands ++ r₁.wakes ++ r₁.signals :=
    List.mem_of_head? h.told
  simp only [List.mem_append] at hmem
  obtain (hcommand | hwake) | hsignal := hmem
  · exact nomatch h.kept.commands _ hcommand
  · exact h.waits.wakes hwake
  · obtain ⟨token, signal, heq⟩ := h.kept.signals _ hsignal
    cases heq

/-- A wait begins with the failure of a channel. -/
theorem Kept.waits_of_failed {r r₀ : Rehearsal} (h : r.Kept) {channel : Token} {failure : Failure}
    (htold : r.told? = some (.signal channel (.failed failure)))
    (haccepts : r.feed.Accepts (.signal channel (.failed failure)))
    (hnext : r.next? = some r₀) :
    Awaits r₀.feed r₀.feed.lastToken ∧
      Waits r₀ r₀.feed.lastToken (r.now + r.feed.options.retryDelay) r₀ := by
  have hhappens := happens_of_next? hnext
  rw [htold] at hhappens
  cases hhappens with
  | @told _ r₁ htakes =>
    have hfeed := htakes.feed
    have hnow : r₁.now = r.now := by cases htakes <;> rfl
    have hkept := htakes.kept h
    rw [← hfeed] at haccepts
    obtain ⟨hawaits, hlast, view, heffects⟩ := handle_failed hkept.standing haccepts
    obtain ⟨-, hsession⟩ := hkept.standing.of_channel haccepts.2
    have hasked := hkept.asked_eq_nil (by rw [hsession])
    -- Nothing comes for the next token yet.
    have hfresh (message : Message) (hmem : message ∈ r₁.coming)
        (heq : message = .retryDue (r₁.feed.lastToken + 1)) : False :=
      Nat.not_succ_le_self _ (hkept.issued message hmem _ (heq ▸ rfl))
    rw [← hfeed, ← hnow]
    refine ⟨?_, ?_⟩
    · rw [deliver_feed, hlast]
      exact hawaits
    · rw [deliver_feed, hlast]
      have hdeliver : r₁.deliver (.signal channel (.failed failure)) =
          [.closeChannel channel, .schedule (r₁.feed.lastToken + 1) r₁.feed.options.retryDelay,
            .publish view].foldl perform
              { r₁ with feed := (r₁.feed.handle (.signal channel (.failed failure))).1 } := by
        rw [deliver_eq, heffects]
      rw [hdeliver]
      refine ⟨rfl, hasked, rfl, rfl, fun t ht hmessage => ?_, fun hmem => ?_, .inr ⟨?_, ?_⟩⟩
      · rcases List.mem_append.1 ht with ht | ht
        · exact (hfresh _ (List.mem_append_right _ (List.mem_map_of_mem ht)) hmessage).elim
        · rw [List.mem_singleton.1 ht]
          rfl
      · exact (hfresh _ (List.mem_append_left _ hmem) rfl).elim
      · exact Nat.le_add_right _ _
      · exact ⟨_, List.mem_append_right _ List.mem_cons_self, rfl⟩

/-! ## After the end -/

/-- A rehearsal whose feed has been closed, and in which nothing has been begun since another
point. -/
structure Over (r₀ r : Rehearsal) : Prop where
  phase : r.feed.phase = .closed
  asked : r.asked = []
  queries : r.queries = r₀.queries
  channels : r.channels = r₀.channels

theorem Over.next {r₀ r r' : Rehearsal} (h : Over r₀ r) (hnext : r.next? = some r') :
    Over r₀ r' := by
  have hhappens := happens_of_next? hnext
  generalize r.told? = told at hhappens
  cases hhappens with
  | @told message r₁ htakes =>
    have hsame : r₁.feed.handle message = (r₁.feed, []) := by
      refine handle_of_not_accepts fun haccepts => haccepts.1 ?_
      rw [htakes.feed]
      exact h.phase
    rw [deliver_of_still hsame]
    cases htakes <;> exact ⟨h.phase, h.asked, h.queries, h.channels⟩
  | begun quiet first =>
    rw [h.asked] at first
    cases first
  | rung quiet due => exact ⟨h.phase, h.asked, h.queries, h.channels⟩

theorem Over.passes {r₀ r r' : Rehearsal} {log : Log} (h : Over r₀ r) (hpasses : Passes r log r') :
    Over r₀ r' := by
  induction hpasses with
  | here => exact h
  | next before hnext ih => exact ih.next hnext
  | wait before idle later due ih => exact ⟨ih.phase, ih.asked, ih.queries, ih.channels⟩
  | outside before hdisturbs ih =>
    cases hdisturbs
    exact ⟨ih.phase, ih.asked, ih.queries, ih.channels⟩

/-- A feed that is ended while it waits begins nothing any more. -/
theorem Waits.over_of_dispose {r₀ r r' : Rehearsal} {timer : Token} {due : Nat}
    (h : Waits r₀ timer due r) (hawaits : Awaits r₀.feed timer) (htold : r.told? = some .dispose)
    (hnext : r.next? = some r') : Over r₀ r' := by
  have hhappens := happens_of_next? hnext
  rw [htold] at hhappens
  cases hhappens with
  | @told _ r₁ htakes =>
    have hfeed : r₁.feed = r₀.feed := htakes.feed.trans h.feed
    have hclose : r₁.feed.handle .dispose = r₁.feed.close := by
      rw [hfeed, handle, if_neg (by rw [hawaits.phase]; decide)]
    have hsession : r₁.feed.session = { retry := some timer } := by rw [hfeed, hawaits.session]
    rw [deliver_eq, hclose, close_effects, hsession]
    cases htakes <;> exact ⟨rfl, h.asked, h.queries, h.channels⟩

/-! ## The timing of retries -/

/-- What holds at a point of a path behind a failure, after which the feed waits for its last timer
until that is due. -/
structure RetriesOnTime (r₀ : Rehearsal) (due : Nat) (log : Log) (r : Rehearsal) : Prop where
  /-- Before the timer is due no snapshot is begun and no channel opened, unless the filter is
  changed first. -/
  not_early : r.now < due → (∀ x ∈ log, ∀ selection, x.2 ≠ .setParams selection) →
    r.queries = r₀.queries ∧ r.channels = r₀.channels
  /-- When it is due one session begins, unless a command has come first.  Whatever else has come
  first has done nothing. -/
  in_time : due < r.now ∨ due = r.now ∧ r.next? = none →
    ∃ mid time message rest, log = mid ++ (time, message) :: rest ∧
      (∀ x ∈ mid, r₀.feed.handle x.2 = (r₀.feed, [])) ∧
      (message.IsCommand ∧ time ≤ due ∧
          .cancel r₀.feed.lastToken ∈ (r₀.feed.handle message).2 ∨
        message = .retryDue r₀.feed.lastToken ∧ time = due ∧
          ∃ view, (r₀.feed.handle message).2 =
            [.fetch (r₀.feed.lastToken + 1) r₀.feed.selection.query, .publish view])
  /-- After a command, or after the timer itself, no wake of the timer does anything, whether it
  comes late or has been waiting. -/
  once : (∃ x ∈ log, x.2.EndsWait r₀.feed.lastToken) →
    r.feed.handle (.retryDue r₀.feed.lastToken) = (r.feed, [])

theorem retriesOnTime_of_waits {r₀ r : Rehearsal} {due : Nat} {log : Log} (hkept : r₀.Kept)
    (hawaits : Awaits r₀.feed r₀.feed.lastToken) (hwaits : Waits r₀ r₀.feed.lastToken due r₀)
    (h : Passes r₀ log r) : RetriesOnTime r₀ due log r := by
  have hcases := h.waits_or_ends hkept hawaits hwaits
  refine ⟨fun hearly hfilter => ?_, fun hlate => ?_, fun hended => ?_⟩
  · rcases hcases with ⟨hstill, -⟩ | ⟨mid, r₁, message, r₂, rest, hends, hnext, hrest, rfl⟩
    · exact ⟨hstill.queries, hstill.channels⟩
    · have hmem : (r₁.now, message) ∈ mid ++ (r₁.now, message) :: rest := by simp
      obtain hcommand | rfl := hends.endsWait
      · cases message with
        | setParams selection => exact absurd rfl (hfilter _ hmem selection)
        | dispose =>
          have hover := (hends.waits.over_of_dispose hawaits hends.told hnext).passes hrest
          exact ⟨hover.queries, hover.channels⟩
        | snapshot | retryDue | signal => cases hcommand
      · -- The wake has come when the timer was due, and time does not go back.
        have hdue := hends.now_eq
        have hnow := hrest.now_le
        rw [now_of_next? hnext] at hnow
        omega
  · rcases hcases with ⟨hstill, -⟩ | ⟨mid, r₁, message, r₂, rest, hends, hnext, hrest, rfl⟩
    · have hnow := hstill.now_le
      obtain hlate | ⟨hdue, hidle⟩ := hlate
      · omega
      · have hquiet := idle_of_next? hidle
        obtain ⟨⟨-, hwakes⟩, -⟩ := told?_eq_none.1 hquiet.1
        have hcoming := hstill.coming
        rw [hwakes] at hcoming
        obtain hmem | ⟨-, t, ht, hmessage⟩ := hcoming
        · cases hmem
        · have hpast := hquiet.2 t ht
          have htime := hstill.timers t ht hmessage
          omega
    · refine ⟨mid, r₁.now, message, rest, rfl,
        fun x hx => hawaits.handle_of_not_endsWait (hends.still x hx), ?_⟩
      obtain hcommand | rfl := hends.endsWait
      · exact .inl ⟨hcommand, hends.waits.now_le, hawaits.cancel_mem hcommand⟩
      · exact .inr ⟨rfl, hends.now_eq, hawaits.handle_retryDue⟩
  · obtain ⟨x, hx, hends⟩ := hended
    rw [h.feed_eq]
    exact hawaits.handle_retryDue_run ⟨x.2, List.mem_map_of_mem hx, hends⟩

/-- However a rehearsal is cut into actions, it goes along a path on which the feed is given some
messages.  And wherever a path takes up the failure of a channel, all that follows is in time with
the delay. -/
theorem retries_on_time (options : Options) (selection : Selection) (snapshots : List Scripted)
    (greetings : List (List Channel.Signal)) :
    (∀ batches, ∃ log,
      Passes (ofScript options selection snapshots greetings).begun log
        ((ofScript options selection snapshots greetings).rehearse batches)) ∧
    ∀ before r, Passes (ofScript options selection snapshots greetings).begun before r →
      r.feed = (course options selection (before.map Prod.snd)).1 ∧
      ∀ channel failure, r.told? = some (.signal channel (.failed failure)) →
        r.feed.Accepts (.signal channel (.failed failure)) →
          ∃ r₀, r.next? = some r₀ ∧ ∀ log r', Passes r₀ log r' →
            RetriesOnTime r₀ (r.now + options.retryDelay) log r' := by
  refine ⟨exists_passes_rehearse _, fun before r hbefore => ?_⟩
  have hfeed : r.feed = (course options selection (before.map Prod.snd)).1 := hbefore.feed_eq
  refine ⟨hfeed, fun channel failure htold haccepts => ?_⟩
  have hkept := (kept_begun options selection snapshots greetings).passes hbefore
  have hoptions : r.feed.options = options := by rw [hfeed, course_options]
  cases hnext : r.next? with
  | none =>
    rw [(idle_of_next? hnext).1] at htold
    cases htold
  | some r₀ =>
    obtain ⟨hawaits, hwaits⟩ := hkept.waits_of_failed htold haccepts hnext
    rw [hoptions] at hwaits
    exact ⟨r₀, rfl, fun log r' h =>
      retriesOnTime_of_waits (hkept.next hnext) hawaits hwaits h⟩

/-- A rehearsal whose first channel fails at once, with a delay of ten milliseconds. -/
def failing : Rehearsal := ofScript { retryDelay := 10 } {} [] [[.failed (.stream "reset")]]

def failed : Rehearsal := settleWithin 2 failing.begun

def waiting : Rehearsal := settleWithin 3 failing.begun

/-- The channel fails once more after six milliseconds, and another four later the timer is due. -/
def failedAgain : List Action := [.advance 6, .send none (.failed (.stream "late")), .advance 4]

theorem retries_on_time_failing :
    ∃ before log, Passes failing.begun before failed ∧ failed.now = 0 ∧
      failed.told? = some (.signal 2 (.failed (.stream "reset"))) ∧
      failed.feed.Accepts (.signal 2 (.failed (.stream "reset"))) ∧
      failed.next? = some waiting ∧ Passes waiting log (waiting.step failedAgain).1 ∧
      (waiting.step failedAgain).1.now = 10 ∧ (waiting.step failedAgain).1.next? = none ∧
      RetriesOnTime waiting 10 log (waiting.step failedAgain).1 := by
  obtain ⟨before, hbefore⟩ := exists_passes_settleWithin 2 failing.begun
  obtain ⟨log, hlog⟩ := exists_passes_step waiting failedAgain
  have hnext : failed.next? = some waiting := rfl
  have htold : failed.told? = some (.signal 2 (.failed (.stream "reset"))) := rfl
  have haccepts : failed.feed.Accepts (.signal 2 (.failed (.stream "reset"))) := by decide
  have hnow : (waiting.step failedAgain).1.now = 10 := rfl
  have hpaths := (retries_on_time { retryDelay := 10 } {} [] [[.failed (.stream "reset")]]).2
  obtain ⟨r₀, hnext', htimes⟩ := (hpaths before failed hbefore).2 _ _ htold haccepts
  obtain rfl : waiting = r₀ := Option.some.inj (hnext.symm.trans hnext')
  exact ⟨before, log, hbefore, rfl, htold, haccepts, hnext, hlog, hnow, next?_settle _,
    htimes log _ hlog⟩

end Rehearsal

end LiveRuns.Feed
