import LiveRuns.Proofs.Feed.Clock
import LiveRuns.Proofs.Feed.Erasure
import LiveRuns.Proofs.Feed.Standing

/-!
What is kept in a rehearsal.

The feed of a rehearsal is told of what it has started by messages that come by themselves: wakes
that wait for it, and timers that have not rung.  None of them comes for a token that has not been
given out; and a snapshot that has been asked for and not begun is the one that the feed holds, so
that a feed which holds none never has one begun.  `Kept` says so, and `Kept.passes` that it holds
on every path.
-/

namespace LiveRuns.Feed

namespace Rehearsal

/-- The messages that come by themselves, at once or when their timers ring. -/
def coming (r : Rehearsal) : List Message := r.wakes ++ r.timers.map Timer.message

/-- What holds of a rehearsal on every path: what waits is where it belongs, nothing comes for a
token that has not been given out, and a snapshot that has been asked for is the one held and has
not come. -/
structure Kept (r : Rehearsal) : Prop where
  standing : Standing r.feed
  commands : ∀ message ∈ r.commands, message.IsCommand
  signals : ∀ message ∈ r.signals, ∃ token signal, message = .signal token signal
  issued : ∀ message ∈ r.coming, ∀ token, message.token? = some token → token ≤ r.feed.lastToken
  asked_length : r.asked.length ≤ 1
  asked : ∀ a ∈ r.asked, r.feed.session.snapshot = some a.1 ∧ a.1 ≤ r.feed.lastToken ∧
    ∀ message ∈ r.coming, message.token? ≠ some a.1

namespace Kept

variable {r : Rehearsal} (h : r.Kept)

include h

theorem asked_eq_nil (hnone : r.feed.session.snapshot = none) : r.asked = [] := by
  refine List.eq_nil_iff_forall_not_mem.2 fun a ha => ?_
  have hheld := (h.asked a ha).1
  rw [hnone] at hheld
  cases hheld

theorem asked_released : (r.asked.filter fun a => r.feed.session.snapshot ≠ some a.1) = [] := by
  refine List.filter_eq_nil_iff.2 fun a ha => ?_
  simp [(h.asked a ha).1]

end Kept

theorem asked_foldl_release (r : Rehearsal) (s : Session) :
    (s.release.foldl perform r).asked = r.asked.filter fun a => s.snapshot ≠ some a.1 := by
  obtain ⟨snapshot, channel, retry⟩ := s
  cases snapshot with
  | none =>
    have hall : (r.asked.filter fun a => (none : Option Token) ≠ some a.1) = r.asked :=
      List.filter_eq_self.2 fun _ _ => by simp
    cases channel <;> cases retry <;> exact hall.symm
  | some token => cases channel <;> cases retry <;> simp [Session.release, perform, eq_comm]

theorem schedule_not_mem_release (s : Session) (token : Token) (delay : Nat) :
    .schedule token delay ∉ s.release := by
  obtain ⟨snapshot, channel, retry⟩ := s
  cases snapshot <;> cases channel <;> cases retry <;> simp [Session.release]

/-- What is asked for after a message: nothing, what was asked for before, or the snapshot of a new
session, and then no timer is set. -/
theorem Kept.asked_deliver {r : Rehearsal} (h : r.Kept) {message : Message}
    (hnew : ∀ token result, message = .snapshot token result → ∀ a ∈ r.asked, a.1 ≠ token) :
    (r.deliver message).asked = [] ∨
      ((r.deliver message).asked = r.asked ∧
        (r.feed.handle message).1.session.snapshot = r.feed.session.snapshot) ∨
      ((∃ query, (r.deliver message).asked = [(r.feed.lastToken + 1, query)]) ∧
        (r.feed.handle message).1.session.snapshot = some (r.feed.lastToken + 1) ∧
        (r.feed.handle message).1.lastToken = r.feed.lastToken + 1 ∧
        ∀ token delay, .schedule token delay ∉ (r.feed.handle message).2) := by
  rw [deliver_eq]
  induction message using handle_cases (f := r.feed) with
  | refused => exact .inr (.inl ⟨rfl, rfl⟩)
  | setParams selection =>
    refine .inr (.inr ⟨⟨selection.query, ?_⟩, rfl, rfl, fun token delay => ?_⟩)
    · rw [restart_effects, List.foldl_append]
      show (r.feed.session.release.foldl perform _).asked ++ _ = _
      rw [asked_foldl_release]
      show (r.asked.filter _) ++ _ = _
      rw [h.asked_released]
      rfl
    · rw [restart_effects]
      simp [schedule_not_mem_release]
  | dispose =>
    left
    rw [close_effects, List.foldl_append]
    show (r.feed.session.release.foldl perform _).asked = _
    rw [asked_foldl_release]
    exact h.asked_released
  | snapshot token result hphase hheld =>
    left
    have hasked : r.asked = [] := by
      refine List.eq_nil_iff_forall_not_mem.2 fun a ha => hnew token result rfl a ha ?_
      have hsame := (h.asked a ha).1
      rw [hheld] at hsame
      exact (Option.some.inj hsame).symm
    rw [takeSnapshot_effects]
    cases r.feed.session.channel <;> exact hasked
  | retryDue token hphase hheld =>
    obtain ⟨-, hsession⟩ := h.standing.of_retry hheld
    have hasked := h.asked_eq_nil (by rw [hsession])
    refine .inr (.inr ⟨⟨r.feed.selection.query, ?_⟩, rfl, rfl, fun token delay => ?_⟩)
    · rw [reconnect_effects, hsession]
      show r.asked ++ _ = _
      rw [hasked]
      rfl
    · rw [reconnect_effects]
      simp [schedule_not_mem_release]
  | signal token signal hphase hheld =>
    cases signal with
    | opened | event | malformed => exact .inr (.inl ⟨rfl, rfl⟩)
    | failed failure =>
      left
      obtain ⟨-, hsession⟩ := h.standing.of_channel hheld
      have hasked := h.asked_eq_nil (by rw [hsession])
      rw [takeSignal, failChannel_effects, hsession]
      exact hasked

theorem Takes.mem {r r₀ : Rehearsal} {message : Message} (h : r.Takes message r₀) :
    message ∈ r.commands ∨ message ∈ r.coming ∨ message ∈ r.signals := by
  cases h with
  | command first | signal first => simp [first]
  | wake first => simp [coming, first]

/-- What is kept bears on what waits and comes, so it is kept when less does. -/
theorem Kept.mono {r r' : Rehearsal} (h : r.Kept) (hfeed : r'.feed = r.feed)
    (hasked : r'.asked = r.asked) (hcommands : ∀ message ∈ r'.commands, message ∈ r.commands)
    (hsignals : ∀ message ∈ r'.signals, message ∈ r.signals)
    (hcoming : ∀ message ∈ r'.coming, message ∈ r.coming) : r'.Kept := by
  refine ⟨hfeed ▸ h.standing, fun message hmem => h.commands message (hcommands message hmem),
    fun message hmem => h.signals message (hsignals message hmem),
    fun message hmem => hfeed ▸ h.issued message (hcoming message hmem), hasked ▸ h.asked_length,
    fun a ha => ?_⟩
  rw [hasked] at ha
  obtain ⟨hheld, hissued, hfree⟩ := h.asked a ha
  rw [hfeed]
  exact ⟨hheld, hissued, fun message hmem => hfree message (hcoming message hmem)⟩

theorem Takes.kept {r r₀ : Rehearsal} {message : Message} (h : r.Takes message r₀) (hr : r.Kept) :
    r₀.Kept := by
  have hall (messages : List Message) : ∀ other ∈ messages, other ∈ messages := fun _ hmem => hmem
  have htail {messages rest : List Message} (first : messages = message :: rest) :
      ∀ other ∈ rest, other ∈ messages := fun _ hmem => first ▸ List.mem_cons_of_mem message hmem
  cases h with
  | command first => exact hr.mono rfl rfl (htail first) (hall _) (hall _)
  | wake first =>
    refine hr.mono rfl rfl (hall _) (hall _) fun other hmem => ?_
    rw [coming, first]
    exact List.mem_cons_of_mem message hmem
  | signal first => exact hr.mono rfl rfl (hall _) (htail first) (hall _)

/-- The tokens of what comes by itself after a message are older ones, or that of the timer that is
set. -/
theorem mem_coming_deliver {r : Rehearsal} {message other : Message}
    (h : other ∈ (r.deliver message).coming) :
    other ∈ r.coming ∨ ∃ token delay, .schedule token delay ∈ (r.feed.handle message).2 ∧
      other = .retryDue token := by
  rcases List.mem_append.1 h with h | h
  · rw [deliver_wakes] at h
    exact .inl (List.mem_append_left _ h)
  · obtain ⟨timer, htimer, rfl⟩ := List.mem_map.1 h
    rcases mem_timers_foldl_perform htimer with hold | ⟨token, delay, hmem, rfl⟩
    · exact .inl (List.mem_append_right _ (List.mem_map_of_mem hold))
    · exact .inr ⟨token, delay, hmem, rfl⟩

/-- A timer that is set has the next token. -/
theorem eq_of_schedule_mem {f : Feed} {message : Message} {token : Token} {delay : Nat}
    (h : .schedule token delay ∈ (f.handle message).2) :
    token = f.lastToken + 1 ∧ (f.handle message).1.lastToken = f.lastToken + 1 := by
  have hissued : token ∈ issued (f.handle message).2 := List.mem_filterMap.2 ⟨_, h, rfl⟩
  rcases handle_issued f message with ⟨hnone, -⟩ | ⟨hone, hlast⟩
  · rw [hnone] at hissued
    cases hissued
  · rw [hone] at hissued
    exact ⟨List.mem_singleton.1 hissued, hlast⟩

theorem Kept.deliver {r : Rehearsal} (h : r.Kept) {message : Message}
    (hnew : ∀ token result, message = .snapshot token result → ∀ a ∈ r.asked, a.1 ≠ token) :
    (r.deliver message).Kept := by
  have hlast := lastToken_le_handle r.feed message
  refine ⟨?_, ?_, ?_, ?_, ?_, ?_⟩
  · rw [deliver_feed]
    exact h.standing.handle message
  · rw [deliver_commands]
    exact h.commands
  · intro other hmem
    rcases mem_signals_foldl_perform hmem with hold | hsignal
    · exact h.signals other hold
    · exact hsignal
  · intro other hmem token htoken
    rw [deliver_feed]
    rcases mem_coming_deliver hmem with hold | ⟨timer, delay, hset, rfl⟩
    · exact Nat.le_trans (h.issued other hold token htoken) hlast
    · cases htoken
      obtain ⟨rfl, hnext⟩ := eq_of_schedule_mem hset
      exact Nat.le_of_eq hnext.symm
  · rcases h.asked_deliver hnew with hnone | ⟨hsame, -⟩ | ⟨⟨query, hone⟩, -⟩
    · rw [hnone]
      exact Nat.zero_le 1
    · rw [hsame]
      exact h.asked_length
    · rw [hone]
      exact Nat.le_refl 1
  · intro a ha
    rw [deliver_feed]
    rcases h.asked_deliver hnew with hnone | ⟨hsame, hsnapshot⟩ |
      ⟨⟨query, hone⟩, hheld, hnext, hset⟩
    · rw [hnone] at ha
      cases ha
    · rw [hsame] at ha
      obtain ⟨hheld, hissued, hcoming⟩ := h.asked a ha
      refine ⟨hsnapshot ▸ hheld, Nat.le_trans hissued hlast, fun other hmem htoken => ?_⟩
      rcases mem_coming_deliver hmem with hold | ⟨timer, delay, hset, rfl⟩
      · exact hcoming other hold htoken
      · cases htoken
        -- The timer has a token that the snapshot cannot have.
        rw [(eq_of_schedule_mem hset).1] at hissued
        exact Nat.not_succ_le_self _ hissued
    · rw [hone, List.mem_singleton] at ha
      subst ha
      refine ⟨hheld, Nat.le_of_eq hnext.symm, fun other hmem htoken => ?_⟩
      rcases mem_coming_deliver hmem with hold | ⟨timer, delay, hmember, rfl⟩
      · exact Nat.not_succ_le_self _ (h.issued other hold _ htoken)
      · exact hset _ _ hmember

/-- A snapshot that is begun comes by itself, at once or later. -/
theorem mem_coming_begin {r : Rehearsal} {token : Token} {query : RunQuery} {other : Message}
    (h : other ∈ (r.begin token query).coming) :
    other ∈ r.coming ∨ ∃ result, other = .snapshot token result := by
  unfold begin at h
  simp only at h
  split at h
  · simp only [coming, List.mem_append, List.mem_singleton] at h ⊢
    rcases h with (h | h) | h
    · exact .inl (.inl h)
    · exact .inr ⟨_, h⟩
    · exact .inl (.inr h)
  · simp only [coming, List.map_append, List.mem_append, List.map_cons, List.map_nil,
      List.mem_singleton] at h ⊢
    rcases h with h | h | h
    · exact .inl (.inl h)
    · exact .inl (.inr h)
    · exact .inr ⟨_, h⟩

theorem mem_coming_ring {r : Rehearsal} {other : Message} (h : other ∈ r.ring.coming) :
    other ∈ r.coming := by
  refine List.mem_append_right _ ?_
  rcases List.mem_append.1 h with h | h
  · exact (List.filter_sublist.map Timer.message).subset h
  · exact (List.filter_sublist.map Timer.message).subset h

theorem Kept.next {r r' : Rehearsal} (h : r.Kept) (hnext : r.next? = some r') : r'.Kept := by
  have hhappens := happens_of_next? hnext
  generalize r.told? = told at hhappens
  cases hhappens with
  | @told message r₀ takes =>
    refine (takes.kept h).deliver ?_
    rintro token result rfl a ha rfl
    have hasked : a ∈ r.asked := by
      cases takes <;> exact ha
    -- A snapshot that has come is not one that is still asked for.
    rcases takes.mem with hmem | hmem | hmem
    · exact nomatch h.commands _ hmem
    · exact (h.asked a hasked).2.2 _ hmem rfl
    · obtain ⟨token, signal, heq⟩ := h.signals _ hmem
      cases heq
  | @begun token query asked quiet first =>
    -- At most one snapshot was asked for, so after this none is.
    obtain ⟨-, hissued, -⟩ := h.asked (token, query) (first ▸ List.mem_cons_self)
    have hone : asked = [] := by
      have hlength := h.asked_length
      rw [first, List.length_cons] at hlength
      exact List.eq_nil_of_length_eq_zero (by omega)
    have hasked : ({ r with asked }.begin token query).asked = [] := by rw [begin_asked, hone]
    refine ⟨?_, ?_, ?_, ?_, ?_, ?_⟩
    · rw [begin_feed]
      exact h.standing
    · rw [begin_commands]
      exact h.commands
    · rw [begin_signals]
      exact h.signals
    · intro other hmem t ht
      rw [begin_feed]
      rcases mem_coming_begin hmem with hold | ⟨result, rfl⟩
      · exact h.issued other hold t ht
      · cases ht
        exact hissued
    · rw [hasked]
      exact Nat.zero_le 1
    · rw [hasked]
      exact List.forall_mem_nil _
  | rung quiet due =>
    exact h.mono rfl rfl (fun _ hmem => hmem) (fun _ hmem => hmem)
      (fun _ hmem => mem_coming_ring hmem)

theorem Kept.disturbs {r r' : Rehearsal} (h : r.Kept) (hdisturbs : r.Disturbs r') : r'.Kept := by
  obtain ⟨commands, signals, owned, published, hcommands, hsignals⟩ := hdisturbs
  exact ⟨h.standing, List.forall_mem_append.2 ⟨h.commands, hcommands⟩,
    List.forall_mem_append.2 ⟨h.signals, hsignals⟩, h.issued, h.asked_length, h.asked⟩

theorem Kept.passes {r r' : Rehearsal} {log : Log} (h : r.Kept) (hpasses : Passes r log r') :
    r'.Kept := by
  induction hpasses with
  | here => exact h
  | next before hnext ih => exact ih.next hnext
  | wait before idle later due ih =>
    exact ⟨ih.standing, ih.commands, ih.signals, ih.issued, ih.asked_length, ih.asked⟩
  | outside before hdisturbs ih => exact ih.disturbs hdisturbs

theorem kept_begun (options : Options) (selection : Selection) (snapshots : List Scripted)
    (greetings : List (List Channel.Signal)) :
    (ofScript options selection snapshots greetings).begun.Kept := by
  refine ⟨.fetching 1 rfl rfl, List.forall_mem_nil _, List.forall_mem_nil _, List.forall_mem_nil _,
    Nat.le_refl 1, fun a ha => ?_⟩
  obtain rfl : a = (1, selection.query) := List.mem_singleton.1 ha
  exact ⟨rfl, Nat.le_refl 1, List.forall_mem_nil _⟩

end Rehearsal

end LiveRuns.Feed
