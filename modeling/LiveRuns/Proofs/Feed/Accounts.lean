import LiveRuns.Proofs.Feed.Record
import LiveRuns.Proofs.Feed.Turns
import LiveRuns.Proofs.Feed.Standing

/-!
The accounts of an epoch.

From one change of the filter to the next a feed goes through sessions, and every session has the
same story: its snapshot is begun, its result is taken up, its channel is opened, and the failure of
this channel is taken up.  A session may break off anywhere after the beginning, but only one whose
story is whole is followed by another one in the same epoch.  `Running` says this of the epoch that
a feed is in, together with the place in the story of its last session; `Accounts` is what remains
when the feed is forgotten, and everything that can be counted follows from it.

The main result is `accounts_course`: in every course channels take turns, and every epoch is
accounted for.
-/

namespace LiveRuns.Feed

/-! ## The story of a session -/

/-- What a session comes to if it is not broken off. -/
def story (selection : Selection) (snapshot : Token) (result : Except Failure (List Run))
    (channel : Token) (failure : Failure) : List Entry :=
  [.done (.fetch snapshot selection.query), .taken (.snapshot snapshot result),
    .done (.openChannel channel selection.params), .taken (.signal channel (.failed failure))]

def Entry.isMilestone : Entry → Bool
  | .done (.fetch _ _) | .done (.openChannel _ _) => true
  | .taken (.snapshot _ _) | .taken (.signal _ (.failed _)) => true
  | _ => false

def milestones (record : List Entry) : List Entry := record.filter Entry.isMilestone

@[simp] theorem milestones_append (first second : List Entry) :
    milestones (first ++ second) = milestones first ++ milestones second := List.filter_append ..

@[simp] theorem milestones_release (s : Session) : milestones (s.release.map .done) = [] := by
  obtain ⟨snapshot, channel, retry⟩ := s
  cases snapshot <;> cases channel <;> cases retry <;> rfl

/-- A reading that passes over everything but milestones is the same of the story. -/
theorem filterMap_milestones {α : Type} {reading : Effect → Option α}
    (h : ∀ effect, (Entry.done effect).isMilestone = false → reading effect = none)
    (record : List Entry) :
    (effectsOf (milestones record)).filterMap reading =
      (effectsOf record).filterMap reading := by
  simp only [effectsOf, milestones, List.filterMap_filterMap, List.filterMap_filter]
  refine List.filterMap_congr fun entry _ => ?_
  rcases entry with message | effect
  · split <;> rfl
  · split
    · rfl
    · next hmark => exact (h effect (by simpa using hmark)).symm

theorem queries_milestones (record : List Entry) :
    queries (effectsOf (milestones record)) = queries (effectsOf record) :=
  filterMap_milestones (fun effect h => by cases effect <;> first | rfl | cases h) record

theorem openings_milestones (record : List Entry) :
    openings (effectsOf (milestones record)) = openings (effectsOf record) :=
  filterMap_milestones (fun effect h => by cases effect <;> first | rfl | cases h) record

theorem countP_isFailure_milestones (record : List Entry) :
    (milestones record).countP Entry.isFailure = record.countP Entry.isFailure := by
  rw [milestones, List.countP_filter]
  refine List.countP_congr fun entry _ => ?_
  rcases entry with message | effect
  · cases message with
    | signal token signal => cases signal <;> simp [Entry.isFailure, Entry.isMilestone]
    | setParams | dispose | snapshot | retryDue => simp [Entry.isFailure]
  · simp [Entry.isFailure]

section

variable {selection : Selection} {snapshot channel : Token}
  {result : Except Failure (List Run)} {failure : Failure} {session : List Entry}

/-- What a story that has begun amounts to: one query, at most one opening, and no failure without
an opening. -/
theorem tally_of_begun (hne : milestones session ≠ [])
    (hbegins : milestones session <+: story selection snapshot result channel failure) :
    queries (effectsOf session) = [selection.query] ∧
      (openings (effectsOf session) = [] ∧ session.countP Entry.isFailure = 0 ∨
        openings (effectsOf session) = [selection.params] ∧
          session.countP Entry.isFailure ≤ 1) := by
  rw [← queries_milestones, ← openings_milestones, ← countP_isFailure_milestones]
  rw [List.prefix_iff_eq_take] at hbegins
  have hpos := List.length_pos_iff.mpr hne
  rw [hbegins]
  -- The story breaks off after one, two, three or four entries.
  generalize (milestones session).length = n at hpos
  match n, hpos with
  | 1, _ | 2, _ => exact ⟨rfl, .inl ⟨rfl, rfl⟩⟩
  | 3, _ => exact ⟨rfl, .inr ⟨rfl, Nat.zero_le 1⟩⟩
  | n + 4, _ =>
    rw [List.take_of_length_le (Nat.le_add_left 4 n)]
    exact ⟨rfl, .inr ⟨rfl, Nat.le_refl 1⟩⟩

theorem tally_of_story (h : milestones session = story selection snapshot result channel failure) :
    session.countP Entry.isFailure = 1 := by
  rw [← countP_isFailure_milestones, h]
  rfl

end

/-! ## Accounts -/

/-- The beginning of a story: its snapshot, and perhaps more. -/
def Begun (selection : Selection) (marks : List Entry) : Prop :=
  ∃ snapshot result channel failure, marks ≠ [] ∧
    marks <+: story selection snapshot result channel failure

def Whole (selection : Selection) (marks : List Entry) : Prop :=
  ∃ snapshot result channel failure, marks = story selection snapshot result channel failure

theorem Whole.begun {selection : Selection} {marks : List Entry} (h : Whole selection marks) :
    Begun selection marks := by
  obtain ⟨snapshot, result, channel, failure, h⟩ := h
  exact ⟨snapshot, result, channel, failure, by simp [h, story], h ▸ List.prefix_rfl⟩

/-- How many times a reader was told that the feed has begun anew, at the end of an epoch. -/
def attempts (epoch : List Entry) : Nat := (lastView (effectsOf epoch)).reconnectAttempts

structure Accounts (selection : Selection) (epoch : List Entry) : Prop where
  /-- In every session the snapshot comes before the channel and the channel before its failure,
  each at most once, and the snapshot is always begun. -/
  begun : ∀ session ∈ sessions epoch, Begun selection (milestones session)
  /-- What is asked for is the filter of the snapshots, or else that of the channel. -/
  query : ∀ session ∈ sessions epoch, queries (effectsOf session) =
    [selection.initialFetch.getD selection.params.toQuery]
  opening : ∀ session ∈ sessions epoch, (openings (effectsOf session)).length ≤ 1
  params : ∀ params ∈ openings (effectsOf epoch), params = selection.params
  retries : epoch.countP Entry.isRetry = attempts epoch
  sessions : (sessions epoch).length = attempts epoch + 1
  attempts_le : attempts epoch ≤ epoch.countP Entry.isFailure
  failures_le : epoch.countP Entry.isFailure ≤ (openings (effectsOf epoch)).length
  openings_le : (openings (effectsOf epoch)).length ≤ attempts epoch + 1

/-- Sessions that have begun have no more failures than openings, and open no more channels than
there are sessions, all for the same filter. -/
theorem tally_flatten {selection : Selection} {parts : List (List Entry)}
    (h : ∀ session ∈ parts, Begun selection (milestones session)) :
    parts.flatten.countP Entry.isFailure ≤ (openings (effectsOf parts.flatten)).length ∧
      (openings (effectsOf parts.flatten)).length ≤ parts.length ∧
      ∀ params ∈ openings (effectsOf parts.flatten), params = selection.params := by
  induction parts with
  | nil => simp [effectsOf, openings]
  | cons session parts ih =>
    obtain ⟨hfailures, hopenings, hparams⟩ := ih fun s hs => h s (List.mem_cons_of_mem _ hs)
    obtain ⟨_, _, _, _, hne, hbegins⟩ := h session List.mem_cons_self
    obtain ⟨-, hsession⟩ := tally_of_begun hne hbegins
    simp only [List.flatten_cons, List.countP_append, effectsOf_append, openings_append,
      List.length_append, List.length_cons, List.mem_append]
    rcases hsession with ⟨hopening, hfailure⟩ | ⟨hopening, hfailure⟩
    · rw [hopening, hfailure, List.length_nil]
      refine ⟨by omega, by omega, ?_⟩
      rintro params (hmem | hmem)
      · exact absurd hmem List.not_mem_nil
      · exact hparams params hmem
    · rw [hopening, List.length_singleton]
      refine ⟨by omega, by omega, ?_⟩
      rintro params (hmem | hmem)
      · exact List.mem_singleton.mp hmem
      · exact hparams params hmem

theorem length_le_countP_isFailure {selection : Selection} {parts : List (List Entry)}
    (h : ∀ session ∈ parts, Whole selection (milestones session)) :
    parts.length ≤ parts.flatten.countP Entry.isFailure := by
  induction parts with
  | nil => exact Nat.le_refl 0
  | cons session parts ih =>
    obtain ⟨_, _, _, _, hstory⟩ := h session List.mem_cons_self
    have hparts := ih fun s hs => h s (List.mem_cons_of_mem _ hs)
    rw [List.flatten_cons, List.countP_append, tally_of_story hstory, List.length_cons]
    omega

/-! ## The epoch that a feed is in -/

/-- How far the story of a session has come, and what the feed holds there. -/
inductive Stage (f : Feed) (marks : List Entry) : Prop where
  | fetching (snapshot : Token) (session : f.session = { snapshot := some snapshot })
      (marks_eq : marks = [.done (.fetch snapshot f.selection.query)])
  | following (snapshot : Token) (result : Except Failure (List Run)) (channel : Token)
      (session : f.session = { channel := some channel })
      (marks_eq : marks = [.done (.fetch snapshot f.selection.query),
        .taken (.snapshot snapshot result), .done (.openChannel channel f.selection.params)])
  | waiting (snapshot : Token) (result : Except Failure (List Run)) (channel : Token)
      (failure : Failure) (timer : Token) (session : f.session = { retry := some timer })
      (marks_eq : marks = story f.selection snapshot result channel failure)
  | closed (snapshot : Token) (result : Except Failure (List Run)) (channel : Token)
      (failure : Failure) (phase : f.phase = .closed) (ne : marks ≠ [])
      (begun : marks <+: story f.selection snapshot result channel failure)

theorem Stage.begun {f : Feed} {marks : List Entry} (h : Stage f marks) :
    Begun f.selection marks := by
  cases h with
  | fetching snapshot held marks_eq =>
    exact ⟨snapshot, .ok [], 0, .stream "", by simp [marks_eq], ⟨_, by rw [marks_eq]; rfl⟩⟩
  | following snapshot result channel held marks_eq =>
    exact ⟨snapshot, result, channel, .stream "", by simp [marks_eq], ⟨_, by rw [marks_eq]; rfl⟩⟩
  | waiting snapshot result channel failure timer held marks_eq =>
    exact Whole.begun ⟨snapshot, result, channel, failure, marks_eq⟩
  | closed snapshot result channel failure phase ne begun =>
    exact ⟨snapshot, result, channel, failure, ne, begun⟩

theorem entries_of_accepts {f : Feed} {message : Message} (h : f.Accepts message) :
    f.entries message = .taken message :: (f.handle message).2.map .done := if_pos h

/-- Neither the messages that are no part of a story nor a release are seen in it. -/
theorem milestones_taken_release {message : Message}
    (h : (Entry.taken message).isMilestone = false) (s : Session) (effects : List Effect) :
    milestones (.taken message :: (s.release ++ effects).map .done) =
      milestones (effects.map .done) := by
  have htaken : milestones (.taken message :: (s.release ++ effects).map .done) =
      milestones ((s.release ++ effects).map .done) :=
    List.filter_cons_of_neg (by simp [h])
  rw [htaken, List.map_append, milestones_append, milestones_release, List.nil_append]

/-- A change of the filter begins the story of a session. -/
theorem stage_restart {f : Feed} (selection : Selection) (h : f.phase ≠ .closed) :
    Stage (f.handle (.setParams selection)).1 (milestones (f.entries (.setParams selection))) := by
  have hhandle : f.handle (.setParams selection) = f.restart selection := by
    rw [handle, if_neg h]
  refine .fetching (f.lastToken + 1) (by rw [hhandle]; rfl) ?_
  rw [entries_of_accepts ⟨h, trivial⟩, hhandle, restart_effects, milestones_taken_release rfl]
  rfl

theorem stage_reconnect {f : Feed} {token : Token} (h : f.Accepts (.retryDue token)) :
    Stage (f.handle (.retryDue token)).1 (milestones (f.entries (.retryDue token))) := by
  have hhandle : f.handle (.retryDue token) = f.reconnect := by
    rw [handle, if_neg h.1]
    exact if_pos h.2
  refine .fetching (f.lastToken + 1) (by rw [hhandle]; rfl) ?_
  rw [entries_of_accepts h, hhandle, reconnect_effects, milestones_taken_release rfl]
  rfl

/-- A timer is only held when the story of the session is whole. -/
theorem Stage.whole {f : Feed} {token : Token} {marks : List Entry} (h : Stage f marks)
    (haccepts : f.Accepts (.retryDue token)) : Whole f.selection marks := by
  obtain ⟨hphase, hheld⟩ := haccepts
  cases h with
  | waiting snapshot result channel failure timer held marks_eq =>
    exact ⟨snapshot, result, channel, failure, marks_eq⟩
  | fetching _ held | following _ _ _ held =>
    rw [held] at hheld
    cases hheld
  | closed _ _ _ _ phase => exact absurd phase hphase

/-- A snapshot is only held at the beginning of the story. -/
theorem Stage.of_snapshot {f : Feed} {token : Token} {marks : List Entry} (h : Stage f marks)
    (hphase : f.phase ≠ .closed) (hheld : f.session.snapshot = some token) :
    f.session = { snapshot := some token } ∧
      marks = [.done (.fetch token f.selection.query)] := by
  cases h with
  | fetching snapshot held marks_eq =>
    rw [held] at hheld
    obtain rfl : snapshot = token := Option.some.inj hheld
    exact ⟨held, marks_eq⟩
  | following _ _ _ held | waiting _ _ _ _ _ held =>
    rw [held] at hheld
    cases hheld
  | closed _ _ _ _ phase => exact absurd phase hphase

/-- A channel is only held when the story lacks nothing but its failure. -/
theorem Stage.of_channel {f : Feed} {token : Token} {marks : List Entry} (h : Stage f marks)
    (hphase : f.phase ≠ .closed) (hheld : f.session.channel = some token) :
    ∃ snapshot result, f.session = { channel := some token } ∧
      marks = [.done (.fetch snapshot f.selection.query), .taken (.snapshot snapshot result),
        .done (.openChannel token f.selection.params)] := by
  cases h with
  | following snapshot result channel held marks_eq =>
    rw [held] at hheld
    obtain rfl : channel = token := Option.some.inj hheld
    exact ⟨snapshot, result, held, marks_eq⟩
  | fetching _ held | waiting _ _ _ _ _ held =>
    rw [held] at hheld
    cases hheld
  | closed _ _ _ _ phase => exact absurd phase hphase

/-- Any other message that is taken up leads on in the story, or leaves it where it is. -/
theorem Stage.handle {f : Feed} {marks : List Entry} (h : Stage f marks) {message : Message}
    (haccepts : f.Accepts message) (hchange : (Entry.taken message).isChange = false)
    (hretry : (Entry.taken message).isRetry = false) :
    Stage (f.handle message).1 (marks ++ milestones (f.entries message)) := by
  rw [entries_of_accepts haccepts]
  revert haccepts hchange hretry
  induction message using handle_cases (f := f) with
  | refused message hrefused => exact fun haccepts => absurd haccepts hrefused
  | setParams => exact fun _ hchange => nomatch hchange
  | retryDue => exact fun _ _ hretry => nomatch hretry
  | dispose hphase =>
    intro _ _ _
    obtain ⟨snapshot, result, channel, failure, hne, hbegun⟩ := h.begun
    rw [close_effects, milestones_taken_release rfl]
    have hpublish : milestones ([Effect.publish f.close.1.view].map .done) = [] := rfl
    rw [hpublish, List.append_nil]
    exact .closed snapshot result channel failure rfl hne hbegun
  | snapshot token result hphase hheld =>
    intro _ _ _
    obtain ⟨held, rfl⟩ := h.of_snapshot hphase hheld
    have hselection : (f.takeSnapshot result).1.selection = f.selection := by
      cases result <;> rfl
    refine .following token result (f.lastToken + 1) ?_ ?_
    · cases result <;> simp [takeSnapshot, publishing, held]
    · rw [takeSnapshot_effects, held, hselection]
      rfl
  | signal token signal hphase hheld =>
    intro _ _ _
    obtain ⟨snapshot, result, held, rfl⟩ := h.of_channel hphase hheld
    cases signal with
    | opened | event | malformed => exact .following snapshot result token held rfl
    | failed failure =>
      refine .waiting snapshot result token failure (f.lastToken + 1) ?_ ?_
      · simp [takeSignal, failChannel, publishing, held]
      · rw [takeSignal, failChannel_effects, held]
        rfl

/-- What holds of a feed and the epoch that it is in: of its sessions all but the last are whole, the
last has come as far as the feed has, and the attempts are the sessions before it. -/
structure Running (f : Feed) (epoch : List Entry) : Prop where
  sessions : ∃ ended current, sessions epoch = ended ++ [current] ∧
    (∀ session ∈ ended, Whole f.selection (milestones session)) ∧
    Stage f (milestones current) ∧ ended.length = f.reconnectAttempts
  retries : epoch.countP Entry.isRetry = f.reconnectAttempts
  view : lastView (effectsOf epoch) = f.view

theorem Running.accounts {f : Feed} {epoch : List Entry} (h : Running f epoch) :
    Accounts f.selection epoch := by
  obtain ⟨ended, current, hsessions, hended, hcurrent, hlength⟩ := h.sessions
  have hattempts : attempts epoch = f.reconnectAttempts := by
    rw [attempts, h.view]
    rfl
  have hbegun : ∀ session ∈ Feed.sessions epoch, Begun f.selection (milestones session) := by
    rw [hsessions]
    intro session hmem
    rcases List.mem_append.mp hmem with hmem | hmem
    · exact (hended session hmem).begun
    · obtain rfl := List.mem_singleton.mp hmem
      exact hcurrent.begun
  have hflatten : (Feed.sessions epoch).flatten = epoch := List.flatten_splitBy _ _
  obtain ⟨hfailures, hopenings, hparams⟩ := tally_flatten hbegun
  have hwhole := length_le_countP_isFailure hended
  have hcount : ended.flatten.countP Entry.isFailure ≤ epoch.countP Entry.isFailure := by
    rw [← hflatten, hsessions, List.flatten_append, List.countP_append]
    exact Nat.le_add_right _ _
  have hlengths : (Feed.sessions epoch).length = f.reconnectAttempts + 1 := by
    rw [hsessions, List.length_append, List.length_singleton, hlength]
  rw [hflatten] at hfailures hopenings hparams
  refine
    { begun := hbegun
      query := fun session hmem => ?_
      opening := fun session hmem => ?_
      params := hparams
      retries := by rw [h.retries, hattempts]
      sessions := by rw [hlengths, hattempts]
      attempts_le := by omega
      failures_le := hfailures
      openings_le := by omega }
  · obtain ⟨_, _, _, _, hne, hbegins⟩ := hbegun session hmem
    exact (tally_of_begun hne hbegins).1
  · obtain ⟨_, _, _, _, hne, hbegins⟩ := hbegun session hmem
    rcases (tally_of_begun hne hbegins).2 with ⟨hopening, -⟩ | ⟨hopening, -⟩
    · rw [hopening]
      exact Nat.zero_le 1
    · rw [hopening]
      exact Nat.le_refl 1

/-! ## One message more -/

/-- Of the entries of a message only the message itself can begin something. -/
theorem eq_taken_of_mem_entries {f : Feed} {message : Message} {entry : Entry}
    (hmem : entry ∈ f.entries message) :
    entry = .taken message ∨ ∃ effect, entry = .done effect := by
  unfold entries at hmem
  split at hmem
  · rcases List.mem_cons.mp hmem with rfl | hmem
    · exact .inl rfl
    · obtain ⟨effect, -, rfl⟩ := List.mem_map.mp hmem
      exact .inr ⟨effect, rfl⟩
  · exact absurd hmem List.not_mem_nil

/-- After a message a reader sees the feed as it then is. -/
theorem lastView_effectsOf_entries {f : Feed} {record : List Entry}
    (h : lastView (effectsOf record) = f.view) (message : Message) :
    lastView (effectsOf (record ++ f.entries message)) = (f.handle message).1.view := by
  rw [effectsOf_append, effectsOf_entries]
  rcases handle_publishes f message with hstill | ⟨effects, heffects⟩
  · rw [hstill, List.append_nil, h]
  · rw [heffects, ← List.append_assoc, lastView_concat]

/-- Only a change of the filter changes the filter, and only it and a timer that is due change the
attempts. -/
theorem handle_selection_attempts {f : Feed} {message : Message}
    (hchange : (Entry.taken message).isChange = false) :
    (f.handle message).1.selection = f.selection ∧
      ((Entry.taken message).isRetry = false →
        (f.handle message).1.reconnectAttempts = f.reconnectAttempts) := by
  revert hchange
  induction message using handle_cases (f := f) with
  | refused | dispose => exact fun _ => ⟨rfl, fun _ => rfl⟩
  | setParams => exact fun hchange => nomatch hchange
  | retryDue => exact fun _ => ⟨rfl, fun hretry => nomatch hretry⟩
  | snapshot token result => cases result <;> exact fun _ => ⟨rfl, fun _ => rfl⟩
  | signal token signal => cases signal <;> exact fun _ => ⟨rfl, fun _ => rfl⟩

theorem not_isRetry_of_done {effects : List Effect} :
    ∀ entry ∈ effects.map Entry.done, entry.isRetry = false := by
  intro entry hmem
  obtain ⟨effect, -, rfl⟩ := List.mem_map.mp hmem
  rfl

theorem running_of_one_session {f : Feed} {entry : Entry} {effects : List Effect}
    (hentry : entry.isRetry = false) (hstage : Stage f (milestones (entry :: effects.map .done)))
    (hattempts : f.reconnectAttempts = 0)
    (hview : lastView (effectsOf (entry :: effects.map .done)) = f.view) :
    Running f (entry :: effects.map .done) where
  sessions := ⟨[], _, cut_of_none not_isRetry_of_done, nofun, hstage, hattempts.symm⟩
  retries := by
    rw [hattempts, List.countP_eq_zero]
    intro other hmem
    rcases List.mem_cons.mp hmem with rfl | hmem
    · simp [hentry]
    · simp [not_isRetry_of_done other hmem]
  view := hview

theorem running_new (options : Options) (selection : Selection) :
    Running (course options selection []).1 (history options selection []) := by
  rw [history_nil, course_nil]
  exact running_of_one_session rfl (.fetching 1 rfl rfl) rfl rfl

theorem running_restart {f : Feed} {selection : Selection} (h : f.phase ≠ .closed) :
    Running (f.handle (.setParams selection)).1 (f.entries (.setParams selection)) := by
  have hhandle : f.handle (.setParams selection) = f.restart selection := by
    rw [handle, if_neg h]
  have hstage := stage_restart selection h
  have hview : lastView (effectsOf (f.entries (.setParams selection))) =
      (f.handle (.setParams selection)).1.view := by
    rw [effectsOf_entries, hhandle, restart_effects, List.append_cons]
    exact lastView_concat _ _
  rw [entries_of_accepts ⟨h, trivial⟩] at hstage hview ⊢
  exact running_of_one_session rfl hstage (by rw [hhandle]; rfl) hview

/-- Any other message leads on in the epoch. -/
theorem Running.handle {f : Feed} {epoch : List Entry} (h : Running f epoch) {message : Message}
    (hchange : f.Accepts message → (Entry.taken message).isChange = false) :
    Running (f.handle message).1 (epoch ++ f.entries message) := by
  by_cases haccepts : f.Accepts message
  · obtain ⟨ended, current, hsessions, hended, hcurrent, hlength⟩ := h.sessions
    obtain ⟨hselection, hattempts⟩ := handle_selection_attempts (f := f) (hchange haccepts)
    have hview := lastView_effectsOf_entries h.view message
    have hentries := entries_of_accepts haccepts
    cases hretry : (Entry.taken message).isRetry with
    | true =>
      -- The session has failed and another one follows it.
      cases message with
      | setParams | dispose | snapshot | signal => cases hretry
      | retryDue token =>
        have hreconnect : (f.handle (.retryDue token)).1.reconnectAttempts =
            f.reconnectAttempts + 1 := by
          rw [Feed.handle, if_neg haccepts.1, if_pos haccepts.2]
          rfl
        refine ⟨⟨Feed.sessions epoch, f.entries (.retryDue token), ?_, ?_, ?_, ?_⟩, ?_, hview⟩
        · rw [hentries]
          exact cut_append_cons rfl not_isRetry_of_done
        · rw [hselection, hsessions]
          intro session hmem
          rcases List.mem_append.mp hmem with hmem | hmem
          · exact hended session hmem
          · rw [List.mem_singleton.mp hmem]
            exact hcurrent.whole haccepts
        · exact stage_reconnect haccepts
        · rw [hreconnect, hsessions, List.length_append, List.length_singleton, hlength]
        · rw [hreconnect, List.countP_append, h.retries, hentries, List.countP_cons_of_pos rfl,
            List.countP_eq_zero.mpr fun entry hmem => by simp [not_isRetry_of_done entry hmem]]
    | false =>
      have hnone : ∀ entry ∈ f.entries message, entry.isRetry = false := by
        rw [hentries]
        intro entry hmem
        rcases List.mem_cons.mp hmem with rfl | hmem
        · exact hretry
        · exact not_isRetry_of_done entry hmem
      refine ⟨⟨ended, current ++ f.entries message, cut_append hsessions hnone, ?_, ?_, ?_⟩, ?_,
        hview⟩
      · rw [hselection]
        exact hended
      · rw [milestones_append]
        exact hcurrent.handle haccepts (hchange haccepts) hretry
      · rw [hattempts hretry, hlength]
      · rw [hattempts hretry, List.countP_append, h.retries,
          List.countP_eq_zero.mpr fun entry hmem => by simp [hnone entry hmem]]
        rfl
  · have hstill := handle_of_not_accepts haccepts
    rw [hstill, entries, if_neg haccepts, List.append_nil]
    exact h

/-! ## All epochs -/

def epochSelection (first : Selection) : List Entry → Selection
  | .taken (.setParams selection) :: _ => selection
  | _ => first

theorem epochSelection_append {first : Selection} {epoch more : List Entry} (h : epoch ≠ []) :
    epochSelection first (epoch ++ more) = epochSelection first epoch := by
  obtain ⟨entry, rest, rfl⟩ := List.exists_cons_of_ne_nil h
  rcases entry with message | effect
  · cases message <;> rfl
  · rfl

theorem epochs_course (options : Options) (selection : Selection) (messages : List Message) :
    ∃ before epoch, epochs (history options selection messages) = before ++ [epoch] ∧
      (∀ earlier ∈ before, Accounts (epochSelection selection earlier) earlier) ∧
      (course options selection messages).1.selection = epochSelection selection epoch ∧
      Running (course options selection messages).1 epoch := by
  induction messages using List.reverseRecOn with
  | nil =>
    refine ⟨[], history options selection [], ?_, nofun, ?_, running_new options selection⟩
    · rw [history_nil]
      refine cut_of_none fun entry hmem => ?_
      obtain rfl := List.mem_singleton.mp hmem
      rfl
    · rfl
  | append_singleton messages message ih =>
    obtain ⟨before, epoch, hepochs, hbefore, hselection, hrunning⟩ := ih
    rw [course_concat, history_concat]
    generalize (course options selection messages).1 = f at *
    by_cases hchange : f.Accepts message ∧ (Entry.taken message).isChange = true
    · -- The epoch that ends is accounted for, and a new one begins.
      obtain ⟨haccepts, hchange⟩ := hchange
      cases message with
      | dispose | snapshot | retryDue | signal => cases hchange
      | setParams next =>
        refine ⟨before ++ [epoch], f.entries (.setParams next), ?_, ?_, ?_,
          running_restart haccepts.1⟩
        · rw [entries_of_accepts haccepts, epochs, cut_append_cons rfl, ← epochs, hepochs]
          intro entry hmem
          obtain ⟨effect, -, rfl⟩ := List.mem_map.mp hmem
          rfl
        · intro earlier hmem
          rcases List.mem_append.mp hmem with hmem | hmem
          · exact hbefore earlier hmem
          · rw [List.mem_singleton.mp hmem, ← hselection]
            exact hrunning.accounts
        · rw [entries_of_accepts haccepts, Feed.handle, if_neg haccepts.1]
          rfl
    · have hne : epoch ≠ [] := by
        have hmem : epoch ∈ epochs (history options selection messages) := by simp [hepochs]
        exact ne_nil_of_mem_cut hmem
      have hother : f.Accepts message → (Entry.taken message).isChange = false := by
        intro haccepts
        by_contra hnot
        exact hchange ⟨haccepts, Bool.of_not_eq_false hnot⟩
      refine ⟨before, epoch ++ f.entries message, cut_append hepochs ?_, hbefore, ?_,
        hrunning.handle hother⟩
      · intro entry hmem
        by_cases haccepts : f.Accepts message
        · rcases eq_taken_of_mem_entries hmem with rfl | ⟨effect, rfl⟩
          · exact hother haccepts
          · rfl
        · rw [entries, if_neg haccepts] at hmem
          exact absurd hmem List.not_mem_nil
      · rw [epochSelection_append hne, ← hselection]
        by_cases haccepts : f.Accepts message
        · exact (handle_selection_attempts (hother haccepts)).1
        · rw [handle_of_not_accepts haccepts]

/-- In every course channels take turns, each with a later token than those before, and none is
open once the feed has been ended; and in every epoch, from its change of the filter on, the
sessions, the attempts, the failures and the openings tally. -/
theorem accounts_course (options : Options) (selection : Selection) (messages : List Message) :
    (∃ ended, channelActs (course options selection messages).2 =
          turns ended (course options selection messages).1.session.channel ∧
        (ended ++ (course options selection messages).1.session.channel.toList).Pairwise
          (· < ·)) ∧
      (.dispose ∈ messages → (course options selection messages).1.session.channel = none) ∧
      effectsOf (history options selection messages) = (course options selection messages).2 ∧
      ∀ epoch ∈ epochs (history options selection messages),
        Accounts (epochSelection selection epoch) epoch := by
  refine ⟨turns_course options selection messages, fun hdispose => ?_,
    effectsOf_history options selection messages, fun epoch hmem => ?_⟩
  · rw [(standing_course options selection messages).of_closed (phase_of_dispose hdispose)]
  · obtain ⟨before, current, hepochs, hbefore, hselection, hrunning⟩ :=
      epochs_course options selection messages
    rw [hepochs] at hmem
    rcases List.mem_append.mp hmem with hmem | hmem
    · exact hbefore epoch hmem
    · rw [List.mem_singleton.mp hmem, ← hselection]
      exact hrunning.accounts

end LiveRuns.Feed
