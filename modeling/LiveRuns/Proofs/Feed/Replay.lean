import LiveRuns.Proofs.Feed.Standing
import Mathlib.Data.List.DropRight

/-!
The runs of a feed, told from its past.

The list of runs is begun anew in two ways: by a change of the filter, and by the snapshot that the
feed waits for.  The messages since then are all that counts.  After a change of the filter the
list is empty; after a snapshot it is the snapshot with the events of the channel that was opened
for it, up to the first failure of this channel or the end of the feed.  `replay` says this in
terms of the past alone, and `runs_lastView_course` that a reader always sees just that.

The proof follows two things at once, message by message: the runs, and whether the channel of the
last snapshot is still the one held.
-/

namespace LiveRuns.Feed

/-! ## Since the list began anew -/

/-- Whether the list of runs begins anew at a meeting. -/
def Rebases (meeting : Feed × Message) : Prop :=
  meeting.1.Accepts meeting.2 ∧
    match meeting.2 with
    | .setParams _ | .snapshot _ _ => True
    | _ => False

instance : (meeting : Feed × Message) → Decidable (Rebases meeting)
  | (f, .setParams _) | (f, .snapshot _ _) => inferInstanceAs (Decidable (f.Accepts _ ∧ True))
  | (f, .dispose) | (f, .retryDue _) | (f, .signal _ _) =>
    inferInstanceAs (Decidable (f.Accepts _ ∧ False))

def lastRebase (past : List (Feed × Message)) : Option (Feed × Message) :=
  (past.rdropWhile fun meeting => ¬ Rebases meeting).getLast?

def sinceRebase (past : List (Feed × Message)) : List Message :=
  (past.rtakeWhile fun meeting => ¬ Rebases meeting).map Prod.snd

section

variable {past : List (Feed × Message)} {meeting : Feed × Message}

theorem lastRebase_concat_of_rebases (h : Rebases meeting) :
    lastRebase (past ++ [meeting]) = some meeting := by
  rw [lastRebase, List.rdropWhile_concat_neg _ _ _ (by simpa using h), List.getLast?_concat]

theorem sinceRebase_concat_of_rebases (h : Rebases meeting) :
    sinceRebase (past ++ [meeting]) = [] := by
  rw [sinceRebase, List.rtakeWhile_concat_neg _ _ _ (by simpa using h), List.map_nil]

theorem lastRebase_concat_of_not (h : ¬ Rebases meeting) :
    lastRebase (past ++ [meeting]) = lastRebase past := by
  rw [lastRebase, List.rdropWhile_concat_pos _ _ _ (by simpa using h), lastRebase]

theorem sinceRebase_concat_of_not (h : ¬ Rebases meeting) :
    sinceRebase (past ++ [meeting]) = sinceRebase past ++ [meeting.2] := by
  rw [sinceRebase, List.rtakeWhile_concat_pos _ _ _ (by simpa using h), List.map_append]
  rfl

end

/-! ## What a channel brings -/

def openedAt (meeting : Feed × Message) : Option Token :=
  (meeting.1.handle meeting.2).2.findSome? Effect.opened?

/-- Whether a channel brings nothing more after a message: it has failed, or the feed has ended. -/
def Message.ends (channel : Option Token) : Message → Bool
  | .dispose => true
  | .signal token (.failed _) => channel = some token
  | _ => false

def Message.event? (channel : Option Token) : Message → Option RunEvent
  | .signal token (.event event) => if channel = some token then some event else none
  | _ => none

/-- The events that a channel brings before its first failure and before the end of the feed, in
the order in which they come. -/
def events (channel : Option Token) (messages : List Message) : List RunEvent :=
  (messages.takeWhile fun message => !message.ends channel).filterMap (Message.event? channel)

/-- The list that a snapshot gives: its runs, clamped, and none if it failed. -/
def baseline (capacity : Nat) : Except Failure (List Run) → List Run
  | .ok runs => Roster.clamp runs capacity
  | .error _ => []

def replay (capacity : Nat) (past : List (Feed × Message)) : List Run :=
  match lastRebase past with
  | some (f, .snapshot token result) =>
    (events (openedAt (f, .snapshot token result)) (sinceRebase past)).foldl
      (fun runs event => Roster.reconcile runs event capacity) (baseline capacity result)
  | _ => []

/-- The channel of the last snapshot, as long as it can still bring something. -/
def stillOpen (channel : Option Token) (messages : List Message) : Option Token :=
  if messages.any (Message.ends channel) then none else channel

def leftOpen (past : List (Feed × Message)) : Option Token :=
  match lastRebase past with
  | some (f, .snapshot token result) =>
    stillOpen (openedAt (f, .snapshot token result)) (sinceRebase past)
  | _ => none

/-! ## One message more -/

theorem Message.event?_of_ends {channel : Option Token} {message : Message}
    (h : message.ends channel = true) : message.event? channel = none := by
  cases message with
  | signal token signal =>
    cases signal with
    | event event => cases h
    | opened | malformed | failed => rfl
  | setParams | dispose | snapshot | retryDue => rfl

theorem Message.event?_none (message : Message) : message.event? none = none := by
  cases message with
  | signal token signal => cases signal <;> simp [Message.event?]
  | setParams | dispose | snapshot | retryDue => rfl

/-- One message more adds at most one event, and only of a channel that is still open. -/
theorem events_concat (channel : Option Token) (messages : List Message) (message : Message) :
    events channel (messages ++ [message]) =
      events channel messages ++ (message.event? (stillOpen channel messages)).toList := by
  by_cases hended : messages.any (Message.ends channel) = true
  · -- The first message that ends the channel cuts off the new one.
    have hcut : messages.takeWhile (fun m => !m.ends channel) ≠ messages := by
      rw [Ne, List.takeWhile_eq_self_iff]
      simpa using hended
    have hlength : (messages.takeWhile fun m => !m.ends channel).length ≠ messages.length :=
      fun h => hcut ((List.takeWhile_prefix _).eq_of_length h)
    simp only [events, stillOpen, hended, if_true, Message.event?_none, Option.toList_none,
      List.append_nil]
    rw [List.takeWhile_append, if_neg hlength]
  · have hall : ∀ m ∈ messages, (!m.ends channel) = true := by simpa using hended
    simp only [events, stillOpen, hended, if_false, Bool.false_eq_true]
    rw [List.takeWhile_append_of_pos hall, List.takeWhile_eq_self_iff.mpr hall,
      List.filterMap_append]
    congr 1
    by_cases hm : message.ends channel = true
    · simp [hm, Message.event?_of_ends hm]
    · cases hevent : message.event? channel <;> simp [hm, hevent]

theorem stillOpen_concat (channel : Option Token) (messages : List Message) (message : Message) :
    stillOpen channel (messages ++ [message]) =
      if message.ends (stillOpen channel messages) then none else stillOpen channel messages := by
  by_cases hended : messages.any (Message.ends channel) = true
  · simp [stillOpen, List.any_append, hended]
  · simp [stillOpen, List.any_append, hended]

/-- Unless the list begins anew, the runs change by the event of the channel left open. -/
theorem replay_concat_of_not {past : List (Feed × Message)} {meeting : Feed × Message}
    (h : ¬ Rebases meeting) (capacity : Nat) :
    replay capacity (past ++ [meeting]) =
      (meeting.2.event? (leftOpen past)).toList.foldl
        (fun runs event => Roster.reconcile runs event capacity) (replay capacity past) := by
  simp only [replay, leftOpen, lastRebase_concat_of_not h, sinceRebase_concat_of_not h]
  split
  · rw [events_concat, List.foldl_append]
  · rw [Message.event?_none]
    rfl

theorem leftOpen_concat_of_not {past : List (Feed × Message)} {meeting : Feed × Message}
    (h : ¬ Rebases meeting) :
    leftOpen (past ++ [meeting]) =
      if meeting.2.ends (leftOpen past) then none else leftOpen past := by
  cases hlast : lastRebase past with
  | none => simp [leftOpen, lastRebase_concat_of_not h, hlast]
  | some last =>
    obtain ⟨f, message⟩ := last
    cases message with
    | snapshot token result =>
      simp only [leftOpen, lastRebase_concat_of_not h, sinceRebase_concat_of_not h, hlast]
      exact stillOpen_concat _ _ _
    | setParams | dispose | retryDue | signal =>
      simp [leftOpen, lastRebase_concat_of_not h, hlast]

theorem openedAt_of_accepts {f : Feed} {token : Token} {result : Except Failure (List Run)}
    (h : f.Accepts (.snapshot token result)) :
    openedAt (f, .snapshot token result) = some (f.lastToken + 1) := by
  have hhandle : f.handle (.snapshot token result) = f.takeSnapshot result := by
    rw [handle, if_neg h.1]
    exact if_pos h.2
  simp only [openedAt, hhandle, takeSnapshot_effects]
  cases f.session.channel <;> rfl

/-- A message with which the list does not begin anew makes the feed apply the event that its
channel brings, if it brings one, and give up the channel if it ends it. -/
theorem handle_of_not_rebases {f : Feed} {message : Message} (hf : Standing f)
    (h : ¬ Rebases (f, message)) :
    (f.handle message).1.runs =
        (message.event? f.session.channel).toList.foldl
          (fun runs event => Roster.reconcile runs event f.options.capacity) f.runs ∧
      (f.handle message).1.session.channel =
        if message.ends f.session.channel then none else f.session.channel := by
  revert h
  induction message using handle_cases (f := f) with
  | refused message hrefused =>
    intro _
    -- A refused message is of another channel than the one held, or the feed is closed.
    cases message with
    | setParams | snapshot | retryDue => exact ⟨rfl, rfl⟩
    | dispose =>
      have hphase : f.phase = .closed := by simpa [Accepts] using hrefused
      simp [hf.of_closed hphase, Message.event?]
    | signal token signal =>
      have hother : f.session.channel ≠ some token := by
        intro hheld
        refine hrefused ⟨fun hphase => ?_, hheld⟩
        rcases (hf.of_channel hheld).1 with phase | phase <;>
          · rw [phase] at hphase
            cases hphase
      cases signal with
      | opened | malformed => exact ⟨rfl, rfl⟩
      | event event => simp [Message.event?, Message.ends, hother]
      | failed failure => simp [Message.event?, Message.ends, hother]
  | setParams selection hphase => exact fun h => absurd ⟨⟨hphase, trivial⟩, trivial⟩ h
  | dispose => exact fun _ => ⟨rfl, rfl⟩
  | snapshot token result hphase hheld => exact fun h => absurd ⟨⟨hphase, hheld⟩, trivial⟩ h
  | retryDue token hphase hheld =>
    intro _
    rw [(hf.of_retry hheld).2]
    exact ⟨rfl, rfl⟩
  | signal token signal hphase hheld =>
    intro _
    rw [hheld]
    cases signal with
    | opened | malformed => exact ⟨rfl, hheld⟩
    | event event => simp [takeSignal, publishing, Message.event?, Message.ends, hheld]
    | failed failure => simp [takeSignal, failChannel, publishing, Message.event?, Message.ends]

structure Replayed (f : Feed) (past : List (Feed × Message)) : Prop where
  runs : f.runs = replay f.options.capacity past
  channel : f.session.channel = leftOpen past

/-- When the list begins anew, it is what the past tells. -/
theorem replayed_of_rebases {f : Feed} {message : Message} (past : List (Feed × Message))
    (h : Rebases (f, message)) : Replayed (f.handle message).1 (past ++ [(f, message)]) := by
  obtain ⟨⟨hphase, hheld⟩, hkind⟩ := id h
  cases message with
  | setParams selection =>
    refine ⟨?_, ?_⟩
    · rw [replay, lastRebase_concat_of_rebases h, handle, if_neg hphase]
      rfl
    · rw [leftOpen, lastRebase_concat_of_rebases h, handle, if_neg hphase]
      rfl
  | snapshot token result =>
    have hhandle : f.handle (.snapshot token result) = f.takeSnapshot result := by
      rw [handle, if_neg hphase]
      exact if_pos hheld
    refine ⟨?_, ?_⟩
    · rw [replay, lastRebase_concat_of_rebases h, sinceRebase_concat_of_rebases h, hhandle]
      cases result <;> rfl
    · simp only [leftOpen, lastRebase_concat_of_rebases h, sinceRebase_concat_of_rebases h,
        openedAt_of_accepts ⟨hphase, hheld⟩, hhandle]
      cases result <;> rfl
  | dispose | retryDue | signal => exact hkind.elim

/-- Any other message changes the two as the past tells. -/
theorem Replayed.handle {f : Feed} {past : List (Feed × Message)} {message : Message}
    (h : Replayed f past) (hf : Standing f) (hrebase : ¬ Rebases (f, message)) :
    Replayed (f.handle message).1 (past ++ [(f, message)]) := by
  obtain ⟨hruns, hchannel⟩ := handle_of_not_rebases hf hrebase
  refine ⟨?_, ?_⟩
  · rw [hruns, h.channel, h.runs, handle_options, replay_concat_of_not hrebase]
  · rw [hchannel, h.channel, leftOpen_concat_of_not hrebase]

/-- A feed in its course is what its past tells. -/
theorem replayed_course (options : Options) (selection : Selection) (messages : List Message) :
    Replayed (course options selection messages).1 (past options selection messages) := by
  induction messages using List.reverseRecOn with
  | nil => exact ⟨rfl, rfl⟩
  | append_singleton messages message ih =>
    rw [course_concat, past_concat]
    by_cases h : Rebases ((course options selection messages).1, message)
    · exact replayed_of_rebases _ h
    · exact ih.handle (standing_course options selection messages) h

/-- What a reader sees of the runs, after any messages in any order, is the last snapshot taken
since the filter was last changed, with the events that its channel has brought before its first
failure and before the end of the feed. -/
theorem runs_lastView_course (options : Options) (selection : Selection)
    (messages : List Message) :
    (lastView (course options selection messages).2).runs =
      replay options.capacity (past options selection messages) := by
  rw [lastView_course]
  show (course options selection messages).1.runs = _
  rw [(replayed_course options selection messages).runs, course_options]

end LiveRuns.Feed
