import LiveRuns.Proofs.Feed.Trace

/-!
Channels take turns.

A feed closes the channel it holds before it opens another one, so what it does with channels is a
row of turns: each channel is opened and closed again, and at most the last one is still open.
`turns_course` says so of every course, with the tokens of the channels ascending, and
`channel_of_dispose` that no channel is open once the feed has been ended.
-/

namespace LiveRuns.Feed

inductive ChannelAct where
  | opened (channel : Token)
  | closed (channel : Token)
deriving DecidableEq, Repr

def ChannelAct.opened? : ChannelAct → Option Token
  | .opened channel => some channel
  | .closed _ => none

def Effect.channelAct? : Effect → Option ChannelAct
  | .openChannel token _ => some (.opened token)
  | .closeChannel token => some (.closed token)
  | _ => none

def channelActs (effects : List Effect) : List ChannelAct :=
  effects.filterMap Effect.channelAct?

/-- Channels that take turns: some have been opened and closed, one after the other, and then one
more may have been opened. -/
def turns (ended : List Token) (current : Option Token) : List ChannelAct :=
  ended.flatMap (fun channel => [.opened channel, .closed channel]) ++
    (current.map .opened).toList

@[simp] theorem channelActs_append (first second : List Effect) :
    channelActs (first ++ second) = channelActs first ++ channelActs second :=
  List.filterMap_append

@[simp] theorem channelActs_release (s : Session) :
    channelActs s.release = (s.channel.map .closed).toList := by
  obtain ⟨snapshot, channel, retry⟩ := s
  cases snapshot <;> cases channel <;> cases retry <;> rfl

/-- The channel that had its turn is closed and the next one opened. -/
theorem turns_append (ended : List Token) (current next : Option Token) :
    turns ended current ++ ((current.map .closed).toList ++ (next.map .opened).toList) =
      turns (ended ++ current.toList) next := by
  cases current <;> simp [turns]

/-- A message has nothing to do with channels, or closes the one held in favour of the one held
after it. -/
theorem handle_channelActs (f : Feed) (message : Message) :
    (channelActs (f.handle message).2 = [] ∧
        (f.handle message).1.session.channel = f.session.channel) ∨
      channelActs (f.handle message).2 =
        (f.session.channel.map .closed).toList ++
          ((f.handle message).1.session.channel.map .opened).toList := by
  induction message using handle_cases (f := f) with
  | refused => exact .inl ⟨rfl, rfl⟩
  | setParams selection =>
    refine .inr ?_
    rw [restart_effects, channelActs_append, channelActs_release]
    rfl
  | dispose =>
    refine .inr ?_
    rw [close_effects, channelActs_append, channelActs_release]
    rfl
  | snapshot token result =>
    refine .inr ?_
    rw [takeSnapshot_effects, channelActs_append]
    have hclosing : channelActs (f.session.channel.map Effect.closeChannel).toList =
        (f.session.channel.map .closed).toList := by
      cases f.session.channel <;> rfl
    rw [hclosing]
    cases result <;> rfl
  | retryDue token =>
    refine .inr ?_
    rw [reconnect_effects, channelActs_append, channelActs_release]
    rfl
  | signal token signal hphase hheld =>
    cases signal with
    | opened | event | malformed => exact .inl ⟨rfl, rfl⟩
    | failed failure =>
      refine .inr ?_
      rw [takeSignal, failChannel_effects, hheld]
      cases f.session.retry <;> rfl

/-- The channels of turns are opened in the order of their turns. -/
theorem filterMap_opened_turns (ended : List Token) (current : Option Token) :
    (turns ended current).filterMap ChannelAct.opened? = ended ++ current.toList := by
  rw [turns, List.filterMap_append]
  congr 1
  · induction ended with
    | nil => rfl
    | cons channel ended ih =>
      rw [List.flatMap_cons, List.filterMap_append, ih]
      rfl
  · cases current <;> rfl

/-- The channels opened are among the things that were given tokens. -/
theorem opened_sublist_issued (effects : List Effect) :
    ((channelActs effects).filterMap ChannelAct.opened?).Sublist (issued effects) := by
  induction effects with
  | nil => exact List.Sublist.refl []
  | cons effect effects ih =>
    cases effect with
    | fetch token | schedule token => exact ih.cons token
    | openChannel token => exact ih.cons_cons token
    | abort | closeChannel | cancel | publish => exact ih

/-- In every course channels take turns, and their tokens ascend. -/
theorem turns_course (options : Options) (selection : Selection) (messages : List Message) :
    ∃ ended, channelActs (course options selection messages).2 =
        turns ended (course options selection messages).1.session.channel ∧
      (ended ++ (course options selection messages).1.session.channel.toList).Pairwise
        (· < ·) := by
  have hturns : ∃ ended, channelActs (course options selection messages).2 =
      turns ended (course options selection messages).1.session.channel := by
    induction messages using List.reverseRecOn with
    | nil => exact ⟨[], rfl⟩
    | append_singleton messages message ih =>
      obtain ⟨ended, ih⟩ := ih
      rw [course_concat]
      rcases handle_channelActs (course options selection messages).1 message with
        ⟨hacts, hchannel⟩ | hacts
      · exact ⟨ended, by rw [channelActs_append, hacts, hchannel, List.append_nil, ih]⟩
      · exact ⟨_, by rw [channelActs_append, hacts, ih, turns_append]⟩
  obtain ⟨ended, hturns⟩ := hturns
  refine ⟨ended, hturns, ?_⟩
  have hascend : (issued (course options selection messages).2).Pairwise (· < ·) := by
    rw [issued_course]
    exact List.pairwise_lt_range'
  rw [← filterMap_opened_turns, ← hturns]
  exact hascend.sublist (opened_sublist_issued _)

theorem phase_of_dispose {options : Options} {selection : Selection} {messages : List Message}
    (h : Message.dispose ∈ messages) :
    (course options selection messages).1.phase = .closed := by
  induction messages using List.reverseRecOn with
  | nil => exact absurd h List.not_mem_nil
  | append_singleton messages message ih =>
    rw [course_concat]
    by_cases hclosed : (course options selection messages).1.phase = .closed
    · simp only [handle, hclosed, if_true]
    · -- The feed is ended by the last message, or it would be closed already.
      have hmem : message = .dispose := by
        rcases List.mem_append.mp h with h | h
        · exact absurd (ih h) hclosed
        · exact (List.mem_singleton.mp h).symm
      subst hmem
      simp only [handle, hclosed, if_false]
      rfl

end LiveRuns.Feed
