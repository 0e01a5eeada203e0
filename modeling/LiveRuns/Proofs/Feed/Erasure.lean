import LiveRuns.Proofs.Feed.Trace

/-!
Messages that might as well not have come.

Snapshots, timers and channels draw their tokens from one counter, so a token that has been given
up is never held again: `not_mem_tokens_course`.  A message that comes for it is idle, however late
it comes and whatever has been begun in between, and so is a malformed signal, even of the channel
that is followed.  An idle message leaves the feed as it is and has no effect.  Therefore any of
them can be struck from the messages of a feed, each judged by the feed that it came to, without a
difference in anything that is published or done: `course_without`.
-/

namespace LiveRuns.Feed

/-! ## Tokens given up -/

/-- A token that was given out and is not held is not held again after a message. -/
theorem not_mem_tokens_handle {f : Feed} {token : Token} (hissued : token ≤ f.lastToken)
    (hfree : token ∉ f.session.tokens) (message : Message) :
    token ∉ (f.handle message).1.session.tokens := by
  intro hheld
  rcases mem_tokens_handle hheld with hold | rfl
  · exact hfree hold
  · exact absurd hissued (Nat.not_succ_le_self f.lastToken)

theorem lastToken_le_handle (f : Feed) (message : Message) :
    f.lastToken ≤ (f.handle message).1.lastToken := by
  rcases handle_issued f message with ⟨-, hlast⟩ | ⟨-, hlast⟩
  · exact Nat.le_of_eq hlast.symm
  · exact hlast ▸ Nat.le_succ f.lastToken

theorem not_mem_tokens_run {f : Feed} {token : Token} (hissued : token ≤ f.lastToken)
    (hfree : token ∉ f.session.tokens) (messages : List Message) :
    token ∉ (f.run messages).1.session.tokens := by
  induction messages generalizing f with
  | nil => exact hfree
  | cons message messages ih =>
    exact ih (Nat.le_trans hissued (lastToken_le_handle f message))
      (not_mem_tokens_handle hissued hfree message)

theorem course_append (options : Options) (selection : Selection)
    (messages later : List Message) :
    (course options selection (messages ++ later)).1 =
      ((course options selection messages).1.run later).1 := by
  simp only [course, run_append]

/-! ## Idle messages -/

/-- Whether a message is for something that the feed does not hold, or a malformed signal. -/
def Idle (f : Feed) : Message → Prop
  | .snapshot token _ => f.session.snapshot ≠ some token
  | .retryDue token => f.session.retry ≠ some token
  | .signal _ (.malformed _) => True
  | .signal token _ => f.session.channel ≠ some token
  | .setParams _ | .dispose => False

instance (f : Feed) : (message : Message) → Decidable (f.Idle message)
  | .snapshot _ _ | .retryDue _ | .signal _ .opened | .signal _ (.event _)
  | .signal _ (.failed _) => inferInstanceAs (Decidable (_ ≠ _))
  | .signal _ (.malformed _) => inferInstanceAs (Decidable True)
  | .setParams _ | .dispose => inferInstanceAs (Decidable False)

theorem handle_of_idle {f : Feed} {message : Message} (h : f.Idle message) :
    f.handle message = (f, []) := by
  induction message using handle_cases (f := f) with
  | refused => rfl
  | setParams | dispose => exact h.elim
  | snapshot token result hphase hheld => exact absurd hheld h
  | retryDue token hphase hheld => exact absurd hheld h
  | signal token signal hphase hheld =>
    cases signal with
    | malformed => rfl
    | opened | event | failed => exact absurd hheld h

theorem idle_of_not_mem_tokens {f : Feed} {message : Message} {token : Token}
    (htoken : message.token? = some token) (hfree : token ∉ f.session.tokens) :
    f.Idle message := by
  simp only [Session.tokens, List.mem_append, Option.mem_toList, not_or] at hfree
  obtain ⟨⟨hsnapshot, hchannel⟩, hretry⟩ := hfree
  cases message with
  | setParams | dispose => cases htoken
  | snapshot t result =>
    obtain rfl : t = token := Option.some.inj htoken
    exact hsnapshot
  | retryDue t =>
    obtain rfl : t = token := Option.some.inj htoken
    exact hretry
  | signal t signal =>
    obtain rfl : t = token := Option.some.inj htoken
    cases signal with
    | malformed => trivial
    | opened | event | failed => exact hchannel

/-! ## Striking messages out -/

/-- The messages of a past without those that are both idle where they came and chosen by their
place. -/
def without (chosen : Nat → Bool) (past : List (Feed × Message)) : List Message :=
  (past.zipIdx.filter fun ((f, message), place) => ¬ (f.Idle message ∧ chosen place)).map
    fun ((_, message), _) => message

theorem without_concat (chosen : Nat → Bool) (past : List (Feed × Message)) (f : Feed)
    (message : Message) :
    without chosen (past ++ [(f, message)]) =
      without chosen past ++
        if f.Idle message ∧ chosen past.length then [] else [message] := by
  simp only [without, List.zipIdx_append, List.filter_append, List.map_append, List.zipIdx_singleton,
    Nat.zero_add, List.filter_cons, List.filter_nil]
  by_cases h : f.Idle message ∧ chosen past.length = true
  · simp only [h, and_self, not_true_eq_false, decide_false, Bool.false_eq_true, if_false, if_true,
      List.map_nil]
  · simp only [h, not_false_eq_true, decide_true, if_true, if_false, List.map_cons, List.map_nil]

/-- The tokens of a feed ascend, and one that has been given up is never held again.  So whichever
idle messages are struck out, the feed becomes and does the same. -/
theorem course_without (options : Options) (selection : Selection) (messages : List Message) :
    (issued (course options selection messages).2).Pairwise (· < ·) ∧
      (∀ later, ∀ token ∈ issued (course options selection messages).2,
        token ∉ (course options selection messages).1.session.tokens →
          ∀ message, message.token? = some token →
            (course options selection (messages ++ later)).1.Idle message) ∧
      ∀ chosen, course options selection (without chosen (past options selection messages)) =
        course options selection messages := by
  refine ⟨?_, fun later token hissued hfree message htoken => ?_, fun chosen => ?_⟩
  · rw [issued_course]
    exact List.pairwise_lt_range'
  · refine idle_of_not_mem_tokens htoken ?_
    rw [course_append]
    exact not_mem_tokens_run (le_lastToken_of_mem_issued hissued) hfree later
  · induction messages using List.reverseRecOn with
    | nil => rfl
    | append_singleton messages message ih =>
      rw [past_concat, without_concat, course_concat]
      split
      · next hstruck =>
        rw [List.append_nil, ih, handle_of_idle hstruck.1, List.append_nil]
      · rw [course_concat, ih]

/-- A channel that fails twice, is malformed in between and speaks once more after the timer, and a
snapshot that comes twice: four of the messages are idle. -/
theorem course_without_late :
    let failed : Message := .signal 2 (.failed (.stream "reset"))
    let malformed : Message := .signal 2 (.malformed (.stream "no event"))
    let messages := [.snapshot 1 (.ok []), malformed, .snapshot 1 (.ok []), failed, failed,
      .retryDue 3, .signal 2 .opened]
    without (fun _ => true) (past {} {} messages) = [.snapshot 1 (.ok []), failed, .retryDue 3] ∧
      course {} {} [.snapshot 1 (.ok []), failed, .retryDue 3] = course {} {} messages := by
  intro failed malformed messages
  have hwithout : without (fun _ => true) (past {} {} messages) =
      [.snapshot 1 (.ok []), failed, .retryDue 3] := rfl
  exact ⟨hwithout, hwithout ▸ (course_without {} {} messages).2.2 fun _ => true⟩

end LiveRuns.Feed
