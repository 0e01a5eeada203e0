import LiveRuns.Proofs.Feed.Erasure
import LiveRuns.Proofs.Feed.Standing
import Mathlib.Data.List.Nodup

/-!
The end of a feed.

A feed that is ended lets go of the one thing that it holds, tells its readers once more what they
know already, only that it is disconnected, and never does anything again, whatever is still to
come.  `released_course` says of every course that nothing is let go of twice, nor anything that is
still held, and `course_dispose` what becomes of a course in which the feed is ended.
-/

namespace LiveRuns.Feed

/-! ## Things let go of -/

def Effect.released? : Effect → Option Token
  | .abort token | .closeChannel token | .cancel token => some token
  | _ => none

def released (effects : List Effect) : List Token := effects.filterMap Effect.released?

@[simp] theorem released_append (first second : List Effect) :
    released (first ++ second) = released first ++ released second := List.filterMap_append

@[simp] theorem released_release (s : Session) : released s.release = s.tokens := by
  obtain ⟨snapshot, channel, retry⟩ := s
  cases snapshot <;> cases channel <;> cases retry <;> rfl

/-- After a message a feed holds what it held before, or nothing of it: that was let go of or had
come to its own end, and the next thing at most is held in its place. -/
theorem handle_tokens {f : Feed} (h : Standing f) (message : Message) :
    (released (f.handle message).2 = [] ∧ (f.handle message).1.session = f.session) ∨
      (released (f.handle message).2).Sublist f.session.tokens ∧
        ((f.handle message).1.session.tokens = [] ∨
          (f.handle message).1.session.tokens = [f.lastToken + 1] ∧
            (f.handle message).1.lastToken = f.lastToken + 1) := by
  induction message using handle_cases (f := f) with
  | refused => exact .inl ⟨rfl, rfl⟩
  | setParams selection =>
    refine .inr ⟨?_, .inr ⟨rfl, rfl⟩⟩
    rw [restart_effects, released_append, released_release]
    show (_ ++ []).Sublist _
    rw [List.append_nil]
  | dispose =>
    refine .inr ⟨?_, .inl rfl⟩
    rw [close_effects, released_append, released_release]
    show (_ ++ []).Sublist _
    rw [List.append_nil]
  | snapshot token result hphase hheld =>
    obtain ⟨-, hsession⟩ := h.of_snapshot hheld
    have hnext : ({ f.session with snapshot := none, channel := some (f.lastToken + 1) } : Session)
        = { channel := some (f.lastToken + 1) } := by rw [hsession]
    right
    rw [takeSnapshot_effects, hsession]
    cases result with
    | ok runs => exact ⟨List.nil_sublist _, .inr ⟨congrArg Session.tokens hnext, rfl⟩⟩
    | error failure => exact ⟨List.nil_sublist _, .inr ⟨congrArg Session.tokens hnext, rfl⟩⟩
  | retryDue token hphase hheld =>
    obtain ⟨-, hsession⟩ := h.of_retry hheld
    right
    rw [reconnect_effects, hsession]
    exact ⟨List.nil_sublist _, .inr ⟨rfl, rfl⟩⟩
  | signal token signal hphase hheld =>
    cases signal with
    | opened | event | malformed => exact .inl ⟨rfl, rfl⟩
    | failed failure =>
      obtain ⟨-, hsession⟩ := h.of_channel hheld
      right
      rw [takeSignal, failChannel_effects, failChannel, hsession]
      exact ⟨List.Sublist.refl [token], .inr ⟨rfl, rfl⟩⟩

/-- Nothing is let go of twice, nor anything that is still held. -/
theorem released_course (options : Options) (selection : Selection) (messages : List Message) :
    (released (course options selection messages).2 ++
        (course options selection messages).1.session.tokens).Nodup ∧
      ∀ token ∈ released (course options selection messages).2 ++
          (course options selection messages).1.session.tokens,
        token ≤ (course options selection messages).1.lastToken := by
  induction messages using List.reverseRecOn with
  | nil => exact ⟨List.nodup_singleton 1, fun token h => Nat.le_of_eq (List.mem_singleton.mp h)⟩
  | append_singleton messages message ih =>
    obtain ⟨hnodup, hissued⟩ := ih
    have hstep := handle_tokens (standing_course options selection messages) message
    have hlast := lastToken_le_handle (course options selection messages).1 message
    rw [course_concat, released_append]
    generalize (course options selection messages).1 = f at *
    rcases hstep with ⟨hnone, hsame⟩ | ⟨hgone, hheld⟩
    · rw [hnone, hsame, List.append_nil]
      exact ⟨hnodup, fun token htoken => Nat.le_trans (hissued token htoken) hlast⟩
    · have hsublist := hgone.append_left (released (course options selection messages).2)
      have hold := fun token htoken => hissued token (hsublist.subset htoken)
      rcases hheld with hheld | ⟨hheld, hnext⟩
      · rw [hheld, List.append_nil]
        exact ⟨hnodup.sublist hsublist, fun token htoken => Nat.le_trans (hold token htoken) hlast⟩
      · -- The token of the next thing is greater than all that were given out.
        rw [hheld, hnext]
        refine ⟨(hnodup.sublist hsublist).append (List.nodup_singleton _) ?_,
          List.forall_mem_append.mpr ⟨fun token htoken => Nat.le_succ_of_le (hold token htoken),
            fun token htoken => Nat.le_of_eq (List.mem_singleton.mp htoken)⟩⟩
        rw [List.disjoint_singleton]
        exact fun hmem => absurd (hold _ hmem) (Nat.not_succ_le_self _)

/-! ## A feed that has been ended -/

/-- A feed that is closed does nothing, whatever comes. -/
theorem run_of_closed {f : Feed} (h : f.phase = .closed) (messages : List Message) :
    f.run messages = (f, []) := by
  induction messages with
  | nil => rfl
  | cons message messages ih =>
    have hrefused : ¬ f.Accepts message := fun haccepts => haccepts.1 h
    rw [run, handle_of_not_accepts hrefused]
    simp only [ih, List.append_nil]

theorem run_dispose {f : Feed} (h : f.phase ≠ .closed) (later : List Message) :
    f.run (.dispose :: later) = f.close := by
  have hclose : f.handle .dispose = f.close := by rw [handle, if_neg h]
  have hstill : f.close.1.run later = (f.close.1, []) := run_of_closed rfl later
  simp only [run, hclose, hstill, List.append_nil]

/-- The effect by which a feed lets go of the one thing that it holds. -/
inductive LetsGo (f : Feed) (token : Token) : Effect → Prop where
  | snapshot (session : f.session = { snapshot := some token }) : LetsGo f token (.abort token)
  | channel (session : f.session = { channel := some token }) :
    LetsGo f token (.closeChannel token)
  | retry (session : f.session = { retry := some token }) : LetsGo f token (.cancel token)

theorem exists_letsGo {f : Feed} (h : Standing f) (hopen : f.phase ≠ .closed) :
    ∃ token effect, LetsGo f token effect ∧ f.session.release = [effect] ∧
      f.session.tokens = [token] := by
  cases h with
  | fetching token phase session =>
    exact ⟨token, _, .snapshot session, by rw [session]; rfl, by rw [session]; rfl⟩
  | opening token phase session | following token phase session =>
    exact ⟨token, _, .channel session, by rw [session]; rfl, by rw [session]; rfl⟩
  | waiting token phase session =>
    exact ⟨token, _, .retry session, by rw [session]; rfl, by rw [session]; rfl⟩
  | closed phase session => exact absurd phase hopen

/-- Wherever a feed stands that is not closed: when it is ended it lets go of the one thing that it
holds, which is let go of this once and never else, and publishes what was published last, but
disconnected.  It keeps everything else, and whatever comes after that changes nothing and has no
effect. -/
theorem course_dispose (options : Options) (selection : Selection) {messages : List Message}
    (hopen : (course options selection messages).1.phase ≠ .closed) :
    ∃ token effect, LetsGo (course options selection messages).1 token effect ∧
      ∀ later, course options selection (messages ++ .dispose :: later) =
          ({ (course options selection messages).1 with phase := .closed, session := {} },
            (course options selection messages).2 ++
              [effect, .publish { lastView (course options selection messages).2 with
                connection := .disconnected }]) ∧
        (released (course options selection (messages ++ .dispose :: later)).2).count token =
          1 := by
  have hplace := standing_course options selection messages
  have hreleased := (released_course options selection messages).1
  have hview := lastView_course options selection messages
  obtain ⟨token, effect, hlets, hrelease, htokens⟩ := exists_letsGo hplace hopen
  refine ⟨token, effect, hlets, fun later => ?_⟩
  have hcourse : course options selection (messages ++ .dispose :: later) =
      ({ (course options selection messages).1 with phase := .closed, session := {} },
        (course options selection messages).2 ++
          [effect, .publish { lastView (course options selection messages).2 with
            connection := .disconnected }]) := by
    rw [course_run, run_dispose hopen, close_effects, hrelease, hview]
    rfl
  refine ⟨hcourse, ?_⟩
  have hcount : (released (course options selection messages).2 ++ [token]).count token = 1 :=
    List.count_eq_one_of_mem (htokens ▸ hreleased) (by simp)
  have hgone : released [effect, .publish { lastView (course options selection messages).2 with
      connection := .disconnected }] = [token] := by
    cases hlets <;> rfl
  rw [hcourse, released_append, hgone]
  exact hcount

/-- A feed whose channel has failed, and what comes when it is ended while it waits: its timer, the
failed channel, another filter and a second end. -/
theorem course_dispose_waiting :
    let messages : List Message :=
      [.snapshot 1 (.ok [.ofId "a"]), .signal 2 .opened, .signal 2 (.failed (.stream "reset"))]
    let later : List Message := [.retryDue 3, .signal 2 .opened, .setParams {}, .dispose]
    (course {} {} messages).1.phase ≠ .closed ∧
      course {} {} (messages ++ .dispose :: later) =
        ({ (course {} {} messages).1 with phase := .closed, session := {} },
          (course {} {} messages).2 ++
            [.cancel 3, .publish ⟨[.ofId "a"], .disconnected, some "Stream error: reset", 0⟩]) ∧
      (released (course {} {} (messages ++ .dispose :: later)).2).count 3 = 1 := by
  intro messages later
  have hopen : (course {} {} messages).1.phase ≠ .closed := by decide
  obtain ⟨token, effect, hlets, hend⟩ := course_dispose {} {} hopen
  obtain ⟨hcourse, honce⟩ := hend later
  -- The timer is the one thing held.
  cases hlets with
  | snapshot session | channel session => cases session
  | retry session =>
    cases session
    exact ⟨hopen, hcourse, honce⟩

end LiveRuns.Feed
