import LiveRuns.Feed.Step
import Mathlib.Data.List.Induction

/-!
The course of a feed.

`Accepts` says which messages a feed takes up: none when it is closed, and of those that carry a
token only the ones whose token it holds.  `handle_cases` is the one place that opens `handle`:
every message is either refused, and then nothing happens, or it is one of five kinds and the feed
makes one of the five moves.  All that is said of whole courses is proved from it, one message at
a time, by `course_concat`.
-/

namespace LiveRuns.Feed

/-! ## One message -/

def Accepts (f : Feed) (message : Message) : Prop :=
  f.phase ≠ .closed ∧
    match message with
    | .setParams _ | .dispose => True
    | .snapshot token _ => f.session.snapshot = some token
    | .retryDue token => f.session.retry = some token
    | .signal token _ => f.session.channel = some token

instance (f : Feed) (message : Message) : Decidable (f.Accepts message) := by
  unfold Accepts
  cases message <;> exact inferInstanceAs (Decidable (_ ∧ _))

theorem handle_of_not_accepts {f : Feed} {message : Message} (h : ¬ f.Accepts message) :
    f.handle message = (f, []) := by
  unfold handle
  split
  · rfl
  · next hphase =>
    cases message <;> simp_all [Accepts]

/-- What a feed does with a message, case by case. -/
@[elab_as_elim]
theorem handle_cases {f : Feed} {motive : Message → Feed × List Effect → Prop}
    (refused : ∀ message, ¬ f.Accepts message → motive message (f, []))
    (setParams : ∀ selection, f.phase ≠ .closed → motive (.setParams selection) (f.restart selection))
    (dispose : f.phase ≠ .closed → motive .dispose f.close)
    (snapshot : ∀ token result, f.phase ≠ .closed → f.session.snapshot = some token →
      motive (.snapshot token result) (f.takeSnapshot result))
    (retryDue : ∀ token, f.phase ≠ .closed → f.session.retry = some token →
      motive (.retryDue token) f.reconnect)
    (signal : ∀ token signal, f.phase ≠ .closed → f.session.channel = some token →
      motive (.signal token signal) (f.takeSignal token signal))
    (message : Message) : motive message (f.handle message) := by
  by_cases h : f.Accepts message
  · obtain ⟨hphase, hheld⟩ := h
    cases message with
    | setParams selection => simpa [handle, hphase] using setParams selection hphase
    | dispose => simpa [handle, hphase] using dispose hphase
    | snapshot token result =>
      simpa [handle, hphase, hheld] using snapshot token result hphase hheld
    | retryDue token => simpa [handle, hphase, hheld] using retryDue token hphase hheld
    | signal token s => simpa [handle, hphase, hheld] using signal token s hphase hheld
  · rw [handle_of_not_accepts h]
    exact refused message h

/-! ## The effects of each move -/

theorem startSession_effects (f : Feed) :
    f.startSession.2 =
      f.session.release ++
        [.fetch (f.lastToken + 1) f.selection.query, .publish f.startSession.1.view] := by
  simp only [startSession, publishing, List.append_assoc, List.cons_append, List.nil_append]

theorem restart_effects (f : Feed) (selection : Selection) :
    (f.restart selection).2 =
      f.session.release ++
        [.fetch (f.lastToken + 1) selection.query, .publish (f.restart selection).1.view] := by
  simp only [restart, startSession_effects]
  rfl

theorem takeSnapshot_effects (f : Feed) (result : Except Failure (List Run)) :
    (f.takeSnapshot result).2 =
      (f.session.channel.map Effect.closeChannel).toList ++
        [.openChannel (f.lastToken + 1) f.selection.params,
          .publish (f.takeSnapshot result).1.view] := by
  simp only [takeSnapshot, publishing, List.append_assoc, List.cons_append, List.nil_append]
  cases result <;> rfl

theorem reconnect_effects (f : Feed) :
    f.reconnect.2 =
      ({ f.session with retry := none } : Session).release ++
        [.fetch (f.lastToken + 1) f.selection.query, .publish f.reconnect.1.view] :=
  startSession_effects _

theorem failChannel_effects (f : Feed) (channel : Token) (failure : Failure) :
    (f.failChannel channel failure).2 =
      .closeChannel channel :: (f.session.retry.map Effect.cancel).toList ++
        [.schedule (f.lastToken + 1) f.options.retryDelay,
          .publish (f.failChannel channel failure).1.view] := by
  simp only [failChannel, publishing, List.append_assoc, List.cons_append, List.nil_append]

theorem close_effects (f : Feed) :
    f.close.2 = f.session.release ++ [.publish f.close.1.view] := rfl

/-! ## Many messages -/

@[simp] theorem run_nil (f : Feed) : f.run [] = (f, []) := rfl

theorem run_append (f : Feed) (first second : List Message) :
    f.run (first ++ second) =
      (((f.run first).1.run second).1, (f.run first).2 ++ ((f.run first).1.run second).2) := by
  induction first generalizing f with
  | nil => rfl
  | cons message first ih =>
    simp only [List.cons_append, run, ih, List.append_assoc]

theorem run_concat (f : Feed) (messages : List Message) (message : Message) :
    f.run (messages ++ [message]) =
      (((f.run messages).1.handle message).1,
        (f.run messages).2 ++ ((f.run messages).1.handle message).2) := by
  rw [run_append]
  simp [run]

/-- Each message with the feed that it comes to. -/
def meetings (f : Feed) : List Message → List (Feed × Message)
  | [] => []
  | message :: messages => (f, message) :: meetings (f.handle message).1 messages

/-- The last message comes to the feed that all before it have left. -/
theorem meetings_concat (f : Feed) (messages : List Message) (message : Message) :
    f.meetings (messages ++ [message]) =
      f.meetings messages ++ [((f.run messages).1, message)] := by
  induction messages generalizing f with
  | nil => rfl
  | cons first messages ih => simp only [List.cons_append, meetings, run, ih]

/-- A feed from its first session on: what it has become after some messages, and all that it has
done. -/
def course (options : Options) (selection : Selection) (messages : List Message) :
    Feed × List Effect :=
  let (f, effects) := (new options selection).startSession
  let (f, more) := f.run messages
  (f, effects ++ more)

/-- What a feed has met from its first session on: each message with the feed as it then was. -/
def past (options : Options) (selection : Selection) (messages : List Message) :
    List (Feed × Message) :=
  (new options selection).startSession.1.meetings messages

section

variable (options : Options) (selection : Selection) (messages : List Message) (message : Message)

theorem course_nil : course options selection [] = (new options selection).startSession := by
  simp [course]

theorem course_concat :
    course options selection (messages ++ [message]) =
      (((course options selection messages).1.handle message).1,
        (course options selection messages).2 ++
          ((course options selection messages).1.handle message).2) := by
  simp only [course, run_concat, List.append_assoc]

/-- A course goes on as the feed that it has come to does. -/
theorem course_run (later : List Message) :
    course options selection (messages ++ later) =
      (((course options selection messages).1.run later).1,
        (course options selection messages).2 ++
          ((course options selection messages).1.run later).2) := by
  simp only [course, run_append, List.append_assoc]

theorem past_concat :
    past options selection (messages ++ [message]) =
      past options selection messages ++ [((course options selection messages).1, message)] := by
  simp only [past, meetings_concat, course]

end

/-! ## What is never changed -/

theorem handle_options (f : Feed) (message : Message) :
    (f.handle message).1.options = f.options := by
  induction message using handle_cases (f := f) with
  | refused | setParams | dispose | retryDue => rfl
  | snapshot token result => cases result <;> rfl
  | signal token signal => cases signal <;> rfl

theorem course_options (options : Options) (selection : Selection) (messages : List Message) :
    (course options selection messages).1.options = options := by
  induction messages using List.reverseRecOn with
  | nil => rfl
  | append_singleton messages message ih => rw [course_concat, handle_options, ih]

end LiveRuns.Feed
