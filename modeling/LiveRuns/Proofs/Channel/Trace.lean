import LiveRuns.Channel
import Mathlib.Data.List.Basic

/-!
The trace of a channel.

`trace` says what a channel has to tell: one failure if there is no good reply; otherwise that it is
open, the messages among the frames of the body in their order, each as its event or as malformed,
and at last one failure for the end of the body.  It is told to listeners who may leave, signal by
signal, with the frames of a chunk inside the chunks of the body.  Telling signals one by one is
`hear`, and all that is told is brought to this form, so that a listener of any patience has heard
just the beginning of the trace: `heard_attend`.
-/

namespace LiveRuns.Channel

open EventStream (Frame Decoder framesOf framesFrom)

/-! ## The trace -/

/-- The frames without a name, with the empty one or with that of a message. -/
def messages (frames : List Frame) : List Frame :=
  frames.filter fun frame => frame.event ∈ [none, some "", some "message"]

/-- What a message is told as: its event, or that it is none. -/
def signalOf (frame : Frame) : Signal :=
  match RunEvent.ofText frame.data with
  | .ok event => .event event
  | .error why => .malformed (.malformed why)

/-- What is told of the end of a body: what its frames failed of, or that it has ended, if it has. -/
def lastSignal (failure : Option Failure) (ended : Bool) : List Signal :=
  match failure with
  | some failure => [.failed failure]
  | none => if ended then [.failed (.stream "stream ended by server")] else []

/-- All that a channel has to tell. -/
def trace (limit : Nat) (request : Http.Request) : Option Reply → List Signal
  | none => [.failed (.stream request.sendFailure)]
  | some reply =>
    if 200 ≤ reply.status ∧ reply.status ≤ 299 then
      .opened ::
        ((messages (framesOf limit reply.chunks).frames).map signalOf ++
          lastSignal (framesOf limit reply.chunks).failure reply.ended)
    else
      [.failed (.stream ("stream endpoint answered " ++ Http.statusText reply.status))]

theorem filterMap_signalOf? (frames : List Frame) :
    frames.filterMap signalOf? = (messages frames).map signalOf := by
  induction frames with
  | nil => rfl
  | cons frame frames ih =>
    by_cases hmessage : frame.event ∈ [none, some "", some "message"]
    · have hsignal : signalOf? frame = some (signalOf frame) := by
        rw [signalOf?, if_pos (Frame.isMessage_iff.2 hmessage), signalOf]
        cases RunEvent.ofText frame.data <;> rfl
      rw [List.filterMap_cons_some hsignal, messages, List.filter_cons_of_pos (by simpa using hmessage),
        List.map_cons, ih, messages]
    · have hsignal : signalOf? frame = none := by
        rw [signalOf?, if_neg (mt Frame.isMessage_iff.1 hmessage)]
      rw [List.filterMap_cons_none hsignal, messages,
        List.filter_cons_of_neg (by simpa using hmessage), ih, messages]

/-! ## Telling signal by signal -/

def heardOf (patience : Option Nat) (signals : List Signal) : List Signal :=
  match patience with
  | some n => signals.take n
  | none => signals

namespace Listener

def hear (l : Listener) : List Signal → Listener × Bool
  | [] => (l, true)
  | signal :: signals =>
    match l.tell signal with
    | (l, true) => l.hear signals
    | (l, false) => (l, false)

theorem hear_append (l : Listener) (first second : List Signal) :
    l.hear (first ++ second) =
      match l.hear first with
      | (l, true) => l.hear second
      | (l, false) => (l, false) := by
  induction first generalizing l with
  | nil => rfl
  | cons signal first ih =>
    simp only [List.cons_append, hear]
    split
    · exact ih _
    · rfl

theorem hear_singleton (l : Listener) (signal : Signal) : (l.hear [signal]).1 = (l.tell signal).1 := by
  simp only [hear]
  split <;> simp_all

/-- A listener has heard the beginning of what was told. -/
theorem heard_hear (l : Listener) (signals : List Signal) :
    (l.hear signals).1.heard =
      l.heard ++ (heardOf l.patience signals).map fun signal => (l.channel, signal) := by
  induction signals generalizing l with
  | nil => cases hpatience : l.patience <;> simp [hear, heardOf]
  | cons signal signals ih =>
    by_cases hgone : l.patience = some 0
    · have htell : l.tell signal = (l, false) := if_pos hgone
      simp [hear, htell, heardOf, hgone]
    · have htell : l.tell signal = ({ l with
          patience := l.patience.map (· - 1)
          heard := l.heard ++ [(l.channel, signal)] }, true) := if_neg hgone
      simp only [hear, htell, ih, List.append_assoc]
      -- The signal is heard, and with one patience less the rest.
      congr 1
      cases hpatience : l.patience with
      | none => rfl
      | some n =>
        cases n with
        | zero => exact absurd hpatience hgone
        | succ n => rfl

/-! ## Bodies and replies -/

theorem tellFrames_eq_hear (l : Listener) (frames : List Frame) :
    l.tellFrames frames = l.hear (frames.filterMap signalOf?) := by
  induction frames generalizing l with
  | nil => rfl
  | cons frame frames ih =>
    cases hsignal : signalOf? frame with
    | none => rw [List.filterMap_cons_none hsignal, tellFrames, hsignal, ih]
    | some signal =>
      rw [List.filterMap_cons_some hsignal]
      rcases htell : l.tell signal with ⟨next, _ | _⟩
      · simp only [tellFrames, hear, hsignal, htell]
      · simp only [tellFrames, hear, hsignal, htell, ih]

/-- Following a body tells the signals of its frames, and what it has ended with. -/
theorem follow_eq_hear (limit : Nat) (l : Listener) (d : Decoder) (ended : Bool)
    (chunks : List (Except String (List UInt8))) :
    l.follow limit d ended chunks =
      (l.hear ((framesFrom limit d chunks).frames.filterMap signalOf? ++
        lastSignal (framesFrom limit d chunks).failure ended)).1 := by
  induction chunks generalizing l d with
  | nil =>
    cases ended with
    | true => exact (hear_singleton l _).symm
    | false => rfl
  | cons chunk chunks ih =>
    cases chunk with
    | error detail => exact (hear_singleton l _).symm
    | ok chunk =>
      rcases hpush : d.push limit chunk with ⟨next, failure | frames⟩
      · simp only [follow, framesFrom, hpush]
        exact (hear_singleton l _).symm
      · rcases hhear : l.hear (frames.filterMap signalOf?) with ⟨next', _ | _⟩
        · simp only [follow, framesFrom, hpush, tellFrames_eq_hear, List.filterMap_append,
            List.append_assoc, hear_append, hhear]
        · simp only [follow, framesFrom, hpush, tellFrames_eq_hear, List.filterMap_append,
            List.append_assoc, hear_append, hhear, ih]

theorem attend_eq_hear (limit : Nat) (request : Http.Request) (l : Listener)
    (reply : Option Reply) :
    l.attend limit request reply = (l.hear (trace limit request reply)).1 := by
  cases reply with
  | none => exact (hear_singleton l _).symm
  | some reply =>
    by_cases hsuccess : Http.isSuccess reply.status = true
    · rcases htell : l.tell .opened with ⟨next, _ | _⟩
      · simp only [attend, trace, ← Http.isSuccess_iff, hsuccess, if_true, hear, htell]
      · simp only [attend, trace, ← Http.isSuccess_iff, hsuccess, if_true, hear, htell,
          follow_eq_hear, filterMap_signalOf?, framesOf]
    · simp only [attend, trace, ← Http.isSuccess_iff, hsuccess]
      exact (hear_singleton l _).symm

end Listener

/-! ## Live channels -/

def partsOf (response : Http.Response) : List Http.Part :=
  .head response.status response.headers ::
    (response.chunks.map .chunk ++
      if response.ending = .heldOpen then [] else [.ended response.ending])

theorem takeAll_dead (limit : Nat) (request : Http.Request) (parts : List Http.Part) :
    (Live.takeAll limit request .dead parts).2 = [] := by
  induction parts with
  | nil => rfl
  | cons part parts ih => simp only [Live.takeAll, Live.take, ih, List.append_nil]

/-- The chunks of a body that is arriving tell what its frames tell, and its end. -/
theorem takeAll_streaming (limit : Nat) (request : Http.Request) (ending : Http.BodyEnd)
    (d : Decoder) (chunks : List (List UInt8)) :
    (Live.takeAll limit request (.streaming d)
        (chunks.map .chunk ++ if ending = .heldOpen then [] else [.ended ending])).2 =
      let stream := framesFrom limit d
        (chunks.map .ok ++ if ending = .cut then [.error Http.badBody] else [])
      stream.frames.filterMap signalOf? ++
        lastSignal stream.failure (ending ≠ .heldOpen) := by
  induction chunks generalizing d with
  | nil => cases ending <;> rfl
  | cons chunk chunks ih =>
    rcases hpush : d.push limit chunk with ⟨next, failure | frames⟩
    · simp only [List.map_cons, List.cons_append, Live.takeAll, Live.take, framesFrom, hpush,
        takeAll_dead]
      rfl
    · simp only [List.map_cons, List.cons_append, Live.takeAll, Live.take, framesFrom, hpush, ih,
        List.filterMap_append, List.append_assoc]

/-- A live channel tells the trace of the response whose parts it takes. -/
theorem takeAll_partsOf (limit : Nat) (request : Http.Request) (response : Http.Response) :
    (Live.takeAll limit request .waiting (partsOf response)).2 =
      trace limit request (Reply.ofOutcome? (.answered response)) := by
  by_cases hsuccess : Http.isSuccess response.status = true
  · simp only [partsOf, Live.takeAll, Live.take, hsuccess, if_true, takeAll_streaming,
      trace, ← Http.isSuccess_iff, Reply.ofOutcome?, received, filterMap_signalOf?, framesOf,
      List.singleton_append]
  · simp only [partsOf, Live.takeAll, Live.take, hsuccess, Bool.false_eq_true, if_false,
      takeAll_dead, trace, ← Http.isSuccess_iff, Reply.ofOutcome?, List.append_nil]

theorem signals_eq_trace (limit : Nat) (request : Http.Request) (outcome : Http.Outcome) :
    signals limit request outcome = trace limit request (Reply.ofOutcome? outcome) := by
  cases outcome with
  | refused => rfl
  | answered response =>
    by_cases hsuccess : Http.isSuccess response.status = true
    · simp only [signals, openedSignals, trace, ← Http.isSuccess_iff, Reply.ofOutcome?, hsuccess,
        if_true, filterMap_signalOf?, lastSignal]
      cases (framesOf limit (received response)).failure <;> cases response.ending <;> rfl
    · simp only [signals, trace, ← Http.isSuccess_iff, Reply.ofOutcome?, hsuccess]
      rfl

/-- Whatever becomes of a request, a listener hears the trace up to the point where it leaves, each
signal with the number of the channel; and the same trace comes of the outcome as a whole and of
the parts of a response as they arrive. -/
theorem heard_attend (limit : Nat) (request : Http.Request) (channel : Nat)
    (patience : Option Nat) :
    (∀ reply, (Listener.attend limit request { channel, patience } reply).heard =
        (heardOf patience (trace limit request reply)).map fun signal => (channel, signal)) ∧
      (∀ outcome, signals limit request outcome =
        trace limit request (Reply.ofOutcome? outcome)) ∧
      ∀ response, (Live.takeAll limit request .waiting (partsOf response)).2 =
        trace limit request (Reply.ofOutcome? (.answered response)) :=
  ⟨fun reply => by rw [Listener.attend_eq_hear, Listener.heard_hear, List.nil_append],
    signals_eq_trace limit request, takeAll_partsOf limit request⟩

end LiveRuns.Channel
