import LiveRuns.Event
import LiveRuns.EventStream.Decoder
import LiveRuns.Filter
import LiveRuns.Http.Message

/-!
Channels.

A channel is one connection to the stream of events.  It reports what happens on it by signals:
that it is open, the events in the order of their arrival, messages that are no events, and at
last its failure, after which it is dead.  `signals` lists all of them for one outcome of the
request.  A `Listener` is told them one at a time and may leave after any of them; a `Live` channel
takes the response in parts, as they come.
-/

namespace LiveRuns.Channel

def defaultPath : String := "/api/runs/stream"

inductive Signal where
  | opened
  | event (event : RunEvent)
  | malformed (failure : Failure)
  | failed (failure : Failure)

def request (endpoint : Url) (params : StreamParams) : Http.Request :=
  .get endpoint params.pairs "text/event-stream"

/-- The signal of a frame.  Only frames of the default type carry events. -/
def signalOf? (frame : EventStream.Frame) : Option Signal :=
  if frame.isMessage then
    match RunEvent.ofText frame.data with
    | .ok event => some (.event event)
    | .error why => some (.malformed (.malformed why))
  else none

def received (response : Http.Response) : List (Except String (List UInt8)) :=
  response.chunks.map .ok ++ if response.ending = .cut then [.error Http.badBody] else []

def openedSignals (limit : Nat) (response : Http.Response) : List Signal :=
  let stream := EventStream.framesOf limit (received response)
  let last : List Signal :=
    match stream.failure with
    | some failure => [.failed failure]
    | none =>
      if response.ending = .heldOpen then []
      else [.failed (.stream "stream ended by server")]
  .opened :: (stream.frames.filterMap signalOf? ++ last)

def signals (limit : Nat) (request : Http.Request) : Http.Outcome → List Signal
  | .refused => [.failed (.stream request.sendFailure)]
  | .answered response =>
    if Http.isSuccess response.status then openedSignals limit response
    else
      [.failed (.stream ("stream endpoint answered " ++ Http.statusText response.status))]

/-! ## Listeners -/

/-- A reply to the request as it comes in: its status, the chunks of its body, any of which may fail
to come, and whether the body ends after them. -/
structure Reply where
  status : Nat
  chunks : List (Except String (List UInt8))
  ended : Bool

def Reply.ofOutcome? : Http.Outcome → Option Reply
  | .refused => none
  | .answered response =>
    some ⟨response.status, received response, response.ending ≠ .heldOpen⟩

structure Listener where
  channel : Nat
  /-- After how many more signals the listener closes the channel or is gone, if ever. -/
  patience : Option Nat := none
  heard : List (Nat × Signal) := []

namespace Listener

/-- Tell a signal; the answer is whether somebody has listened. -/
def tell (l : Listener) (signal : Signal) : Listener × Bool :=
  if l.patience = some 0 then (l, false)
  else
    ({ l with
        patience := l.patience.map (· - 1)
        heard := l.heard ++ [(l.channel, signal)] }, true)

def tellFrames (l : Listener) : List EventStream.Frame → Listener × Bool
  | [] => (l, true)
  | frame :: frames =>
    match signalOf? frame with
    | none => l.tellFrames frames
    | some signal =>
      match l.tell signal with
      | (l, true) => l.tellFrames frames
      | (l, false) => (l, false)

/-- Follow a body chunk by chunk and tell what it brings, until it ends or nobody listens. -/
def follow (limit : Nat) (l : Listener) (d : EventStream.Decoder) (ended : Bool) :
    List (Except String (List UInt8)) → Listener
  | [] => if ended then (l.tell (.failed (.stream "stream ended by server"))).1 else l
  | .error detail :: _ => (l.tell (.failed (.stream detail))).1
  | .ok chunk :: chunks =>
    match d.push limit chunk with
    | (_, .error failure) => (l.tell (.failed failure)).1
    | (d, .ok frames) =>
      match l.tellFrames frames with
      | (l, true) => l.follow limit d ended chunks
      | (l, false) => l

def attend (limit : Nat) (request : Http.Request) (l : Listener) : Option Reply → Listener
  | none => (l.tell (.failed (.stream request.sendFailure))).1
  | some reply =>
    if Http.isSuccess reply.status then
      match l.tell .opened with
      | (l, true) => l.follow limit {} reply.ended reply.chunks
      | (l, false) => l
    else
      (l.tell (.failed (.stream ("stream endpoint answered " ++
        Http.statusText reply.status)))).1

end Listener

/-! ## Live channels -/

/-- A channel on which a response is arriving.  Nothing comes of a dead one any more. -/
inductive Live where
  | waiting
  | streaming (decoder : EventStream.Decoder)
  | dead

def Live.take (limit : Nat) (request : Http.Request) (live : Live) (part : Http.Part) :
    Live × List Signal :=
  match live, part with
  | .waiting, .head status _ =>
    if Http.isSuccess status then (.streaming {}, [.opened])
    else (.dead, [.failed (.stream ("stream endpoint answered " ++ Http.statusText status))])
  | .waiting, _ => (.dead, signals limit request .refused)
  | .streaming decoder, .chunk bytes =>
    match decoder.push limit bytes with
    | (decoder, .ok frames) => (.streaming decoder, frames.filterMap signalOf?)
    | (_, .error failure) => (.dead, [.failed failure])
  | .streaming _, .ended .complete => (.dead, [.failed (.stream "stream ended by server")])
  | .streaming _, _ => (.dead, [.failed (.stream Http.badBody)])
  | .dead, _ => (.dead, [])

def Live.takeAll (limit : Nat) (request : Http.Request) (live : Live) :
    List Http.Part → Live × List Signal
  | [] => (live, [])
  | part :: parts =>
    let (live, signals) := live.take limit request part
    let (live, more) := live.takeAll limit request parts
    (live, signals ++ more)

end LiveRuns.Channel
