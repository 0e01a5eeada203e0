import LiveRuns.Feed.Basic

/-!
What a feed does with a message.

`handle` gives the feed after a message and the effects of the message in order.  Every session
starts with a snapshot and opens its channel only after the snapshot has come, so that no event
between the two is lost; a failed snapshot leaves the list empty.  A channel that fails is closed
at once and followed by one timer.  A closed feed does nothing any more.
-/

namespace LiveRuns.Feed

def publishing (f : Feed) (effects : List Effect) : Feed × List Effect :=
  (f, effects ++ [.publish f.view])

/-- Begin a session: let go of the last one and take a snapshot. -/
def startSession (f : Feed) : Feed × List Effect :=
  let token := f.lastToken + 1
  publishing
    { f with phase := .connecting, session := { snapshot := some token }, lastToken := token }
    (f.session.release ++ [.fetch token f.selection.query])

def restart (f : Feed) (selection : Selection) : Feed × List Effect :=
  let (next, effects) := startSession
    { f with
      selection, phase := .idle, session := {}, runs := [], error := none, reconnectAttempts := 0 }
  (next, f.session.release ++ effects)

/-- Take the result of the snapshot under way and open the channel, in the place of any other. -/
def takeSnapshot (f : Feed) (result : Except Failure (List Run)) : Feed × List Effect :=
  let token := f.lastToken + 1
  let closing := (f.session.channel.map Effect.closeChannel).toList
  let f := { f with session := { f.session with snapshot := none, channel := some token }
                    lastToken := token }
  let f := match result with
    | .ok runs => { f with runs := Roster.clamp runs f.options.capacity }
    | .error failure => { f with runs := [], error := some failure.message }
  publishing f (closing ++ [.openChannel token f.selection.params])

def reconnect (f : Feed) : Feed × List Effect :=
  startSession
    { f with
      session := { f.session with retry := none }
      reconnectAttempts := f.reconnectAttempts + 1 }

def failChannel (f : Feed) (channel : Token) (failure : Failure) : Feed × List Effect :=
  let token := f.lastToken + 1
  publishing
    { f with
      phase := .reconnectPending
      session := { f.session with channel := none, retry := some token }
      lastToken := token
      error := some failure.message }
    ([.closeChannel channel] ++ (f.session.retry.map .cancel).toList ++
      [.schedule token f.options.retryDelay])

/-- Take a signal of the open channel.  A malformed message changes nothing. -/
def takeSignal (f : Feed) (channel : Token) : Channel.Signal → Feed × List Effect
  | .opened => publishing { f with phase := .connected, error := none } []
  | .event event =>
    publishing { f with runs := Roster.reconcile f.runs event f.options.capacity } []
  | .malformed _ => (f, [])
  | .failed failure => failChannel f channel failure

def close (f : Feed) : Feed × List Effect :=
  publishing { f with phase := .closed, session := {} } f.session.release

/-- Take a message.  One whose token is not held is out of date and changes nothing. -/
def handle (f : Feed) (message : Message) : Feed × List Effect :=
  if f.phase = .closed then (f, [])
  else
    match message with
    | .setParams selection => restart f selection
    | .dispose => close f
    | .snapshot token result =>
      if f.session.snapshot = some token then takeSnapshot f result else (f, [])
    | .retryDue token => if f.session.retry = some token then reconnect f else (f, [])
    | .signal token signal =>
      if f.session.channel = some token then takeSignal f token signal else (f, [])

def new (options : Options) (selection : Selection) : Feed := { options, selection }

def run (f : Feed) : List Message → Feed × List Effect
  | [] => (f, [])
  | message :: messages =>
    let (f, effects) := f.handle message
    let (f, more) := f.run messages
    (f, effects ++ more)

end LiveRuns.Feed
