import LiveRuns.Channel
import LiveRuns.Roster

/-!
The state of a feed.

A feed keeps a bounded list of runs current: it takes a snapshot, opens a channel, applies the
events that arrive, and when the channel fails it waits and begins again.  Whatever it starts in
the outside world is known by a token, and it holds at most one thing of each kind: a snapshot
under way, an open channel, a timer.  A message that carries any other token than the one held is
out of date.
-/

namespace LiveRuns

namespace Feed

/-- How long a feed waits after a failure unless told otherwise, in milliseconds. -/
def defaultRetryDelay : Nat := 5000

abbrev Token := Nat

inductive Phase where
  | idle
  | connecting
  | connected
  | reconnectPending
  | closed
deriving DecidableEq, Repr

inductive Connection where
  | disconnected
  | connecting
  | connected
  | error
deriving DecidableEq, Repr

def Connection.name : Connection → String
  | .disconnected => "disconnected"
  | .connecting => "connecting"
  | .connected => "connected"
  | .error => "error"

def Phase.connection : Phase → Connection
  | .idle | .closed => .disconnected
  | .connecting => .connecting
  | .connected => .connected
  | .reconnectPending => .error

structure View where
  runs : List Run := []
  connection : Connection := .disconnected
  error : Option String := none
  reconnectAttempts : Nat := 0
deriving Inhabited

def View.isConnected (v : View) : Bool := v.connection = .connected

structure Options where
  capacity : Nat := Roster.defaultCapacity
  retryDelay : Nat := defaultRetryDelay
deriving DecidableEq, Repr

/-- Which runs a feed follows: the filter of the channel and, if it differs, that of the
snapshot. -/
structure Selection where
  params : StreamParams := {}
  initialFetch : Option RunQuery := none
deriving DecidableEq

def Selection.query (s : Selection) : RunQuery := s.initialFetch.getD s.params.toQuery

structure Session where
  snapshot : Option Token := none
  channel : Option Token := none
  retry : Option Token := none
deriving DecidableEq, Repr

inductive Message where
  | setParams (selection : Selection)
  /-- The owner ends the feed, or nobody is left to tell it anything. -/
  | dispose
  | snapshot (token : Token) (result : Except Failure (List Run))
  | retryDue (token : Token)
  | signal (token : Token) (signal : Channel.Signal)

inductive Effect where
  | fetch (token : Token) (query : RunQuery)
  | abort (token : Token)
  | openChannel (token : Token) (params : StreamParams)
  | closeChannel (token : Token)
  | schedule (token : Token) (delay : Nat)
  | cancel (token : Token)
  | publish (view : View)

def Session.release (s : Session) : List Effect :=
  (s.snapshot.map .abort).toList ++ (s.channel.map .closeChannel).toList ++
    (s.retry.map .cancel).toList

end Feed

structure Feed where
  options : Feed.Options
  selection : Feed.Selection
  phase : Feed.Phase := .idle
  session : Feed.Session := {}
  lastToken : Feed.Token := 0
  runs : List Run := []
  error : Option String := none
  reconnectAttempts : Nat := 0

namespace Feed

def view (f : Feed) : View where
  runs := f.runs
  connection := f.phase.connection
  error := f.error
  reconnectAttempts := f.reconnectAttempts

end Feed

end LiveRuns
