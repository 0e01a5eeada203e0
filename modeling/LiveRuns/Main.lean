import LiveRuns.Watch.Plan
import LiveRuns.Watch.Report
import Std.Async.DNS
import Std.Async.Signal
import Std.Async.TCP
import Std.Async.Timer

/-!
The program: watch runs until interrupted.

All that is decided is decided elsewhere; here requests are sent, pieces of responses received,
timers set and reports printed.  A feed holds one thing at a time, so one thing is waited for at a
time, besides the interrupt.  Connections are plain TCP; any other scheme is refused.
-/

namespace LiveRuns.Main

open Std.Async Std.Net

inductive Held where
  | nothing
  | snapshot (token : Feed.Token) (request : Http.Request) (socket : TCP.Socket.Client)
      (reader : Http.Reader) (parts : List Http.Part)
  | channel (token : Feed.Token) (request : Http.Request) (socket : TCP.Socket.Client)
      (reader : Http.Reader) (live : Channel.Live)
  | timer (token : Feed.Token) (sleep : Sleep)

inductive Happening where
  | interrupted
  | woken
  | received (bytes : Option ByteArray)

structure State where
  feed : Feed
  held : Held := .nothing

def attempt {α : Type} (action : Async α) : Async (Option α) := do
  try return some (← action)
  catch _ => return none

def sendTo (address : IPAddr) (port : UInt16) (request : Http.Request) :
    Async TCP.Socket.Client := do
  let socket ← TCP.Socket.Client.mk
  socket.connect <| match address with
    | .v4 address => .v4 ⟨address, port⟩
    | .v6 address => .v6 ⟨address, port⟩
  socket.send ⟨(Utf8.encode request.head).toArray⟩
  return socket

/-- Send a request to the first address of its host that can be reached. -/
def send (request : Http.Request) : Async (Option TCP.Socket.Client) := do
  let some authority := request.url.authority | return none
  if request.url.scheme ≠ "http" then return none
  let port := authority.port.getD 80
  let host := String.ofList (authority.host.text.filter fun c => c ≠ '[' && c ≠ ']')
  for address in (← attempt (DNS.getAddrInfo host (toString port))).getD #[] do
    if let some socket ← attempt (sendTo address port.toUInt16 request) then return some socket
  return none

/-- Carry out one effect, and tell the messages that come of it at once. -/
def perform (plan : Watch.Plan) (state : State) : Feed.Effect → Async (State × List Feed.Message)
  | .fetch token query => do
    let request := plan.snapshotRequest query
    match ← send request with
    | some socket => return ({ state with held := .snapshot token request socket .start [] }, [])
    | none => return (state, [.snapshot token (Snapshot.fetch request .refused)])
  | .openChannel token params => do
    let request := plan.streamRequest params
    match ← send request with
    | some socket => return ({ state with held := .channel token request socket .start .waiting }, [])
    | none =>
      let signals := Channel.signals EventStream.defaultLimit request .refused
      return (state, signals.map (.signal token))
  | .schedule token delay => do
    let sleep ← Sleep.mk (Std.Time.Millisecond.Offset.ofNat delay)
    return ({ state with held := .timer token sleep }, [])
  | .abort _ | .closeChannel _ | .cancel _ => return ({ state with held := .nothing }, [])
  | .publish view => do
    for line in (Watch.Report.ofView view).lines plan.logJson do
      IO.println line
    return (state, [])

def performAll (plan : Watch.Plan) (state : State) :
    List Feed.Effect → Async (State × List Feed.Message)
  | [] => return (state, [])
  | effect :: effects => do
    let (state, messages) ← perform plan state effect
    let (state, more) ← performAll plan state effects
    return (state, messages ++ more)

/-- Give the feed messages, and those that come of them. -/
partial def deliver (plan : Watch.Plan) (state : State) : List Feed.Message → Async State
  | [] => return state
  | message :: messages => do
    let (feed, effects) := state.feed.handle message
    let (state, more) ← performAll plan { state with feed } effects
    deliver plan state (messages ++ more)

def receive (state : State) (bytes : Option ByteArray) : State × List Feed.Message :=
  let read (reader : Http.Reader) : Http.Reader × List Http.Part :=
    match bytes with
    | some bytes => reader.push bytes.toList
    | none => (.over, reader.close)
  match state.held with
  | .snapshot token request socket reader parts =>
    let (reader, more) := read reader
    let parts := parts ++ more
    match reader with
    | .over => ({ state with held := .nothing },
        [.snapshot token (Snapshot.fetch request (.ofParts parts))])
    | _ => ({ state with held := .snapshot token request socket reader parts }, [])
  | .channel token request socket reader live =>
    let (reader, parts) := read reader
    let (live, signals) := live.takeAll EventStream.defaultLimit request parts
    ({ state with held := .channel token request socket reader live },
      signals.map (.signal token))
  | _ => (state, [])

def sources (interrupt : Signal.Waiter) (held : Held) : Array (Selectable Happening) :=
  let interrupted : Selectable Happening := .case interrupt.selector fun _ => return .interrupted
  match held with
  | .snapshot _ _ socket _ _ | .channel _ _ socket _ _ =>
    #[interrupted, .case (socket.recvSelector 8192) fun bytes => return .received bytes]
  | .timer _ sleep => #[interrupted, .case sleep.selector fun _ => return .woken]
  | .nothing => #[interrupted]

partial def watch (plan : Watch.Plan) (interrupt : Signal.Waiter) (state : State) : Async Unit := do
  let happening ← attempt (Selectable.one (sources interrupt state.held))
  match happening.getD (.received none), state.held with
  | .interrupted, _ => return
  | .woken, .timer token _ =>
    watch plan interrupt (← deliver plan { state with held := .nothing } [.retryDue token])
  | .woken, _ => watch plan interrupt state
  | .received bytes, _ =>
    let (state, messages) := receive state bytes
    watch plan interrupt (← deliver plan state messages)

def readFile? (name : String) : IO (Option (String × String)) := do
  try
    let bytes ← IO.FS.readBinFile name
    return some (name, String.ofList (Utf8.decode bytes.toList))
  catch _ => return none

def processEnvironment : IO Settings.Environment := do
  let some (_, text) ← readFile? "/proc/self/environ" | return []
  return (text.splitOn "\x00").filterMap fun entry =>
    let name := entry.toList.takeWhile (· ≠ '=')
    match entry.toList.drop name.length with
    | _ :: value => some (String.ofList name, String.ofList value)
    | [] => none

end LiveRuns.Main

/-- Watch runs as the arguments, the variables and the files in the directory say. -/
def main (arguments : List String) : IO UInt32 := do
  let environment ← LiveRuns.Main.processEnvironment
  let first := (← LiveRuns.Main.readFile? LiveRuns.Watch.environmentFile).toList
  let names := LiveRuns.Watch.settingsFiles arguments (LiveRuns.Watch.fullEnvironment environment first)
  let files := first ++ (← names.filterMapM LiveRuns.Main.readFile?)
  match LiveRuns.Watch.plan arguments environment files with
  | .error fault =>
    for line in fault.lines do
      IO.eprintln line
    return 1
  | .ok plan =>
    let interrupt ← Std.Async.Signal.Waiter.mk .sigint true
    Std.Async.Async.block do
      let (feed, effects) := plan.feed.startSession
      let (state, messages) ← LiveRuns.Main.performAll plan { feed } effects
      let state ← LiveRuns.Main.deliver plan state messages
      LiveRuns.Main.watch plan interrupt state
    return 0
