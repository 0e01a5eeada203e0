import LiveRuns.Channel
import LiveRuns.Feed.Basic
import LiveRuns.Snapshot
import LiveRuns.Url.Endpoint

/-!
The settings of a watch, and what follows from them.

The status that runs are narrowed to is given as text: blank text is no filter, and the names count
in any case and with blanks around them.  The bounds in time narrow the snapshot only, and are
strict timestamps.
-/

namespace LiveRuns

structure Settings where
  baseUrl : String
  runsPath : String
  streamPath : String
  maxRuns : Nat
  retryDelay : Nat
  agentId : Option String := none
  status : Option String := none
  since : Option String := none
  before : Option String := none
  logJson : Bool
deriving DecidableEq, Repr

namespace Settings

def base (s : Settings) : Except Failure Url :=
  match Url.ofText s.baseUrl with
  | .ok url => .ok url
  | .error why => .error (.url why)

def statusFilter (s : Settings) : Except Failure (Option RunStatus) :=
  match s.status with
  | none => .ok none
  | some text =>
    if text.toList.all Unicode.isBlank then .ok none
    else
      match RunStatus.parse text with
      | .ok status => .ok (some status)
      | .error normalized => .error (.settings (RunStatus.unknownText normalized))

def bound (key : String) : Option String → Except Failure (Option Timestamp)
  | none => .ok none
  | some text =>
    match Timestamp.ofStrictText text with
    | .ok instant => .ok (some instant)
    | .error why => .error (.settings (key ++ ": " ++ why.message))

def streamParams (s : Settings) : Except Failure StreamParams := do
  return { agentId := s.agentId, status := ← s.statusFilter }

/-- The filter of the snapshot, where it differs from that of the stream. -/
def initialFetch (s : Settings) : Except Failure (Option RunQuery) := do
  if s.since.isNone && s.before.isNone then return none
  return some
    { agentId := s.agentId
      status := ← s.statusFilter
      since := ← bound "filter.from" s.since
      before := ← bound "filter.to" s.before }

/-- What a feed needs beside the filter of the stream. -/
structure FeedOptions where
  initialFetch : Option RunQuery
  options : Feed.Options
deriving DecidableEq

def feedOptions (s : Settings) : Except Failure FeedOptions := do
  if s.maxRuns = 0 then throw (.settings "feed.max_runs must be at least 1")
  return ⟨← s.initialFetch, ⟨s.maxRuns, s.retryDelay⟩⟩

end Settings

end LiveRuns
