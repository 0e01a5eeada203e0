import LiveRuns.Failure
import LiveRuns.Filter
import LiveRuns.Http.Exchange

/-!
Snapshots.

A snapshot is the listing of the runs that match a query, fetched in one exchange.  It is had whole
or not at all.
-/

namespace LiveRuns.Snapshot

def defaultPath : String := "/api/runs"

def request (endpoint : Url) (query : RunQuery) : Http.Request :=
  .get endpoint query.pairs "*/*"

/-- The runs in a body: a list every element of which is a run. -/
def runsOfBody? (body : List UInt8) : Option (List Run) := do
  let text ← Utf8.decode? body
  (Run.listOfText (String.ofList text)).toOption

def fetch (request : Http.Request) : Http.Outcome → Except Failure (List Run)
  | .refused => .error (.fetch none request.sendFailure)
  | .answered response =>
    if Http.isSuccess response.status then
      match (if response.ending = .complete then runsOfBody? response.body else none) with
      | some runs => .ok runs
      | none => .error (.fetch none Http.badBody)
    else .error (.fetch (some response.status) (response.text?.getD "Unknown error"))

end LiveRuns.Snapshot
