import LiveRuns.Feed.Rehearsal
import LiveRuns.Watch.Plan
import LiveRuns.Watch.Report

/-!
A watch that reaches nobody.

Where every request is refused, a watch does not depend on anything outside: it fails, waits and
begins again.  Its reports up to a given time are those of a rehearsal in which every snapshot and
every channel fails at once.
-/

namespace LiveRuns.Watch

def Plan.refusedSnapshot (plan : Plan) : Feed.Scripted where
  result := Snapshot.fetch (plan.snapshotRequest plan.selection.query) .refused

def Plan.refusedChannel (plan : Plan) : List Channel.Signal :=
  Channel.signals EventStream.defaultLimit (plan.streamRequest plan.selection.params) .refused

/-- How many sessions can begin within a time.  Without a delay between them there is no such
number, and one is taken for each millisecond. -/
def Plan.sessions (plan : Plan) (milliseconds : Nat) : Nat :=
  milliseconds / max plan.options.retryDelay 1 + 2

def Plan.offlineReports (plan : Plan) (milliseconds : Nat) : List Report :=
  let sessions := plan.sessions milliseconds
  let rehearsal := Feed.Rehearsal.ofScript plan.options plan.selection
    (List.replicate sessions plan.refusedSnapshot) (List.replicate sessions plan.refusedChannel)
  let (rehearsal, _) := rehearsal.start.act (.advance milliseconds)
  rehearsal.published.reverse.map .ofView

end LiveRuns.Watch
