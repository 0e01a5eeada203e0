import LiveRuns.Feed.Basic
import LiveRuns.Timestamp.Printer

/-!
Reports.

Every view that a feed publishes is reported, with the runs at the head of its list: one record for
the view and one for each of the runs.
-/

namespace LiveRuns.Watch

def headRuns : Nat := 5

structure RunReport where
  runId : String
  agentId : String
  status : String
  updatedAt : String
deriving DecidableEq, Repr

structure Report where
  status : String
  runs : Nat
  reconnects : Nat
  error : String
  head : List RunReport
deriving DecidableEq, Repr

def missing : String := "-"

def RunReport.ofRun (run : Run) : RunReport where
  runId := run.id
  agentId := run.agentId.getD missing
  status := (run.status.map RunStatus.name).getD missing
  updatedAt := match run.updatedAt with
    | some instant => "Some(" ++ instant.text ++ ")"
    | none => "None"

def Report.ofView (view : Feed.View) : Report where
  status := view.connection.name
  runs := view.runs.length
  reconnects := view.reconnectAttempts
  error := view.error.getD missing
  head := (view.runs.take headRuns).map .ofRun

/-- The records of a report: its own, and one for each run. -/
def Report.records (report : Report) : List (List (String × Json.Value)) :=
  let number (n : Nat) : Json.Value := .number (.integer n)
  [("message", .text "feed updated"), ("status", .text report.status),
    ("runs", number report.runs), ("reconnects", number report.reconnects),
    ("error", .text report.error)] ::
  report.head.map fun run =>
    [("message", .text "run"), ("run_id", .text run.runId), ("agent_id", .text run.agentId),
      ("status", .text run.status), ("updated_at", .text run.updatedAt)]

/-- A record as one line: a JSON object, or its message and the other fields. -/
def line (asJson : Bool) (record : List (String × Json.Value)) : String :=
  if asJson then (Json.Value.object record).toText
  else
    let field (entry : String × Json.Value) : String :=
      match entry with
      | ("message", .text text) => text
      | (key, .text text) => key ++ "=" ++ text
      | (key, value) => key ++ "=" ++ value.toText
    " ".intercalate (record.map field)

def Report.lines (asJson : Bool) (report : Report) : List String :=
  report.records.map (line asJson)

end LiveRuns.Watch
