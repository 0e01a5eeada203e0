import LiveRuns.Feed.Step
import LiveRuns.Settings.EnvironmentFile
import LiveRuns.Settings.Load

/-!
Planning a watch.

A watch is planned from the arguments, the variables and the files of a process.  A plan says where
runs are listed and streamed, which of them are followed, and how.
-/

namespace LiveRuns.Watch

def environmentFile : String := ".env"

structure Plan where
  listing : Url
  stream : Url
  selection : Feed.Selection
  options : Feed.Options
  logJson : Bool

inductive Fault where
  | settings (why : Settings.Fault)
  | failure (why : Failure)
deriving DecidableEq, Repr

def Fault.message : Fault → String
  | .settings _ => "failed to load configuration"
  | .failure why => why.message

def Fault.cause? : Fault → Option String
  | .settings why => why.message?
  | .failure (.url why) => some why.message
  | .failure _ => none

def Fault.lines (fault : Fault) : List String :=
  ("Error: " ++ fault.message) ::
    match fault.cause? with
    | some cause => ["", "Caused by:", "    " ++ cause]
    | none => []

/-- The plan that settings make.  The base URL is looked at first, then the filter, the options of
the feed and the two endpoints. -/
def Plan.ofSettings (settings : Settings) : Except Failure Plan := do
  let base ← settings.base
  let params ← settings.streamParams
  let options ← settings.feedOptions
  let listing ← (base.endpoint settings.runsPath).mapError .url
  let stream ← (base.endpoint settings.streamPath).mapError .url
  return ⟨listing, stream, ⟨params, options.initialFetch⟩, options.options, settings.logJson⟩

def fullEnvironment (environment : Settings.Environment) (files : Settings.Files) :
    Settings.Environment :=
  match Settings.File.content? files environmentFile with
  | some text => Settings.EnvironmentFile.load environment text
  | none => environment

def settingsFiles (arguments : List String) (environment : Settings.Environment) : List String :=
  match Settings.CommandLine.read arguments environment with
  | .ok choices =>
    Settings.File.candidates (choices.fileName.getD Settings.Files.defaultName)
  | .error _ => []

def plan (arguments : List String) (environment : Settings.Environment) (files : Settings.Files) :
    Except Fault Plan := do
  let settings ← (Settings.load arguments (fullEnvironment environment files) files).mapError .settings
  (Plan.ofSettings settings).mapError .failure

def Plan.feed (plan : Plan) : Feed := .new plan.options plan.selection

def Plan.snapshotRequest (plan : Plan) (query : RunQuery) : Http.Request :=
  Snapshot.request plan.listing query

def Plan.streamRequest (plan : Plan) (params : StreamParams) : Http.Request :=
  Channel.request plan.stream params

end LiveRuns.Watch
