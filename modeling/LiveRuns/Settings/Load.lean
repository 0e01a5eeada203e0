import LiveRuns.Settings.Decoder

/-!
Loading settings.

The layers, lowest first: the defaults, the settings file, the variables that set keys, and the
options with their own variables.
-/

namespace LiveRuns.Settings

def defaults : Layer :=
  [([.key "server", .key "base_url"], .leaf none (.text "http://127.0.0.1:3000")),
    ([.key "server", .key "runs_path"], .leaf none (.text Snapshot.defaultPath)),
    ([.key "server", .key "stream_path"], .leaf none (.text Channel.defaultPath)),
    ([.key "feed", .key "max_runs"], .leaf none (.integer Roster.defaultCapacity)),
    ([.key "feed", .key "retry_delay_ms"], .leaf none (.integer Feed.defaultRetryDelay)),
    ([.key "log", .key "json"], .leaf none (.bool false))]

def Choices.fileName (choices : Choices) : Option String :=
  match choices.get? .config with
  | some (.text name) => some name
  | _ => none

/-- Load settings with the arguments of a process, its variables and the files in its directory. -/
def load (arguments : List String) (environment : Environment) (files : Files) :
    Except Fault Settings := do
  let choices ← (CommandLine.read arguments environment).mapError .commandLine
  let file ← (files.layer choices.fileName).mapError .file
  ofTree (.ofLayers [defaults, file, environment.layer, choices.layer])

end LiveRuns.Settings
