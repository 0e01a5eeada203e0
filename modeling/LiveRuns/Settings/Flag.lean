import LiveRuns.Decimal.Integer
import LiveRuns.Settings.Tree

/-!
Options.

An option is given on the command line, or else by an environment variable of its own.  All but
`--config` set one key, over everything that files and other variables say.
-/

namespace LiveRuns.Settings

/-- The options, in the order in which they are listed. -/
inductive Flag where
  | config
  | baseUrl
  | agentId
  | status
  | maxRuns
  | retryDelay
  | logJson
deriving DecidableEq, Repr

inductive Refusal where
  | help
  | version
  | unexpected (argument : String)
  /-- A value was given to what takes none. -/
  | unexpectedValue (value name : String)
  | missingValue (flag : Flag)
  | repeated (flag : Flag)
  | badNatural (flag : Flag) (value : String) (why : Decimal.NaturalFault)
  | badBool (flag : Flag) (value : String)
deriving DecidableEq, Repr

namespace Flag

def all : List Flag := [.config, .baseUrl, .agentId, .status, .maxRuns, .retryDelay, .logJson]

def name : Flag → String
  | .config => "config"
  | .baseUrl => "base-url"
  | .agentId => "agent-id"
  | .status => "status"
  | .maxRuns => "max-runs"
  | .retryDelay => "retry-delay-ms"
  | .logJson => "log-json"

def valueName : Flag → String
  | .config => "CONFIG"
  | .baseUrl => "BASE_URL"
  | .agentId => "AGENT_ID"
  | .status => "STATUS"
  | .maxRuns => "MAX_RUNS"
  | .retryDelay => "RETRY_DELAY_MS"
  | .logJson => "LOG_JSON"

def envName : Flag → String
  | .config => "CONFIG_FILE"
  | .baseUrl => "RUNS_API_URL"
  | .agentId => "RUNS_AGENT_ID"
  | .status => "RUNS_STATUS"
  | .maxRuns => "RUNS_MAX"
  | .retryDelay => "RUNS_RETRY_DELAY_MS"
  | .logJson => "LOG_JSON"

/-- An option as messages show it. -/
def usage (flag : Flag) : String := "--" ++ flag.name ++ " <" ++ flag.valueName ++ ">"

def path? : Flag → Option Path
  | .config => none
  | .baseUrl => some [.key "server", .key "base_url"]
  | .agentId => some [.key "filter", .key "agent_id"]
  | .status => some [.key "filter", .key "status"]
  | .maxRuns => some [.key "feed", .key "max_runs"]
  | .retryDelay => some [.key "feed", .key "retry_delay_ms"]
  | .logJson => some [.key "log", .key "json"]

def read (flag : Flag) (value : String) : Except Refusal Scalar :=
  match flag with
  | .maxRuns | .retryDelay =>
    match Decimal.natural value.toList with
    | .ok n => .ok (.integer n)
    | .error why => .error (.badNatural flag value why)
  | .logJson =>
    if value = "true" then .ok (.bool true)
    else if value = "false" then .ok (.bool false)
    else if value = "" then .error (.missingValue flag)
    else .error (.badBool flag value)
  | _ => .ok (.text value)

end Flag

/-- The wording of a refusal; that of help and of the version is what was asked for. -/
def Refusal.message : Refusal → String
  | .help => "Watch agent runs live"
  | .version => "run-stream-sync 0.1.0"
  | .unexpected argument => "error: unexpected argument '" ++ argument ++ "' found"
  | .unexpectedValue value name =>
    "error: unexpected value '" ++ value ++ "' for '" ++ name ++ "' found; no more were expected"
  | .missingValue flag =>
    "error: a value is required for '" ++ flag.usage ++ "' but none was supplied"
  | .repeated flag => "error: the argument '" ++ flag.usage ++ "' cannot be used multiple times"
  | .badNatural flag value why =>
    "error: invalid value '" ++ value ++ "' for '" ++ flag.usage ++ "': " ++ why.message
  | .badBool flag value => "error: invalid value '" ++ value ++ "' for '" ++ flag.usage ++ "'"

end LiveRuns.Settings
