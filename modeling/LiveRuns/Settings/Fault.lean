import LiveRuns.Settings.CommandLine
import LiveRuns.Settings.File
import LiveRuns.Text.Quoted

/-!
Why settings cannot be had.
-/

namespace LiveRuns.Settings

inductive Section where
  | server
  | feed
  | filter
  | log
deriving DecidableEq, Repr

namespace Section

def key : Section → String
  | .server => "server"
  | .feed => "feed"
  | .filter => "filter"
  | .log => "log"

/-- The keys in a section, in the order in which a list gives their values. -/
def keys : Section → List String
  | .server => ["base_url", "runs_path", "stream_path"]
  | .feed => ["max_runs", "retry_delay_ms"]
  | .filter => ["agent_id", "status", "from", "to"]
  | .log => ["json"]

def description : Section → String
  | .server => "struct ServerConfig"
  | .feed => "struct FeedConfig"
  | .filter => "struct FilterConfig"
  | .log => "struct LogConfig"

end Section

inductive Found where
  | scalar (value : Scalar)
  | list
  | table
deriving DecidableEq, Repr

def Tree.found : Tree → Found
  | .leaf _ value => .scalar value
  | .list .. => .list
  | .table .. => .table

inductive Expected where
  | text
  | integer
  | natural
  | bool
deriving DecidableEq, Repr

def Expected.description : Expected → String
  | .text => "a string"
  | .integer => "an integer"
  | .natural => "an unsigned 64 bit or less integer"
  | .bool => "a boolean"

def Found.description : Found → String
  | .scalar .nothing => "unit value"
  | .scalar (.bool value) => "boolean `" ++ (if value then "true" else "false") ++ "`"
  | .scalar (.integer i) => "64-bit integer `" ++ toString i ++ "`"
  | .scalar (.float bits) => "floating point `" ++ String.ofList (Decimal.positional bits) ++ "`"
  | .scalar (.text value) => "string " ++ Text.quoted value
  | .list => "sequence"
  | .table => "map"

/-- What messages about a section call what was found.  A number that is no integer has a point. -/
def Found.sectionDescription : Found → String
  | .scalar (.integer i) => "integer `" ++ toString i ++ "`"
  | .scalar (.float bits) =>
    let digits := Decimal.positional bits
    let point := if digits.contains '.' then [] else ['.', '0']
    "floating point `" ++ String.ofList (digits ++ point) ++ "`"
  | found => found.description

inductive Fault where
  | commandLine (why : Refusal)
  | file (why : File.Fault)
  | wrongType (found : Found) (expected : Expected) (key : String) (origin : Option String)
  /-- A section is neither a table nor a list. -/
  | wrongSection (found : Found) (expected : Section)
  /-- A section that is a list is too short. -/
  | wrongLength (length : Nat) (expected : Section)
  | missing (key : String)
deriving DecidableEq, Repr

/-- The wording of a fault; nothing is said of the inside of a file that cannot be read. -/
def Fault.message? : Fault → Option String
  | .commandLine why => some why.message
  | .file (.notFound name) => some ("configuration file \"" ++ name ++ "\" not found")
  | .file (.noFormat name) =>
    some ("configuration file \"" ++ name ++ "\" is not of a supported file format")
  | .file .unreadable => none
  | .wrongType found expected key origin =>
    some ("invalid type: " ++ found.description ++ ", expected " ++ expected.description ++
      " for key `" ++ key ++ "`" ++ (origin.map (" in " ++ ·)).getD "")
  | .wrongSection found expected =>
    some ("invalid type: " ++ found.sectionDescription ++ ", expected " ++ expected.description ++
      " for key `" ++ expected.key ++ "`")
  | .wrongLength length expected =>
    let count := expected.keys.length
    some ("invalid length " ++ toString length ++ ", expected " ++ expected.description ++ " with " ++
      toString count ++ (if count = 1 then " element" else " elements") ++ " for key `" ++
      expected.key ++ "`")
  | .missing key => some ("missing configuration field " ++ Text.quoted key)

end LiveRuns.Settings
