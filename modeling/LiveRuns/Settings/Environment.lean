import LiveRuns.Decimal.Integer
import LiveRuns.Settings.Tree
import LiveRuns.Unicode.Lower

/-!
Environment variables.

A variable whose name begins with `RUNSYNC_` sets a key: the rest of its name in lower case, with
two underscores between the parts.  Its value is a truth value, an integer or a decimal if it reads
as one, and text otherwise.
-/

namespace LiveRuns.Settings

abbrev Environment := List (String × String)

namespace Environment

def get? (environment : Environment) (name : String) : Option String := environment.lookup name

def start : List Char := "runsync_".toList

def origin : String := "the environment"

/-- Put a dot for every two underscores. -/
def dotted : List Char → List Char
  | [] => []
  | '_' :: '_' :: rest => '.' :: dotted rest
  | c :: rest => c :: dotted rest

def valueOf (text : String) : Scalar :=
  let s := text.toList
  let lower := Unicode.lower s
  if lower = "true".toList then .bool true
  else if lower = "false".toList then .bool false
  else
    match Decimal.integer? 10 s with
    | some i => .integer i
    | none =>
      match Decimal.parse? s with
      | some bits => .float bits
      | none => .text text

def setting? (entry : String × String) : Option (Path × Tree) :=
  let name := Unicode.lower entry.1.toList
  if start.isPrefixOf name then
    some (Path.ofText (String.ofList (dotted (name.drop start.length))),
      .leaf (some origin) (valueOf entry.2))
  else none

def layer (environment : Environment) : Layer := environment.filterMap setting?

end Environment

end LiveRuns.Settings
