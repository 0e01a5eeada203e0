import LiveRuns.Json.Value
import LiveRuns.Text.Quoted
import LiveRuns.Timestamp.Basic

/-!
Why a JSON text does not describe the value asked for.

Either its form is at fault, or some part of it has the wrong kind, number of elements, members,
name or time.  `Error.message` words each cause, and `Error.category` tells the families apart.
-/

namespace LiveRuns.Wire

inductive Found where
  | null
  | bool (value : Bool)
  | number (value : Json.Number)
  | text (value : String)
  | list
  | object
deriving DecidableEq, Repr

def Found.describe : Found → String
  | .null => "null"
  | .bool true => "boolean `true`"
  | .bool false => "boolean `false`"
  | .number (.integer i) => "integer `" ++ String.ofList (Json.Number.integerText i) ++ "`"
  | .number (.float b) => "floating point `" ++ String.ofList (Json.Number.floatText b) ++ "`"
  | .text s => "string " ++ Text.quoted s
  | .list => "sequence"
  | .object => "map"

inductive Error where
  | form (fault : Json.Fault)
  | wrongKind (found : Found) (wanted : String)
  | wrongLength (length : Nat) (wanted : String)
  | missing (field : String)
  | repeated (field : String)
  | unknownName (name : String) (known : List String)
  | timestamp (fault : Timestamp.Fault)
deriving DecidableEq, Repr

namespace Error

def category : Error → Json.Category
  | .form fault => fault.category
  | _ => .data

def message : Error → String
  | .form fault => fault.message
  | .wrongKind found wanted => "invalid type: " ++ found.describe ++ ", expected " ++ wanted
  | .wrongLength length wanted => "invalid length " ++ toString length ++ ", expected " ++ wanted
  | .missing field => "missing field `" ++ field ++ "`"
  | .repeated field => "duplicate field `" ++ field ++ "`"
  | .unknownName name known =>
    "unknown variant `" ++ name ++ "`, expected one of " ++
      ", ".intercalate (known.map fun k => "`" ++ k ++ "`")
  | .timestamp fault => fault.message

end Error

def form {α : Type} : Except Json.Fault α → Except Error α
  | .ok a => .ok a
  | .error fault => .error (.form fault)

end LiveRuns.Wire
