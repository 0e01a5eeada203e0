import LiveRuns.Decimal.Double
import LiveRuns.Json.Value

/-!
What a settings file says.

A `Datum` is a value as some file format writes it: the kinds that TOML, JSON and YAML share.  A
`Scalar` is one without parts.
-/

namespace LiveRuns.Settings

inductive Scalar where
  | nothing
  | bool (value : Bool)
  | integer (value : Int)
  | float (bits : Decimal.Bits)
  | text (value : String)
deriving DecidableEq, Repr, Inhabited

inductive Datum where
  | scalar (value : Scalar)
  | list (items : List Datum)
  | table (entries : List (String × Datum))

namespace Datum

abbrev nothing : Datum := .scalar .nothing

abbrev bool (value : Bool) : Datum := .scalar (.bool value)

abbrev integer (value : Int) : Datum := .scalar (.integer value)

abbrev float (bits : Decimal.Bits) : Datum := .scalar (.float bits)

abbrev text (value : String) : Datum := .scalar (.text value)

instance : Inhabited Datum := ⟨nothing⟩

end Datum

def Datum.entries? : Datum → Option (List (String × Datum))
  | .table entries => some entries
  | _ => none

mutual

/-- The datum that a JSON value is.  Numbers beyond 63 bits are doubles. -/
def Datum.ofJson : Json.Value → Datum
  | .null => .nothing
  | .bool value => .bool value
  | .number (.integer i) =>
    if i < 0x8000000000000000 then .integer i else .float (Decimal.nearest i.natAbs 0)
  | .number (.float bits) => .float bits
  | .text value => .text value
  | .list items => .list (dataOfJson items)
  | .object members => .table (entriesOfJson members)

def dataOfJson : List Json.Value → List Datum
  | [] => []
  | item :: items => .ofJson item :: dataOfJson items

def entriesOfJson : List (String × Json.Value) → List (String × Datum)
  | [] => []
  | (key, value) :: members => (key, .ofJson value) :: entriesOfJson members

end

end LiveRuns.Settings
