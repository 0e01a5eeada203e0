import LiveRuns.Url.Basic

/-!
Query pairs in a URL.

Names and values are written as forms write them: letters, digits and `*-._` stay, a space becomes
a plus sign, and every other byte is escaped.  So no value can add a pair or change another one.
-/

namespace LiveRuns.Url

def staysInForm (b : UInt8) : Bool :=
  let c := Char.ofNat b.toNat
  b < 128 && (c.isAlphanum || c ∈ ['*', '-', '.', '_'])

def formByte (b : UInt8) : List Char :=
  if staysInForm b then [Char.ofNat b.toNat] else if b = 32 then ['+'] else escapedByte b

def formText (s : String) : List Char := (Utf8.encode s.toList).flatMap formByte

def formPair (pair : String × String) : List Char :=
  formText pair.1 ++ '=' :: formText pair.2

def formQuery (pairs : List (String × String)) : List Char :=
  ['&'].intercalate (pairs.map formPair)

/-- Append pairs to the query of a URL.  A query that stays empty is left out. -/
def withPairs (u : Url) (pairs : List (String × String)) : Url :=
  let old := (u.query.getD "").toList
  let new := formQuery pairs
  let query := if old.isEmpty then new else if new.isEmpty then old else old ++ '&' :: new
  { u with query := if query.isEmpty then none else some (String.ofList query) }

end LiveRuns.Url
