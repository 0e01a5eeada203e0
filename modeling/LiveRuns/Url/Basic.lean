import LiveRuns.Url.Host

/-!
URLs.

A `Url` holds its parts in the form in which they are written, so `Url.text` only joins them.  The
path is a list of segments, or one text under schemes that have no hierarchy.
-/

namespace LiveRuns

namespace Url

structure Authority where
  username : String := ""
  password : String := ""
  host : Host
  port : Option Nat := none
deriving DecidableEq, Repr

/-- A path: a text without hierarchy, or segments each of which follows a slash. -/
inductive Path where
  | bare (text : String)
  | segments (names : List String)
deriving DecidableEq, Repr

def Path.text : Path → List Char
  | .bare text => text.toList
  | .segments names => names.flatMap fun name => '/' :: name.toList

def Authority.userText (a : Authority) : List Char :=
  if a.username = "" ∧ a.password = "" then []
  else a.username.toList ++ (if a.password = "" then [] else ':' :: a.password.toList) ++ ['@']

def Authority.text (a : Authority) : List Char :=
  a.userText ++ a.host.text ++
    match a.port with
    | some port => ':' :: Nat.toDigits 10 port
    | none => []

end Url

structure Url where
  scheme : String
  authority : Option Url.Authority
  path : Url.Path
  query : Option String
  fragment : Option String
deriving DecidableEq, Repr

namespace Url

def partText (mark : Char) : Option String → List Char
  | some part => mark :: part.toList
  | none => []

/-- The authority as it is written.  Without one, a path that starts with two slashes would be
taken for one, which `/.` prevents. -/
def authorityText (u : Url) : List Char :=
  match u.authority with
  | some a => '/' :: '/' :: a.text
  | none =>
    match u.path with
    | .segments ("" :: _ :: _) => ['/', '.']
    | _ => []

def chars (u : Url) : List Char :=
  u.scheme.toList ++ ':' :: u.authorityText ++ u.path.text ++ partText '?' u.query ++
    partText '#' u.fragment

def text (u : Url) : String := String.ofList u.chars

/-- The schemes whose URLs have a host and a hierarchy, with the port each one uses by itself. -/
def specialSchemes : List (String × Option Nat) :=
  [("http", some 80), ("https", some 443), ("ws", some 80), ("wss", some 443), ("ftp", some 21),
    ("file", none)]

def isSpecial (scheme : String) : Bool := specialSchemes.any (·.1 = scheme)

def defaultPort? (scheme : String) : Option Nat := (specialSchemes.lookup scheme).join

/-- Whether other URLs can be resolved against this one by their paths. -/
def isHierarchical (u : Url) : Bool :=
  match u.path with
  | .bare _ => false
  | .segments _ => true

end Url

end LiveRuns
