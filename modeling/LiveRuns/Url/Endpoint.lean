import LiveRuns.Url.Parser

/-!
Endpoints.

An endpoint is a path beneath the path of a base URL.  The base counts as a directory, whether its
path ends in a slash or not, and leading slashes of the path do not lead to the root.
-/

namespace LiveRuns.Url

def asDirectory (u : Url) : Url :=
  match u.path with
  | .segments names =>
    if names.getLast? = some "" then u else { u with path := .segments (names ++ [""]) }
  | .bare text =>
    if text.toList.getLast? = some '/' then u
    else { u with path := .bare (String.ofList (text.toList ++ ['/'])) }

/-- The endpoint at a path beneath a base. -/
def endpoint (base : Url) (path : String) : Except Fault Url :=
  base.asDirectory.join (String.ofList (path.toList.dropWhile (· = '/')))

end LiveRuns.Url
