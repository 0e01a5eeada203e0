import LiveRuns.Http.Charset
import LiveRuns.Http.StatusPhrase
import LiveRuns.Url.Form

/-!
Requests and their responses.

A request asks for one URL.  Its outcome is a refusal or a response, and a response is its status,
its headers and the chunks of its body in the order of their arrival, with the way the body ended.
-/

namespace LiveRuns.Http

structure Request where
  url : Url
  accept : String

def Request.get (endpoint : Url) (pairs : List (String × String)) (accept : String) : Request :=
  ⟨endpoint.withPairs pairs, accept⟩

/-- The URL without user and password, which are sent apart from it. -/
def withoutUser (u : Url) : Url :=
  { u with authority := u.authority.map fun a => { a with username := "", password := "" } }

/-- The URL that is asked for; a fragment is never sent. -/
def Request.target (r : Request) : String := { withoutUser r.url with fragment := none }.text

/-- Whether requests can be made under the URL's scheme. -/
def Request.isSendable (r : Request) : Bool := r.url.scheme = "http" || r.url.scheme = "https"

/-- Why a request got no response: it could not be made, or the other side did not answer it. -/
def Request.sendFailure (r : Request) : String :=
  (if r.isSendable then "error sending request" else "builder error") ++
    " for url (" ++ (withoutUser r.url).text ++ ")"

/-- How a body ended.  A body that is held open has not ended at all. -/
inductive BodyEnd where
  | complete
  | cut
  | heldOpen
deriving DecidableEq, Repr

structure Response where
  status : Nat
  headers : List (String × String)
  chunks : List (List UInt8)
  ending : BodyEnd

inductive Outcome where
  | refused
  | answered (response : Response)

/-- The message of a body that did not come whole or does not say what it should. -/
def badBody : String := "error decoding response body"

def Response.body (r : Response) : List UInt8 := r.chunks.flatten

/-- The value of the first header with a name, whatever its case. -/
def Response.header? (r : Response) (name : String) : Option String :=
  (r.headers.find? fun h => h.1.toLower = name).map (·.2)

/-- The body as text, in the character set of its content type; `none` if it did not come whole. -/
def Response.text? (r : Response) : Option String :=
  if r.ending = .complete then
    some ((((r.header? "content-type").map Charset.ofContentType).getD .utf8).decode r.body)
  else none

end LiveRuns.Http
