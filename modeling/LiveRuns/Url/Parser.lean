import LiveRuns.Url.Path

/-!
Reading URLs.

A text is read alone or against a base, as browsers read it: blanks and controls around it and
tabs and line ends inside it are dropped, backslashes count as slashes under the special schemes,
and what the text leaves out is taken from the base.
-/

namespace LiveRuns.Url

/-- Drop what does not count: controls and spaces at the ends, tabs and line ends anywhere. -/
def tidy (s : List Char) : List Char :=
  let blank (c : Char) : Bool := c ≤ ' '
  (((s.dropWhile blank).reverse.dropWhile blank).reverse).filter fun c =>
    c ≠ '\t' && c ≠ '\n' && c ≠ '\r'

def isSchemeChar (c : Char) : Bool := c.isAlphanum || c = '+' || c = '-' || c = '.'

/-- The scheme in front of a text, in lower case, and what follows its colon. -/
def readScheme? (s : List Char) : Option (String × List Char) :=
  let scheme := s.takeWhile isSchemeChar
  match scheme, s.drop scheme.length with
  | first :: _, ':' :: rest =>
    if first.isAlpha then some (String.ofList (scheme.map Char.toLower), rest) else none
  | _, _ => none

def readTail (scheme : String) (s : List Char) : Option String × Option String :=
  let fragment (s : List Char) : Option String :=
    match s with
    | '#' :: rest => some (String.ofList (percentEncode fragmentSet rest))
    | _ => none
  match s with
  | '?' :: rest =>
    let query := rest.takeWhile (· ≠ '#')
    (some (String.ofList (percentEncode (querySet (isSpecial scheme)) query)),
      fragment (rest.drop query.length))
  | _ => (none, fragment s)

def complete (scheme : String) (authority : Option Authority) (path : Path × List Char) : Url :=
  let (query, fragment) := readTail scheme path.2
  ⟨scheme, authority, path.1, query, fragment⟩

/-! ## Authorities -/

def endsAuthority (special : Bool) (c : Char) : Bool :=
  c = '/' || c = '?' || c = '#' || (special && c = '\\')

def splitLast? (mark : Char) (s : List Char) : Option (List Char × List Char) :=
  if s.contains mark then
    let after := (s.reverse.takeWhile (· ≠ mark)).reverse
    some (s.take (s.length - after.length - 1), after)
  else none

def readUser (s : List Char) : String × String :=
  let name := s.takeWhile (· ≠ ':')
  let encoded (part : List Char) := String.ofList (percentEncode userSet part)
  (encoded name, encoded (s.drop (name.length + 1)))

/-- The host in front of a text: up to a colon outside brackets or the end of the authority. -/
def takeHost (special bracket : Bool) : List Char → List Char
  | [] => []
  | c :: rest =>
    if (c = ':' ∧ ¬ bracket) ∨ endsAuthority special c then []
    else c :: takeHost special (if c = '[' then true else if c = ']' then false else bracket) rest

/-- Read a port; the one that the scheme uses by itself is left out. -/
def readPort (scheme : String) (s : List Char) : Except Fault (Option Nat × List Char) :=
  let digits := s.takeWhile Char.isDigit
  let rest := s.drop digits.length
  let port := Text.decimalValue digits
  if 65535 < port then .error .badPort
  else
    let found := if digits.isEmpty ∨ some port = defaultPort? scheme then none else some port
    match rest with
    | [] => .ok (found, rest)
    | c :: _ => if endsAuthority true c then .ok (found, rest) else .error .badPort

def readAuthority (scheme : String) (s : List Char) : Except Fault (Authority × List Char) := do
  let special := isSpecial scheme
  let whole := s.takeWhile fun c => !endsAuthority special c
  let (user, s) ← match splitLast? '@' whole with
    | none => pure ([], s)
    | some (user, _) =>
      let s := s.drop (user.length + 1)
      if user.isEmpty ∧ (s.head?.map (endsAuthority special)).getD false then throw .emptyHost
      pure (user, s)
  let (username, password) := readUser user
  let host := takeHost special false s
  let s := s.drop host.length
  if special ∧ host.isEmpty then throw .emptyHost
  let host ← if special then specialHost host else plainHost host
  if host = .empty ∧ s.head? = some ':' then throw .emptyHost
  let (port, s) ← match s with
    | ':' :: rest => readPort scheme rest
    | _ => pure (none, s)
  if host = .empty ∧ (username ≠ "" ∨ password ≠ "") then throw .emptyHost
  return (⟨username, password, host, port⟩, s)

def readAfterSlashes (scheme : String) (s : List Char) : Except Fault Url := do
  let (authority, s) ← readAuthority scheme s
  return complete scheme (some authority) (readPathStart scheme s)

/-! ## Files -/

/-- Whether a text starts with a drive letter that is a segment of its own. -/
def startsWithDrive (s : List Char) : Bool :=
  isDrive (s.take 2) && ((s.drop 2).head?.map (endsAuthority true)).getD true

/-- The authority of a file whose host is not named. -/
def localAuthority : Authority := { host := .empty }

def readFileHost (s : List Char) : Except Fault Url := do
  let host := s.takeWhile fun c => !endsAuthority true c
  if isDrive host then
    return complete "file" (some localAuthority) (readPath "file" [] s)
  let s := s.drop host.length
  let host ← if host.isEmpty then pure Host.empty else specialHost host
  let host := if host = .name "localhost" then .empty else host
  return complete "file" (some { localAuthority with host }) (readPathStart "file" s)

def baseDrive (base : Option Url) : List String :=
  match base.map Url.path with
  | some (.segments (drive :: _)) => if isDrive drive.toList then [drive] else []
  | _ => []

/-! ## Resolving -/

def aboveLast (u : Url) : List String :=
  match u.path with
  | .segments names => dropSegment (u.scheme = "file") names
  | .bare _ => []

def withTail (base : Url) (s : List Char) : Url :=
  let (query, fragment) := readTail base.scheme s
  { base with query, fragment }

/-- Read a text that names no path of its own against a base. -/
def resolveTail? (base : Url) (s : List Char) : Option Url :=
  match s with
  | [] => some { base with fragment := none }
  | '?' :: _ => some (withTail base s)
  | '#' :: _ => some { withTail base s with query := base.query }
  | _ => none

def resolveFile (base : Option Url) (s : List Char) : Except Fault Url :=
  let slash (c : Char) : Bool := c = '/' || c = '\\'
  match s with
  | a :: b :: rest =>
    if slash a ∧ slash b then readFileHost rest
    else resolveWithin base s
  | _ => resolveWithin base s
where
  resolveWithin (base : Option Url) (s : List Char) : Except Fault Url :=
    match s.head?, base with
    | some '/', _ | some '\\', _ =>
      let rest := s.drop 1
      let authority := ((base.bind Url.authority).getD localAuthority)
      if startsWithDrive rest then
        .ok (complete "file" (some localAuthority) (readPath "file" [] rest))
      else .ok (complete "file" (some authority) (readPath "file" (baseDrive base) rest))
    | _, none => .ok (complete "file" (some localAuthority) (readPath "file" [] s))
    | _, some base =>
      match resolveTail? base s with
      | some u => .ok u
      | none =>
        if startsWithDrive s then
          .ok (complete "file" (some localAuthority) (readPath "file" [] s))
        else .ok (complete "file" base.authority (readPath "file" (aboveLast base) s))

/-- Read a text without scheme against a base that has a hierarchy. -/
def resolveRelative (base : Url) (s : List Char) : Except Fault Url :=
  match resolveTail? base s with
  | some u => .ok u
  | none =>
    let slash (c : Char) : Bool := c = '/' || c = '\\'
    match s with
    | '/' :: '/' :: rest => readAfterSlashes base.scheme rest
    | a :: b :: rest =>
      if slash a ∧ slash b then readAfterSlashes base.scheme (rest.dropWhile slash)
      else if slash a then .ok (complete base.scheme base.authority (readPath base.scheme [] (b :: rest)))
      else .ok (complete base.scheme base.authority (readPath base.scheme (aboveLast base) s))
    | [a] =>
      if slash a then .ok (complete base.scheme base.authority (readPath base.scheme [] []))
      else .ok (complete base.scheme base.authority (readPath base.scheme (aboveLast base) s))
    | [] => .ok base

def readWithScheme (base : Option Url) (scheme : String) (s : List Char) : Except Fault Url :=
  let sameBase := base.filter (·.scheme = scheme)
  if scheme = "file" then resolveFile sameBase s
  else if isSpecial scheme then
    let slashes := s.takeWhile fun c => c = '/' || c = '\\'
    match sameBase with
    | some base =>
      if slashes.length < 2 then resolveRelative base s
      else readAfterSlashes scheme (s.drop slashes.length)
    | none => readAfterSlashes scheme (s.drop slashes.length)
  else
    match s with
    | '/' :: '/' :: rest => readAfterSlashes scheme rest
    | '/' :: rest => .ok (complete scheme none (readPath scheme [] rest))
    | _ => .ok (complete scheme none (readBarePath s))

def read (base : Option Url) (text : String) : Except Fault Url :=
  let s := tidy text.toList
  match readScheme? s with
  | some (scheme, rest) => readWithScheme base scheme rest
  | none =>
    match base with
    | none => .error .relativeWithoutBase
    | some base =>
      if s.head? = some '#' then .ok { withTail base s with query := base.query }
      else if ¬ base.isHierarchical then .error .relativeToOpaqueBase
      else if base.scheme = "file" then resolveFile base s
      else resolveRelative base s

def ofText (text : String) : Except Fault Url := read none text

/-- The URL that a text means, seen from a base. -/
def join (base : Url) (text : String) : Except Fault Url := read (some base) text

end LiveRuns.Url
