import LiveRuns.Settings.Environment
import LiveRuns.Unicode.Blank
import LiveRuns.Unicode.Word

/-!
Environment files.

A line of an environment file is `NAME=value`, maybe after `export`.  A value is plain, quoted, or
both in turn; quotes may span lines.  Outside single quotes a backslash escapes and a dollar sign
puts in the value of a variable.  A variable that is set already keeps its value.  The file is read
up to the first line that breaks these rules.
-/

namespace LiveRuns.Settings.EnvironmentFile

/-! ## Lines -/

inductive Mode where
  | plain
  /-- After a blank, where a comment may start. -/
  | blank
  | escape
  | single
  | singleEscape
  | double
  | doubleEscape
  | comment
deriving DecidableEq, Repr

def Mode.next (mode : Mode) (c : Char) : Mode :=
  let opening :=
    if c = '\\' then Mode.escape
    else if c = '"' then .double
    else if c = '\'' then .single
    else .plain
  match mode with
  | .plain => if Unicode.isBlank c && c ≠ '\n' && c ≠ '\r' then .blank else opening
  | .blank => if c = '#' then .comment else opening
  | .escape => .plain
  | .single => if c = '\\' then .singleEscape else if c = '\'' then .plain else .single
  | .singleEscape => .single
  | .double => if c = '\\' then .doubleEscape else if c = '"' then .plain else .double
  | .doubleEscape => .double
  | .comment => .comment

/-- Read on to the end of a line or to a comment; the answer has what stands in front of it. -/
def Mode.scan (mode : Mode) : List Char → Mode × List Char
  | [] => (mode, [])
  | c :: rest =>
    match mode.next c with
    | .comment => (.comment, [])
    | next =>
      let (final, kept) := scan next rest
      (final, c :: kept)

def rawLines (s : List Char) : List (List Char) :=
  s.foldr (fun c lines =>
    match c, lines with
    | '\n', _ => ['\n'] :: lines
    | _, [] => [[c]]
    | _, line :: lines => (c :: line) :: lines) []

def withoutEnd (line : List Char) : List Char :=
  match line.reverse with
  | '\n' :: '\r' :: rest => rest.reverse
  | '\n' :: rest => rest.reverse
  | _ => line

/-- Put lines together that quotes or escapes join.  What the end of the file leaves open is
dropped. -/
def joinedLines (mode : Mode) (seen : List Char) : List (List Char) → List (List Char)
  | [] => []
  | line :: lines =>
    let text := seen ++ line
    if (text.dropWhile Unicode.isBlank).head? = some '#' then joinedLines .plain [] lines
    else
      match mode.scan line with
      | (.plain, _) => withoutEnd text :: joinedLines .plain [] lines
      | (.comment, kept) => (seen ++ kept) :: joinedLines .plain [] lines
      | (mode, _) => joinedLines mode text lines

/-! ## Values -/

inductive Quote where
  | none
  | single
  | double
deriving DecidableEq, Repr

/-- What of a value is being read; names are reversed. -/
inductive Part where
  | text
  | escape
  | name (seen : List Char)
  | bracedName (seen : List Char)
  /-- After the value, where only a comment may follow. -/
  | ended
deriving DecidableEq, Repr

def substituted (environment : Environment) (seen : List Char) : List Char :=
  ((environment.get? (String.ofList seen.reverse)).getD "").toList

def escaped? (c : Char) : Option Char :=
  if ['\\', '\'', '"', '$', ' '].contains c then some c else if c = 'n' then some '\n' else none

/-- Read a value, with what has been read reversed. -/
def value? (environment : Environment) (quote : Quote) (part : Part) (seen : List Char) :
    List Char → Option (List Char)
  | [] =>
    match quote, part with
    | _, .bracedName _ => none
    | .none, .name name => some (seen.reverse ++ substituted environment name)
    | .none, _ => some seen.reverse
    | _, _ => none
  | c :: rest =>
    match part with
    | .ended =>
      if c = ' ' ∨ c = '\t' then value? environment quote .ended seen rest
      else if c = '#' then some seen.reverse
      else none
    | .escape => do value? environment quote .text ((← escaped? c) :: seen) rest
    | .name name =>
      if Unicode.isWord c then value? environment quote (.name (c :: name)) seen rest
      else if c = '\x7b' ∧ name = [] then value? environment quote (.bracedName []) seen rest
      else
        let seen := (substituted environment name).reverse ++ seen
        if c = '$' then value? environment quote (.name []) seen rest
        else value? environment quote .text (c :: seen) rest
    | .bracedName name =>
      if c = '\x7d' then
        value? environment quote .text ((substituted environment name).reverse ++ seen) rest
      else value? environment quote (.bracedName (c :: name)) seen rest
    | .text =>
      match quote with
      | .single =>
        if c = '\'' then value? environment .none .text seen rest
        else value? environment quote .text (c :: seen) rest
      | .double =>
        if c = '$' then value? environment quote (.name []) seen rest
        else if c = '"' then value? environment .none .text seen rest
        else if c = '\\' then value? environment quote .escape seen rest
        else value? environment quote .text (c :: seen) rest
      | .none =>
        if c = '$' then value? environment quote (.name []) seen rest
        else if c = '\'' then value? environment .single .text seen rest
        else if c = '"' then value? environment .double .text seen rest
        else if c = '\\' then value? environment quote .escape seen rest
        else if c = ' ' ∨ c = '\t' then value? environment quote .ended seen rest
        else value? environment quote .text (c :: seen) rest

/-! ## Assignments -/

def skipBlanks (s : List Char) : List Char := s.dropWhile Unicode.isBlank

def isNameChar (c : Char) : Bool := c.isAlphanum || c = '_' || c = '.'

def name? (s : List Char) : Option (String × List Char) :=
  match s with
  | [] => none
  | c :: _ =>
    if c.isAlpha || c = '_' then
      some (String.ofList (s.takeWhile isNameChar), skipBlanks (s.dropWhile isNameChar))
    else none

/-- What a line assigns to a name: a text still to be read. -/
def assignment? (s : List Char) : Option (String × List Char) := do
  let (name, rest) ← name? s
  match rest with
  | '=' :: rest => return (name, skipBlanks rest)
  | _ =>
    if name ≠ "export" then none
    let (name, rest) ← name? rest
    match rest with
    | '=' :: rest => return (name, skipBlanks rest)
    | _ => none

/-- Whether nothing but a comment follows. -/
def isOver (s : List Char) : Bool := s.isEmpty || s.head? = some '#'

def setLine? (environment : Environment) (line : List Char) : Option Environment := do
  let s := skipBlanks (line.reverse.dropWhile Unicode.isBlank).reverse
  if isOver s then return environment
  let (name, rest) ← assignment? s
  let value ← if isOver rest then some [] else value? environment .none .text [] rest
  if (environment.get? name).isSome then return environment
  return environment ++ [(name, String.ofList value)]

/-- Set what lines set, up to the first one that cannot be read. -/
def setLines (environment : Environment) : List (List Char) → Environment
  | [] => environment
  | line :: lines =>
    match setLine? environment line with
    | some environment => setLines environment lines
    | none => environment

def load (environment : Environment) (text : String) : Environment :=
  let s := match text.toList with
    | '\uFEFF' :: rest => rest
    | s => s
  setLines environment (joinedLines .plain [] (rawLines s))

end LiveRuns.Settings.EnvironmentFile
