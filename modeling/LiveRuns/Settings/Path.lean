import LiveRuns.Decimal.Integer

/-!
Paths to a setting.

A path leads through tables by key and through lists by index: `feed.max_runs`, `list[0].name`.  A
text that is no such path is a key by itself, whatever is in it.
-/

namespace LiveRuns.Settings

/-- One step down.  A negative index counts from the end of the list. -/
inductive Step where
  | key (name : String)
  | item (index : Int)
deriving DecidableEq, Repr

abbrev Path := List Step

namespace Path

def isKeyChar (c : Char) : Bool := c.isAlphanum || c = '_' || c = '-'

/-- What of a path is being read, with what has been read of it reversed. -/
inductive Part where
  | key (seen : List Char)
  | index (seen : List Char)
  | closed

def finishKey? (seen : List Char) : Option Step :=
  if seen.isEmpty then none else some (.key (String.ofList seen.reverse))

def finishIndex? (seen : List Char) : Option Step :=
  if seen.getLast? = some '+' then none else (Decimal.integer? 10 seen.reverse).map .item

def steps? : Part → List Char → Option Path
  | .key seen, [] => (finishKey? seen).map ([·])
  | .index _, [] => none
  | .closed, [] => some []
  | .key seen, c :: rest =>
    if isKeyChar c then steps? (.key (c :: seen)) rest
    else do
      let step ← finishKey? seen
      let path ←
        if c = '.' then steps? (.key []) rest else if c = '[' then steps? (.index []) rest else none
      return step :: path
  | .index seen, c :: rest =>
    if c = ']' then do return (← finishIndex? seen) :: (← steps? .closed rest)
    else steps? (.index (c :: seen)) rest
  | .closed, c :: rest =>
    if c = '.' then steps? (.key []) rest else if c = '[' then steps? (.index []) rest else none

def ofText (text : String) : Path := (steps? (.key []) text.toList).getD [.key text]

end Path

end LiveRuns.Settings
