import LiveRuns.Url.Basic

/-!
Reading paths.

A path is read segment by segment onto the segments above it.  A single dot adds nothing, a double
dot takes the last segment away, and at the end of the path either leaves an empty segment, so
that the path still ends in a slash.  Nothing is ever taken away above the root.
-/

namespace LiveRuns.Url

/-- A segment with every escaped dot written out. -/
def plainDots : List Char → List Char
  | '%' :: '2' :: 'e' :: rest => '.' :: plainDots rest
  | '%' :: '2' :: 'E' :: rest => '.' :: plainDots rest
  | c :: rest => c :: plainDots rest
  | [] => []

/-- A drive letter: a letter and a colon or bar. -/
def isDrive (segment : List Char) : Bool :=
  match segment with
  | [letter, mark] => letter.isAlpha && (mark = ':' || mark = '|')
  | _ => false

/-- Take the last segment away; the drive of a file stays. -/
def dropSegment (file : Bool) (above : List String) : List String :=
  match file, above with
  | true, [drive] => if isDrive drive.toList then above else []
  | _, _ => above.dropLast

def addSegment (file last : Bool) (above : List String) (segment : List Char) : List String :=
  let dots := plainDots segment
  if dots = ['.', '.'] then
    let above := dropSegment file above
    if last then above ++ [""] else above
  else if dots = ['.'] then
    if last then above ++ [""] else above
  else if file && above.isEmpty && isDrive segment then
    [String.ofList (segment.take 1 ++ [':'])]
  else above ++ [String.ofList (percentEncode pathSet segment)]

/-- Read segments up to the end of the path.  `segment` is what has been read of the current one,
last character first. -/
def readSegments (special file : Bool) (above : List String) (segment : List Char) :
    List Char → List String × List Char
  | [] => (addSegment file true above segment.reverse, [])
  | c :: rest =>
    if c = '?' ∨ c = '#' then (addSegment file true above segment.reverse, c :: rest)
    else if c = '/' ∨ (special ∧ c = '\\') then
      readSegments special file (addSegment file false above segment.reverse) [] rest
    else readSegments special file above (c :: segment) rest

/-- The path of a file starts with no empty segment. -/
def trimFilePath : List String → List String
  | "" :: name :: names => trimFilePath (name :: names)
  | names => names

def readPath (scheme : String) (above : List String) (s : List Char) : Path × List Char :=
  let file := scheme = "file"
  let (names, rest) := readSegments (isSpecial scheme) file above [] s
  (.segments (if file then trimFilePath names else names), rest)

def readPathStart (scheme : String) (s : List Char) : Path × List Char :=
  match s with
  | '/' :: rest => readPath scheme [] rest
  | '\\' :: rest =>
    if isSpecial scheme then readPath scheme [] rest else readPath scheme [] s
  | [] => if isSpecial scheme then readPath scheme [] s else (.segments [], s)
  | c :: _ =>
    if ¬ isSpecial scheme ∧ (c = '?' ∨ c = '#') then (.segments [], s) else readPath scheme [] s

def readBarePath (s : List Char) : Path × List Char :=
  let text := s.takeWhile fun c => c ≠ '?' && c ≠ '#'
  (.bare (String.ofList (percentEncode isControl text)), s.drop text.length)

end LiveRuns.Url
