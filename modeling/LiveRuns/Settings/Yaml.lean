import LiveRuns.Decimal.Integer
import LiveRuns.Settings.Datum
import LiveRuns.Text.Split

/-!
Reading YAML.

A document is read as lines with an indentation.  Lists and tables are written in blocks, one item
or key a line with its parts indented below it, or between brackets; scalars are plain, quoted or,
after `|` and `>`, blocks of lines.  Anchors, tags, several documents and keys that are no text are
not read.  `Yaml.read?` gives the document, or nothing where it breaks these rules or repeats a key.
-/

namespace LiveRuns.Settings.Yaml

/-- One line: how many spaces it starts with, and the rest of it. -/
structure Line where
  indent : Nat
  text : List Char
deriving DecidableEq, Repr, Inhabited

def trimEnd (s : List Char) : List Char :=
  (s.reverse.dropWhile fun c => c = ' ' || c = '\t' || c = '\r').reverse

def trim (s : List Char) : List Char := trimEnd (s.dropWhile fun c => c = ' ' || c = '\t')

def Line.ofChars (s : List Char) : Line :=
  let text := s.dropWhile (· = ' ')
  ⟨s.length - text.length, trimEnd text⟩

/-- Whether a line says nothing: it is blank or a comment. -/
def Line.isEmpty (l : Line) : Bool :=
  match l.text.dropWhile (· = '\t') with
  | [] => true
  | c :: _ => c = '#'

def skipEmpty (lines : List Line) : List Line := lines.dropWhile Line.isEmpty

/-- Cut a comment off a plain text: it starts with a number sign after a blank. -/
def cutComment (before : List Char) : List Char → List Char
  | [] => before.reverse
  | c :: rest =>
    if c = '#' ∧ before.head?.all fun b => b = ' ' || b = '\t' then before.reverse
    else cutComment (c :: before) rest

/-! ## Scalars -/

/-- The names of infinity and of what is no number.  They are numbers without a value here. -/
def unreadable : List (List Char) :=
  [".inf", ".Inf", ".INF", "+.inf", "+.Inf", "+.INF", "-.inf", "-.Inf", "-.INF", ".nan", ".NaN",
    ".NAN"].map String.toList

/-- What a plain scalar means: nothing, a truth value, a number or text. -/
def scalar? (s : List Char) : Option Datum :=
  let based : Option Int :=
    match s with
    | '0' :: 'x' :: digits => Decimal.integer? 16 digits
    | '0' :: 'o' :: digits => Decimal.integer? 8 digits
    | '+' :: digits => Decimal.integer? 10 digits
    | _ => none
  match based.or (Decimal.integer? 10 s) with
  | some i => some (.integer i)
  | none =>
    if s = [] ∨ s = ['~'] ∨ s = "null".toList then some .nothing
    else if s = "true".toList then some (.bool true)
    else if s = "false".toList then some (.bool false)
    else if s ∈ unreadable then none
    else
      match if s.any Char.isDigit then Decimal.parse? s else none with
      | some bits => some (.float bits)
      | none => some (.text (String.ofList s))

/-- The key that a plain scalar is: text, or an integer as it is written usually. -/
def plainKey? (s : List Char) : Option String :=
  match scalar? s with
  | some (.scalar (.text key)) => some key
  | some (.scalar (.integer i)) => some (toString i)
  | _ => none

def escape? : List Char → Option (List Char × List Char)
  | [] => none
  | c :: rest =>
    let code (n : Nat) : Option (List Char × List Char) :=
      if rest.length < n then none
      else (Decimal.naturalIn? 16 (rest.take n)).map fun code => ([Char.ofNat code], rest.drop n)
    if c = 'x' then code 2
    else if c = 'u' then code 4
    else if c = 'U' then code 8
    else
      ([('0', '\x00'), ('a', '\x07'), ('b', '\x08'), ('t', '\t'), ('\t', '\t'), ('n', '\n'),
        ('v', '\x0b'), ('f', '\x0c'), ('r', '\r'), ('e', '\x1b'), (' ', ' '), ('"', '"'),
        ('/', '/'), ('\\', '\\'), ('N', '\u0085'), ('_', '\u00a0'), ('L', '\u2028'),
        ('P', '\u2029')].lookup c).map fun d => ([d], rest)

def double? : Nat → List Char → List Char → Option (List Char × List Char)
  | 0, _, _ => none
  | fuel + 1, seen, s =>
    match s with
    | [] => none
    | '"' :: rest => some (seen.reverse, rest)
    | '\\' :: rest => (escape? rest).bind fun (cs, rest) => double? fuel (cs.reverse ++ seen) rest
    | c :: rest => double? fuel (c :: seen) rest

/-- Read the inside of a single-quoted scalar; a quote in it is written twice. -/
def single? (seen : List Char) : List Char → Option (List Char × List Char)
  | [] => none
  | '\'' :: '\'' :: rest => single? ('\'' :: seen) rest
  | '\'' :: rest => some (seen.reverse, rest)
  | c :: rest => single? (c :: seen) rest

def quoted? : List Char → Option (List Char × List Char)
  | '"' :: rest => double? (rest.length + 1) [] rest
  | '\'' :: rest => single? [] rest
  | _ => none

def indicators : List Char :=
  [' ', '\t', '"', '\'', '[', ']', '{', '}', ',', '#', '&', '*', '!', '|', '>', '%', '@', '\x60']

/-- Whether a plain scalar may start here.  A dash, a question mark and a colon may only stand in
front of more. -/
def startsPlain : List Char → Bool
  | [] => false
  | c :: rest =>
    if c = '-' ∨ c = '?' ∨ c = ':' then rest.head?.any fun d => d ≠ ' ' && d ≠ '\t'
    else c ∉ indicators

/-! ## Brackets -/

def skipSpaces (s : List Char) : List Char :=
  s.dropWhile fun c => c = ' ' || c = '\t' || c = '\n'

/-- A plain scalar between brackets, up to a bracket, a comma or a colon before a blank. -/
def takePlain : List Char → List Char
  | [] => []
  | c :: rest =>
    if c ∈ [',', '[', ']', '{', '}'] then []
    else if c = ':' ∧ rest.head?.all (· ∈ [' ', '\t', '\n', ',', '[', ']', '{', '}']) then []
    else c :: takePlain rest

def addEntry? (entries : List (String × Datum)) (key : String) (datum : Datum) :
    Option (List (String × Datum)) :=
  if (entries.lookup key).isSome then none else some (entries ++ [(key, datum)])

def flowKey? (s : List Char) : Option (String × Bool × List Char) :=
  match s with
  | c :: _ =>
    if c = '"' ∨ c = '\'' then (quoted? s).map fun (key, rest) => (String.ofList key, true, rest)
    else if startsPlain s then
      let plain := takePlain s
      (plainKey? (trim plain)).map fun key => (key, false, s.drop plain.length)
    else none
  | [] => none

mutual

def flow? : Nat → List Char → Option (Datum × List Char)
  | 0, _ => none
  | fuel + 1, s =>
    match skipSpaces s with
    | '[' :: rest => do
      let (items, rest) ← flowItems? fuel rest
      return (.list items, rest)
    | '{' :: rest => do
      let (entries, rest) ← flowPairs? fuel [] rest
      return (.table entries, rest)
    | c :: rest =>
      if c = '"' ∨ c = '\'' then
        (quoted? (c :: rest)).map fun (text, rest) => (.text (String.ofList text), rest)
      else if startsPlain (c :: rest) then
        let plain := takePlain (c :: rest)
        (scalar? (trim plain)).map (·, (c :: rest).drop plain.length)
      else none
    | [] => none

def flowItems? : Nat → List Char → Option (List Datum × List Char)
  | 0, _ => none
  | fuel + 1, s =>
    match skipSpaces s with
    | ']' :: rest => some ([], rest)
    | s => do
      let (item, rest) ← flow? fuel s
      match skipSpaces rest with
      | ']' :: rest => return ([item], rest)
      | ',' :: rest =>
        let (items, rest) ← flowItems? fuel rest
        return (item :: items, rest)
      | _ => none

/-- Read the pairs of a table up to its closing brace.  A key alone stands for nothing. -/
def flowPairs? : Nat → List (String × Datum) → List Char →
    Option (List (String × Datum) × List Char)
  | 0, _, _ => none
  | fuel + 1, entries, s =>
    match skipSpaces s with
    | '}' :: rest => some (entries, rest)
    | s => do
      let (key, _, rest) ← flowKey? s
      let (datum, rest) ← match skipSpaces rest with
        | ':' :: rest =>
          match skipSpaces rest with
          | ',' :: _ => some (Datum.nothing, rest)
          | '}' :: _ => some (Datum.nothing, rest)
          | rest => flow? fuel rest
        | rest => some (Datum.nothing, rest)
      let entries ← addEntry? entries key datum
      match skipSpaces rest with
      | '}' :: rest => return (entries, rest)
      | ',' :: rest => flowPairs? fuel entries rest
      | _ => none

end

/-! ## Blocks of text -/

/-- Join the lines of a folded block: single line ends become spaces. -/
def fold : List (List Char) → List Char
  | [] => []
  | [line] => line
  | line :: next :: rest =>
    if line.isEmpty then '\n' :: fold (next :: rest)
    else if next.isEmpty then line ++ fold (next :: rest)
    else if next.head? = some ' ' ∨ line.head? = some ' ' then line ++ '\n' :: fold (next :: rest)
    else line ++ ' ' :: fold (next :: rest)

/-- Read the block of text after a header such as `|` or `>-`, below a given indentation. -/
def textBlock (parent : Int) (header : List Char) (lines : List Line) : String × List Line :=
  let blank (l : Line) : Bool := l.text.isEmpty
  let block := lines.takeWhile fun l => blank l || parent < (l.indent : Int)
  let rest := lines.drop block.length
  let given := (header.find? Char.isDigit).map fun c => (parent + (c.toNat - 48 : Nat)).toNat
  let indent := given.getD (((block.find? fun l => !blank l).map Line.indent).getD 0)
  let contents := block.map fun l =>
    if blank l then [] else List.replicate (l.indent - indent) ' ' ++ l.text
  let ending := (contents.reverse.takeWhile List.isEmpty).length
  let kept := contents.take (contents.length - ending)
  let body :=
    if header.head? = some '>' then fold kept else ['\n'].intercalate kept
  let newlines :=
    if header.contains '-' ∨ kept.isEmpty then 0 else if header.contains '+' then ending else 1
  (String.ofList (body ++ List.replicate newlines '\n'), rest)

/-! ## Blocks -/

def startsItem : List Char → Bool
  | ['-'] => true
  | '-' :: c :: _ => c = ' ' || c = '\t'
  | _ => false

/-- Cut a plain text at the first colon that a blank or the end follows. -/
def cutKey (before : List Char) : List Char → Option (List Char × List Char)
  | [] => none
  | c :: rest =>
    if c = ':' ∧ rest.head?.all fun d => d = ' ' || d = '\t' then
      some (before.reverse, rest)
    else if c = '#' ∧ before.head? = some ' ' then none
    else cutKey (c :: before) rest

/-- Whether a line sets a key: the text of the key, whether it is plain, and what follows. -/
def keyOf? (s : List Char) : Option (List Char × Bool × List Char) :=
  match s with
  | c :: _ =>
    if c = '"' ∨ c = '\'' then
      (quoted? s).bind fun (key, rest) =>
        match rest.dropWhile (· = ' ') with
        | [':'] => some (key, false, [])
        | ':' :: d :: rest => if d = ' ' ∨ d = '\t' then some (key, false, rest) else none
        | _ => none
    else if startsPlain s then (cutKey [] s).map fun (key, rest) => (trim key, true, rest)
    else none
  | [] => none

def keyText? (key : List Char) (plain : Bool) : Option String :=
  if plain then plainKey? key else some (String.ofList key)

/-- Read a value in brackets or quotes, taking more lines until it is closed. -/
def closed? : Nat → List Char → List Line → Option (Datum × List Line)
  | 0, _, _ => none
  | fuel + 1, s, lines =>
    match flow? (2 * s.length + 2) s with
    | some (datum, rest) =>
      if (trim (cutComment [' '] rest)).isEmpty then some (datum, lines) else none
    | none =>
      match lines with
      | line :: lines => closed? fuel (s ++ ' ' :: cutComment [] line.text) lines
      | [] => none

def moreLines (parent : Int) : List Line → List Char × Bool × List Line
  | [] => ([], true, [])
  | line :: lines =>
    if line.isEmpty then
      let (text, sound, rest) := moreLines parent lines
      if text.isEmpty then ([], sound, line :: lines) else (text, sound, rest)
    else if parent < (line.indent : Int) then
      let (text, sound, rest) := moreLines parent lines
      (' ' :: trim (cutComment [] line.text) ++ text, sound && (keyOf? line.text).isNone, rest)
    else ([], true, line :: lines)

def inline? (parent : Int) (s : List Char) (lines : List Line) : Option (Datum × List Line) :=
  match s with
  | c :: _ =>
    if c = '|' ∨ c = '>' then
      let (text, rest) := textBlock parent s lines
      some (.text text, rest)
    else if c ∈ ['"', '\'', '[', '{'] then closed? (lines.length + 1) s lines
    else if startsPlain s then
      let plain := trim (cutComment [] s)
      let (more, sound, rest) := moreLines parent lines
      if sound ∧ (cutKey [] plain).isNone then (scalar? (plain ++ more)).map (·, rest) else none
    else none
  | [] => none

mutual

/-- Read the block that starts at an indentation or deeper; there may be none. -/
def node? : Nat → Int → List Line → Option (Datum × List Line)
  | 0, _, _ => none
  | fuel + 1, least, lines =>
    match skipEmpty lines with
    | [] => some (.nothing, [])
    | line :: rest =>
      if (line.indent : Int) < least then some (.nothing, line :: rest)
      else if line.text.head? = some '\t' then none
      else if startsItem line.text then do
        let (items, rest) ← items? fuel line.indent (line :: rest)
        return (.list items, rest)
      else if (keyOf? line.text).isSome then do
        let (entries, rest) ← entries? fuel line.indent [] (line :: rest)
        return (.table entries, rest)
      else inline? (least - 1) line.text rest

def items? : Nat → Nat → List Line → Option (List Datum × List Line)
  | 0, _, _ => none
  | fuel + 1, indent, lines =>
    match skipEmpty lines with
    | [] => some ([], [])
    | line :: rest =>
      if line.indent < indent ∨ (line.indent = indent ∧ ¬ startsItem line.text) then
        some ([], line :: rest)
      else if line.indent ≠ indent then none
      else do
        let text := line.text.drop 1
        let inner := text.dropWhile (· = ' ')
        let rest : List Line := ⟨indent + 1 + (text.length - inner.length), inner⟩ :: rest
        let (item, rest) ← node? fuel (indent + 1) rest
        let (items, rest) ← items? fuel indent rest
        return (item :: items, rest)

def entries? : Nat → Nat → List (String × Datum) → List Line →
    Option (List (String × Datum) × List Line)
  | 0, _, _, _ => none
  | fuel + 1, indent, entries, lines =>
    match skipEmpty lines with
    | [] => some (entries, [])
    | line :: rest =>
      if line.indent < indent then some (entries, line :: rest)
      else if line.indent ≠ indent then none
      else do
        let (key, plain, after) ← keyOf? line.text
        let key ← keyText? key plain
        let text := trim (cutComment [' '] after)
        let (datum, rest) ←
          if text.isEmpty then
            match skipEmpty rest with
            | next :: _ =>
              if next.indent = indent ∧ startsItem next.text then do
                let (items, rest) ← items? fuel indent rest
                pure (Datum.list items, rest)
              else node? fuel (indent + 1) rest
            | [] => some (Datum.nothing, [])
          else inline? indent (trim after) rest
        entries? fuel indent (← addEntry? entries key datum) rest

end

/-! ## Documents -/

/-- Whether a line is a mark of three characters, alone or in front of a blank. -/
def isMark (mark : List Char) (l : Line) : Bool :=
  l.indent = 0 && l.text.take 3 = mark && l.text[3]?.all (· = ' ')

def document? (lines : List Line) : Option (List Line) :=
  let dashes := ['-', '-', '-']
  let body := (skipEmpty lines).dropWhile fun l => l.indent = 0 && l.text.head? = some '%'
  let body : List Line :=
    match skipEmpty body with
    | line :: rest =>
      if isMark dashes line then
        let after := (line.text.drop 3).dropWhile (· = ' ')
        if after.isEmpty then rest else ⟨line.text.length - after.length, after⟩ :: rest
      else line :: rest
    | [] => []
  let inner := body.takeWhile fun l => !isMark dashes l && !isMark ['.', '.', '.'] l
  match body.drop inner.length with
  | [] => some inner
  | line :: rest =>
    if isMark ['.', '.', '.'] line ∧ (skipEmpty rest).isEmpty then some inner else none

/-- The document in a text.  A text without any is an empty table. -/
def read? (text : String) : Option Datum := do
  let all := (Text.split '\n' text.toList).map Line.ofChars
  let lines ← document? all
  if (skipEmpty all).isEmpty then return .table []
  let (datum, rest) ← node? (2 * text.length + 2) 0 lines
  if (skipEmpty rest).isEmpty then return datum else none

end LiveRuns.Settings.Yaml
