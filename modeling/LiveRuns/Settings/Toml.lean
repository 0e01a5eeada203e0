import LiveRuns.Decimal.Integer
import LiveRuns.Settings.Datum
import LiveRuns.Timestamp.Basic

/-!
Reading TOML.

A document is a sequence of lines, each of which opens a table or sets a key in the table open.
`Toml.read?` gives the root table, or nothing where a line breaks the grammar or a key or table is
defined twice.  Dates and times are kept as text in their usual form.
-/

namespace LiveRuns.Settings.Toml

/-! ## Tables under construction -/

/-- How a table came to be: on the way to another one, by its header, or by a dotted key. -/
inductive Origin where
  | implied
  | header
  | dotted
deriving DecidableEq, Repr

/-- What a key stands for while a document is read.  Of a list of tables the last comes first. -/
inductive Node where
  | value (datum : Datum)
  | table (origin : Origin) (entries : List (String × Node))
  | tables (tables : List (List (String × Node)))

abbrev Entries := List (String × Node)

def alter (key : String) (f : Option Node → Option Node) : Entries → Option Entries
  | [] => (f none).map fun node => [(key, node)]
  | (k, node) :: rest =>
    if k = key then (f (some node)).map fun node => (k, node) :: rest
    else (alter key f rest).map ((k, node) :: ·)

/-- Go down into a table, or into the last one of a list of tables. -/
def within (f : Entries → Option Entries) : Node → Option Node
  | .table origin entries => (f entries).map (.table origin)
  | .tables (last :: before) => (f last).map fun last => .tables (last :: before)
  | _ => none

/-- Open the table of a header, with `final` at the last key. -/
def openAt (final : Option Node → Option Node) : List String → Entries → Option Entries
  | [], _ => none
  | [key], entries => alter key final entries
  | key :: keys, entries =>
    alter key (fun
      | none => (openAt final keys []).map (.table .implied)
      | some node => within (openAt final keys) node) entries

/-- What `[header]` does to its last key: the table must not have been opened. -/
def openTable : Option Node → Option Node
  | none => some (.table .header [])
  | some (.table .implied entries) => some (.table .header entries)
  | _ => none

/-- What `[[header]]` does to its last key. -/
def openNext : Option Node → Option Node
  | none => some (.tables [[]])
  | some (.tables tables) => some (.tables ([] :: tables))
  | _ => none

def putDotted (datum : Datum) : List String → Entries → Option Entries
  | [], _ => none
  | [key], entries => alter key (fun node => if node.isNone then some (.value datum) else none) entries
  | key :: keys, entries =>
    alter key (fun
      | none => (putDotted datum keys []).map (.table .dotted)
      | some (.table .header _) => none
      | some (.table origin entries) => (putDotted datum keys entries).map (.table origin)
      | _ => none) entries

def putWithin (datum : Datum) (keys : List String) : List String → Entries → Option Entries
  | [], entries => putDotted datum keys entries
  | key :: path, entries =>
    alter key (fun node => node.bind (within (putWithin datum keys path))) entries

mutual

def Node.datum : Node → Datum
  | .value datum => datum
  | .table _ entries => .table (datumEntries entries)
  | .tables tables => .list (datumTables [] tables)

def datumEntries : Entries → List (String × Datum)
  | [] => []
  | (key, node) :: entries => (key, node.datum) :: datumEntries entries

/-- The data of a list of tables, put in front of those given. -/
def datumTables (after : List Datum) : List Entries → List Datum
  | [] => after
  | entries :: tables => datumTables (.table (datumEntries entries) :: after) tables

end

/-! ## Blanks and strings -/

def skipSpaces (s : List Char) : List Char := s.dropWhile fun c => c = ' ' || c = '\t'

def skipComment : List Char → List Char
  | '#' :: rest => rest.dropWhile (· ≠ '\n')
  | s => s

def skipLines : Nat → List Char → List Char
  | 0, s => s
  | fuel + 1, s =>
    match skipComment (skipSpaces s) with
    | '\n' :: rest => skipLines fuel rest
    | '\r' :: '\n' :: rest => skipLines fuel rest
    | s => s

/-- Take the end of a line: a comment may stand before it. -/
def endLine? (s : List Char) : Option (List Char) :=
  match skipComment (skipSpaces s) with
  | [] => some []
  | '\n' :: rest => some rest
  | '\r' :: '\n' :: rest => some rest
  | _ => none

def codeChar? (digits : List Char) : Option Char :=
  (Decimal.naturalIn? 16 digits).bind fun n =>
    if n < 0xD800 ∨ (0xDFFF < n ∧ n < 0x110000) then some (Char.ofNat n) else none

def escape? : List Char → Option (Char × List Char)
  | 'b' :: rest => some ('\x08', rest)
  | 't' :: rest => some ('\t', rest)
  | 'n' :: rest => some ('\n', rest)
  | 'f' :: rest => some ('\x0c', rest)
  | 'r' :: rest => some ('\r', rest)
  | '"' :: rest => some ('"', rest)
  | '\\' :: rest => some ('\\', rest)
  | 'u' :: rest =>
    if rest.length < 4 then none else (codeChar? (rest.take 4)).map (·, rest.drop 4)
  | 'U' :: rest =>
    if rest.length < 8 then none else (codeChar? (rest.take 8)).map (·, rest.drop 8)
  | _ => none

def isPlain (c : Char) : Bool := c = '\t' || (' ' ≤ c && c ≠ '\x7f')

def basic? : Nat → List Char → List Char → Option (String × List Char)
  | 0, _, _ => none
  | fuel + 1, seen, s =>
    match s with
    | '"' :: rest => some (String.ofList seen.reverse, rest)
    | '\\' :: rest => (escape? rest).bind fun (c, rest) => basic? fuel (c :: seen) rest
    | c :: rest => if isPlain c then basic? fuel (c :: seen) rest else none
    | [] => none

def literal? (s : List Char) : Option (String × List Char) :=
  let text := s.takeWhile fun c => c ≠ '\'' && isPlain c
  match s.drop text.length with
  | '\'' :: rest => some (String.ofList text, rest)
  | _ => none

def dropFirstLineEnd : List Char → List Char
  | '\n' :: rest => rest
  | '\r' :: '\n' :: rest => rest
  | s => s

/-- Drop the blank rest of a line and all blanks after it, if a backslash stands at its end. -/
def continuation? (s : List Char) : Option (List Char) :=
  match dropFirstLineEnd (skipSpaces s) with
  | rest =>
    if rest.length < (skipSpaces s).length then
      some (rest.dropWhile fun c => c = ' ' || c = '\t' || c = '\n' || c = '\r')
    else none

/-- Read the inside of a multi-line string; only a basic one has escapes. -/
def multiline? (quote : Char) : Nat → List Char → List Char → Option (String × List Char)
  | 0, _, _ => none
  | fuel + 1, seen, s =>
    match s with
    | [] => none
    | c :: rest =>
      if s.take 3 = [quote, quote, quote] ∧ s[3]? ≠ some quote then
        some (String.ofList seen.reverse, s.drop 3)
      else if c = '\\' ∧ quote = '"' then
        match continuation? rest with
        | some rest => multiline? quote fuel seen rest
        | none => (escape? rest).bind fun (c, rest) => multiline? quote fuel (c :: seen) rest
      else if isPlain c ∨ c = '\n' then multiline? quote fuel (c :: seen) rest
      else
        match s with
        | '\r' :: '\n' :: rest => multiline? quote fuel ('\n' :: '\r' :: seen) rest
        | _ => none

def quoted? : List Char → Option (String × List Char)
  | '"' :: rest => basic? (rest.length + 1) [] rest
  | '\'' :: rest => literal? rest
  | _ => none

def string? (s : List Char) : Option (String × List Char) :=
  match s with
  | '"' :: '"' :: '"' :: rest =>
    multiline? '"' (rest.length + 1) [] (dropFirstLineEnd rest)
  | '\'' :: '\'' :: '\'' :: rest =>
    multiline? '\'' (rest.length + 1) [] (dropFirstLineEnd rest)
  | _ => quoted? s

/-! ## Keys -/

def isBare (c : Char) : Bool := c.isAlphanum || c = '_' || c = '-'

def key? (s : List Char) : Option (String × List Char) :=
  match s with
  | c :: _ =>
    if c = '"' ∨ c = '\'' then quoted? s
    else
      let key := s.takeWhile isBare
      if key.isEmpty then none else some (String.ofList key, s.drop key.length)
  | [] => none

def keys? : Nat → List Char → Option (List String × List Char)
  | 0, _ => none
  | fuel + 1, s => do
    let (key, rest) ← key? (skipSpaces s)
    match skipSpaces rest with
    | '.' :: rest =>
      let (keys, rest) ← keys? fuel rest
      return (key :: keys, rest)
    | rest => return ([key], rest)

/-! ## Numbers and times -/

def plainDigits? (isDigit : Char → Bool) (s : List Char) : Option (List Char) :=
  let rec go (needDigit : Bool) : List Char → Option (List Char)
    | [] => if needDigit then none else some []
    | c :: rest =>
      if c = '_' then if needDigit then none else go true rest
      else if isDigit c then (go false rest).map (c :: ·)
      else none
  go true s

def wholeDigits? (s : List Char) : Option (List Char) :=
  (plainDigits? Char.isDigit s).filter fun digits => digits.length = 1 || digits.head? ≠ some '0'

def signed (s : List Char) : List Char × List Char :=
  match s with
  | '-' :: rest => (['-'], rest)
  | '+' :: rest => ([], rest)
  | _ => ([], s)

def integer? (s : List Char) : Option Datum :=
  let based (base : Nat) (digits : List Char) : Option Datum :=
    ((plainDigits? (fun c => (Text.digit? base c).isSome) digits).bind
      (Decimal.integer? base)).map .integer
  match s with
  | '0' :: 'x' :: digits => based 16 digits
  | '0' :: 'o' :: digits => based 8 digits
  | '0' :: 'b' :: digits => based 2 digits
  | _ =>
    let (sign, digits) := signed s
    ((wholeDigits? digits).bind fun digits => Decimal.integer? 10 (sign ++ digits)).map .integer

/-- A number that is no integer.  One that is too large for a double is none. -/
def float? (s : List Char) : Option Datum := do
  let (sign, digits) := signed s
  if digits = "inf".toList ∨ digits = "nan".toList then
    return .float (← Decimal.parse? (sign ++ digits))
  let mantissa := digits.takeWhile fun c => c ≠ 'e' && c ≠ 'E'
  let exponent ← match digits.drop mantissa.length with
    | [] => some []
    | _ :: rest =>
      let (sign, digits) := signed rest
      (plainDigits? Char.isDigit digits).map fun digits => 'e' :: (sign ++ digits)
  let whole ← wholeDigits? (mantissa.takeWhile (· ≠ '.'))
  let fraction ← match mantissa.dropWhile (· ≠ '.') with
    | [] => some []
    | _ :: rest => (plainDigits? Char.isDigit rest).map ('.' :: ·)
  if fraction.isEmpty ∧ exponent.isEmpty then none
  let bits ← Decimal.parse? (sign ++ whole ++ fraction ++ exponent)
  if Decimal.isInfinite bits then none else return .float bits

def twoDigits? (bound : Nat) : List Char → Option (List Char × List Char)
  | a :: b :: rest =>
    if a.isDigit ∧ b.isDigit ∧ Text.decimalValue [a, b] ≤ bound then some ([a, b], rest) else none
  | _ => none

def date? (s : List Char) : Option (List Char × List Char) :=
  match s with
  | y₁ :: y₂ :: y₃ :: y₄ :: '-' :: m₁ :: m₂ :: '-' :: d₁ :: d₂ :: rest =>
    let year := [y₁, y₂, y₃, y₄]
    let month := [m₁, m₂]
    let day := [d₁, d₂]
    if (year ++ month ++ day).all Char.isDigit ∧
        Timestamp.IsDate (Text.decimalValue year) (Text.decimalValue month)
          (Text.decimalValue day) then
      some (year ++ '-' :: month ++ '-' :: day, rest)
    else none
  | _ => none

/-- The fraction of a second, without final zeros and without digits after the ninth. -/
def fraction? : List Char → Option (List Char × List Char)
  | '.' :: rest =>
    let digits := rest.takeWhile Char.isDigit
    let kept := Decimal.trimZeros (digits.take 9)
    if digits.isEmpty then none
    else some (if kept.isEmpty then [] else '.' :: kept, rest.drop digits.length)
  | s => some ([], s)

def time? (s : List Char) : Option (List Char × List Char) := do
  let (hour, s) ← twoDigits? 23 s
  let ':' :: s := s | none
  let (minute, s) ← twoDigits? 59 s
  let ':' :: s := s | none
  let (second, s) ← twoDigits? 60 s
  let (fraction, s) ← fraction? s
  return (hour ++ ':' :: minute ++ ':' :: second ++ fraction, s)

def offset? (s : List Char) : Option (List Char) :=
  match s with
  | [] => some []
  | ['Z'] => some ['Z']
  | ['z'] => some ['Z']
  | sign :: rest => do
    if sign ≠ '+' ∧ sign ≠ '-' then none
    let (hour, rest) ← twoDigits? 23 rest
    let ':' :: rest := rest | none
    let (minute, []) ← twoDigits? 59 rest | none
    return sign :: hour ++ ':' :: minute

def moment? (s : List Char) : Option Datum :=
  (match date? s with
    | some (date, []) => some date
    | some (date, separator :: rest) => do
      if separator ≠ 'T' ∧ separator ≠ 't' ∧ separator ≠ ' ' then none
      let (time, rest) ← time? rest
      let offset ← offset? rest
      return date ++ 'T' :: time ++ offset
    | none => do
      let (time, []) ← time? s | none
      return time).map fun text => .text (String.ofList text)

/-- A value without quotes or brackets in front of a text.  A date may be followed by a space and
a time. -/
def word? (s : List Char) : Option (Datum × List Char) :=
  let isWordChar (c : Char) : Bool := c.isAlphanum || c = '+' || c = '-' || c = '_' || c = '.' || c = ':'
  let first := s.takeWhile isWordChar
  let word :=
    match date? first, s.drop first.length with
    | some (_, []), ' ' :: c :: rest =>
      if c.isDigit then first ++ ' ' :: (c :: rest).takeWhile isWordChar else first
    | _, _ => first
  let rest := s.drop word.length
  if word = "true".toList then some (.bool true, rest)
  else if word = "false".toList then some (.bool false, rest)
  else (((integer? word).or (float? word)).or (moment? word)).map (·, rest)

/-! ## Values -/

mutual

/-- Read a value.  The fuel bounds the depth and the number of items. -/
def value? : Nat → List Char → Option (Datum × List Char)
  | 0, _ => none
  | fuel + 1, s =>
    match s with
    | '[' :: rest => do
      let (items, rest) ← items? fuel rest
      return (.list items, rest)
    | '{' :: rest =>
      match skipSpaces rest with
      | '}' :: rest => some (.table [], rest)
      | rest => do
        let (entries, rest) ← pairs? fuel [] rest
        return (.table (datumEntries entries), rest)
    | '"' :: _ => (string? s).map fun (text, rest) => (.text text, rest)
    | '\'' :: _ => (string? s).map fun (text, rest) => (.text text, rest)
    | _ => word? s

def items? : Nat → List Char → Option (List Datum × List Char)
  | 0, _ => none
  | fuel + 1, s =>
    match skipLines s.length s with
    | ']' :: rest => some ([], rest)
    | s => do
      let (item, rest) ← value? fuel s
      match skipLines rest.length rest with
      | ']' :: rest => return ([item], rest)
      | ',' :: rest =>
        let (items, rest) ← items? fuel rest
        return (item :: items, rest)
      | _ => none

def pairs? : Nat → Entries → List Char → Option (Entries × List Char)
  | 0, _, _ => none
  | fuel + 1, entries, s => do
    let (keys, rest) ← keys? s.length s
    let '=' :: rest := skipSpaces rest | none
    let (datum, rest) ← value? fuel (skipSpaces rest)
    let entries ← putDotted datum keys entries
    match skipSpaces rest with
    | '}' :: rest => return (entries, rest)
    | ',' :: rest => pairs? fuel entries rest
    | _ => none

end

/-! ## Documents -/

/-- Read the lines of a document.  `path` is the header of the table open. -/
def lines? : Nat → List String → Entries → List Char → Option Entries
  | 0, _, _, _ => none
  | fuel + 1, path, entries, s =>
    match skipLines s.length s with
    | [] => some entries
    | '[' :: '[' :: rest => do
      let (keys, rest) ← keys? rest.length rest
      let ']' :: ']' :: rest := skipSpaces rest | none
      lines? fuel keys (← openAt openNext keys entries) (← endLine? rest)
    | '[' :: rest => do
      let (keys, rest) ← keys? rest.length rest
      let ']' :: rest := skipSpaces rest | none
      lines? fuel keys (← openAt openTable keys entries) (← endLine? rest)
    | s => do
      let (keys, rest) ← keys? s.length s
      let '=' :: rest := skipSpaces rest | none
      let (datum, rest) ← value? (rest.length + 1) (skipSpaces rest)
      lines? fuel path (← putWithin datum keys path entries) (← endLine? rest)

def read? (text : String) : Option Datum :=
  let s := text.toList
  (lines? (s.length + 1) [] [] s).map fun entries => .table (datumEntries entries)

end LiveRuns.Settings.Toml
