import LiveRuns.Utf8.Lossy

/-!
The text of a body in the character set that its content type names.

A byte order mark decides before the content type does, and is not part of the text.  Bytes that
form no character are replaced.  The sets are UTF-8, which is also taken for unknown names, UTF-16
in both byte orders, and Windows-1252, which stands in for the older one-byte sets.
-/

namespace LiveRuns.Http

inductive Charset where
  | utf8
  | utf16 (bigEndian : Bool)
  | windows1252
deriving DecidableEq, Repr

/-- The names of the one-byte sets that are read as Windows-1252. -/
def windows1252Names : List String :=
  ["windows-1252", "cp1252", "x-cp1252", "iso-8859-1", "iso8859-1", "iso88591", "iso_8859-1",
    "iso_8859-1:1987", "iso-ir-100", "l1", "latin1", "csisolatin1", "cp819", "ibm819", "ascii",
    "us-ascii", "ansi_x3.4-1968"]

def Charset.ofName (name : String) : Charset :=
  if name ∈ windows1252Names then .windows1252
  else if name = "utf-16be" ∨ name = "unicodefffe" then .utf16 true
  else if name ∈ ["utf-16", "utf-16le", "ucs-2", "unicode", "csunicode", "unicodefeff",
    "iso-10646-ucs-2"] then .utf16 false
  else .utf8

def cutAt (mark : Char) (s : List Char) : List Char × List Char :=
  let front := s.takeWhile (· ≠ mark)
  (front, s.drop (front.length + 1))

def bareValue (s : List Char) : List Char :=
  let skip (c : Char) : Bool := c = ' ' || c = '\t' || c = '"'
  ((s.dropWhile skip).reverse.dropWhile skip).reverse

def charsetName? : Nat → List Char → Option String
  | 0, _ => none
  | fuel + 1, s =>
    if s.isEmpty then none
    else
      let (parameter, rest) := cutAt ';' s
      let (name, value) := cutAt '=' parameter
      if (bareValue name).map Char.toLower = "charset".toList then
        some (String.ofList ((bareValue value).map Char.toLower))
      else charsetName? fuel rest

def Charset.ofContentType (contentType : String) : Charset :=
  let parameters := (cutAt ';' contentType.toList).2
  ((charsetName? (parameters.length + 1) parameters).map Charset.ofName).getD .utf8

/-- The set and the bytes after a byte order mark, or the set given and all bytes. -/
def sniff (given : Charset) (bytes : List UInt8) : Charset × List UInt8 :=
  match bytes with
  | 0xEF :: 0xBB :: 0xBF :: rest => (.utf8, rest)
  | 0xFE :: 0xFF :: rest => (.utf16 true, rest)
  | 0xFF :: 0xFE :: rest => (.utf16 false, rest)
  | _ => (given, bytes)

/-- What the bytes from `80` to `9F` mean in Windows-1252. -/
def windows1252High : List Nat :=
  [0x20AC, 0x81, 0x201A, 0x192, 0x201E, 0x2026, 0x2020, 0x2021, 0x2C6, 0x2030, 0x160, 0x2039,
    0x152, 0x8D, 0x17D, 0x8F, 0x90, 0x2018, 0x2019, 0x201C, 0x201D, 0x2022, 0x2013, 0x2014, 0x2DC,
    0x2122, 0x161, 0x203A, 0x153, 0x9D, 0x17E, 0x178]

def windows1252Char (b : UInt8) : Char :=
  let n := b.toNat
  if n < 0x80 ∨ 0xA0 ≤ n then Char.ofNat n
  else Char.ofNat ((windows1252High[n - 0x80]?).getD n)

/-- The 16-bit units of some bytes; a last odd byte is no unit. -/
def units16 (bigEndian : Bool) : List UInt8 → List Nat
  | a :: b :: rest =>
    (if bigEndian then a.toNat * 256 + b.toNat else b.toNat * 256 + a.toNat) ::
      units16 bigEndian rest
  | _ => []

/-- The text of 16-bit units; lone surrogates are replaced. -/
def decodeUnits : List Nat → List Char
  | [] => []
  | a :: rest =>
    if 0xD800 ≤ a ∧ a < 0xDC00 then
      match rest with
      | b :: rest =>
        if 0xDC00 ≤ b ∧ b < 0xE000 then
          Char.ofNat (0x10000 + (a - 0xD800) * 0x400 + (b - 0xDC00)) :: decodeUnits rest
        else Utf8.replacement :: decodeUnits (b :: rest)
      | [] => [Utf8.replacement]
    else if 0xDC00 ≤ a ∧ a < 0xE000 then Utf8.replacement :: decodeUnits rest
    else Char.ofNat a :: decodeUnits rest

def Charset.decode (given : Charset) (bytes : List UInt8) : String :=
  let (charset, bytes) := sniff given bytes
  String.ofList <| match charset with
    | .utf8 => Utf8.decode bytes
    | .windows1252 => bytes.map windows1252Char
    | .utf16 bigEndian =>
      decodeUnits (units16 bigEndian bytes) ++
        if bytes.length % 2 = 1 then [Utf8.replacement] else []

end LiveRuns.Http
