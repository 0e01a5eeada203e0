import LiveRuns.Utf8.Lossy

/-!
Frames of an event stream.

A frame is a group of lines of the form `field: value`.  The `data` lines are joined by line ends,
of the `event` and `id` lines the last counts, and comments and other fields are passed over.  A
group without a `data` line is no frame.
-/

namespace LiveRuns.EventStream

def lf : UInt8 := 10

def cr : UInt8 := 13

structure Frame where
  event : Option String
  id : Option String
  data : String
deriving DecidableEq, Repr, Inhabited

/-- Whether a frame has the default type: none, the empty one or `message`. -/
def Frame.isMessage (f : Frame) : Bool :=
  match f.event with
  | none => true
  | some event => event = "" || event = "message"

theorem Frame.isMessage_iff {f : Frame} :
    f.isMessage = true ↔ f.event ∈ [none, some "", some "message"] := by
  unfold isMessage
  cases f.event <;> simp

/-- The lines of a text, each ended by a line feed; what follows the last line feed is left out. -/
def splitLines (lines : List (List Char)) (line : List Char) : List Char → List (List Char)
  | [] => lines.reverse
  | '\n' :: rest => splitLines (line.reverse :: lines) [] rest
  | c :: rest => splitLines lines (c :: line) rest

/-- The field and the value of a line: the value starts after the first colon and one space after
it, and is empty if there is no colon. -/
def splitField (line : List Char) : List Char × List Char :=
  let field := line.takeWhile (· ≠ ':')
  match line.drop field.length with
  | ':' :: ' ' :: value => (field, value)
  | _ :: value => (field, value)
  | [] => (field, [])

/-- What the lines of a group have said so far; the data lines stand last first. -/
structure Fields where
  event : Option (List Char) := none
  id : Option (List Char) := none
  data : List (List Char) := []

/-- Take one line.  The empty line and comments have no field of a known name. -/
def Fields.add (fields : Fields) (line : List Char) : Fields :=
  let (field, value) := splitField line
  if field = ['d', 'a', 't', 'a'] then { fields with data := value :: fields.data }
  else if field = ['e', 'v', 'e', 'n', 't'] then { fields with event := some value }
  else if field = ['i', 'd'] then { fields with id := some value }
  else fields

def Fields.finish (fields : Fields) : Option Frame :=
  if fields.data.isEmpty then none
  else some
    { event := fields.event.map String.ofList
      id := fields.id.map String.ofList
      data := String.ofList (['\n'].intercalate fields.data.reverse) }

def Frame.ofLines (lines : List (List Char)) : Option Frame :=
  (lines.foldl Fields.add {}).finish

def Frame.ofBytes (bytes : List UInt8) : Option Frame :=
  Frame.ofLines (splitLines [] [] (Utf8.decode bytes))

end LiveRuns.EventStream
