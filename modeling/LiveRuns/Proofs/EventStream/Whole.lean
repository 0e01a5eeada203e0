import LiveRuns.EventStream.Frame
import LiveRuns.Proofs.Utf8.Ascii
import Mathlib.Data.List.Basic

/-!
An event stream read as a whole.

`readWhole` says what the frames of a stream are without saying how a stream is cut as it comes in:
the bytes are decoded, the text is split into lines, the lines into groups, and each group is read
for itself.  A line ends with a carriage return, a line feed, or both in this order; a group ends
with an empty line; what has no end is left out.

Lines and groups are defined for any kind of letter, so that bytes can be split as well as text.
The second half of the file shows that the frame of a group is the one that `Frame.ofLines` gathers
line by line, and that empty lines in a group do not count.
-/

namespace LiveRuns.EventStream

/-! ## Lines and groups -/

section

variable {α : Type} [DecidableEq α]

/-- The lines that end in a text, after the letters of an unfinished line, last first.  A carriage
return right before a line feed is passed over, so that the two end one line. -/
def linesFrom (cr lf : α) (line : List α) : List α → List (List α)
  | [] => []
  | c :: rest =>
    if c = cr ∧ rest.head? = some lf then linesFrom cr lf line rest
    else if c = cr ∨ c = lf then line.reverse :: linesFrom cr lf [] rest
    else linesFrom cr lf (c :: line) rest

/-- The groups that end in a list of lines, after the lines of an unfinished group, last first. -/
def groupsFrom (group : List (List α)) : List (List α) → List (List (List α))
  | [] => []
  | line :: lines =>
    if line = [] then group.reverse :: groupsFrom [] lines else groupsFrom (line :: group) lines

end

/-- The field and the value of a line, split at the first colon; one space in front of the value is
left out, and without a colon the value is empty.  A line that starts with a colon has neither. -/
def field? (line : List Char) : Option (List Char × List Char) :=
  if line.head? = some ':' then none
  else
    let field := line.takeWhile (· ≠ ':')
    let value := (line.dropWhile (· ≠ ':')).tail
    some (field, if value.head? = some ' ' then value.tail else value)

def value? (name : String) (line : List Char) : Option (List Char) :=
  (field? line).bind fun (field, value) => if field = name.toList then some value else none

def valuesOf (name : String) (group : List (List Char)) : List (List Char) :=
  group.filterMap (value? name)

/-- The frame of a group: its data joined by line feeds, its last event and its last id; none if
it has no data. -/
def Frame.ofGroup (group : List (List Char)) : Option Frame :=
  if valuesOf "data" group = [] then none
  else some
    { event := (valuesOf "event" group).getLast?.map String.ofList
      id := (valuesOf "id" group).getLast?.map String.ofList
      data := String.ofList (['\n'].intercalate (valuesOf "data" group)) }

def readWhole (bytes : List UInt8) : List Frame :=
  (groupsFrom [] (linesFrom '\r' '\n' [] (Utf8.decode bytes))).filterMap Frame.ofGroup

/-! ## The frame of a group -/

theorem drop_takeWhile_colon (line : List Char) :
    line.drop (line.takeWhile (· ≠ ':')).length = line.dropWhile (· ≠ ':') := by
  conv_lhs => rw [← List.takeWhile_append_dropWhile (p := (· ≠ ':')) (l := line)]
  rw [List.drop_left']
  simp

/-- A line that does not start with a colon is split as its field and value say. -/
theorem field?_eq_splitField {line : List Char} (h : line.head? ≠ some ':') :
    field? line = some (splitField line) := by
  rw [field?, if_neg h, splitField, drop_takeWhile_colon]
  cases hrest : line.dropWhile (· ≠ ':') with
  | nil => rfl
  | cons c value =>
    have hc : c = ':' := by
      have hnot := List.head?_dropWhile_not (· ≠ ':') line
      rw [hrest] at hnot
      simpa using hnot
    subst hc
    cases value with
    | nil => rfl
    | cons d value =>
      by_cases hd : d = ' '
      · subst hd
        rfl
      · simp [hd]

theorem splitField_comment {line : List Char} (h : line.head? = some ':') :
    (splitField line).1 = [] := by
  obtain ⟨rest, rfl⟩ := List.head?_eq_some_iff.mp h
  simp only [splitField, List.takeWhile_cons, ne_eq, not_true_eq_false, decide_false,
    Bool.false_eq_true, if_false, List.length_nil, List.drop_zero]
  split <;> rfl

theorem value?_eq {name : String} (hname : name.toList ≠ []) (line : List Char) :
    value? name line =
      if (splitField line).1 = name.toList then some (splitField line).2 else none := by
  by_cases h : line.head? = some ':'
  · rw [splitField_comment h, if_neg (Ne.symm hname), value?, field?, if_pos h]
    rfl
  · rw [value?, field?_eq_splitField h]
    rfl

/-- A line tells a group its data, its event, its id or nothing. -/
theorem Fields.add_eq (fields : Fields) (line : List Char) :
    fields.add line =
      { event := (value? "event" line).or fields.event
        id := (value? "id" line).or fields.id
        data := (value? "data" line).toList ++ fields.data } := by
  rw [value?_eq (by decide), value?_eq (by decide), value?_eq (by decide)]
  rcases hsplit : splitField line with ⟨field, value⟩
  simp only [Fields.add, hsplit]
  by_cases hdata : field = ['d', 'a', 't', 'a']
  · subst hdata
    rfl
  · by_cases hevent : field = ['e', 'v', 'e', 'n', 't']
    · subst hevent
      rfl
    · by_cases hid : field = ['i', 'd']
      · subst hid
        rfl
      · simp [hdata, hevent, hid]

/-- What the lines of a group have told: the last event, the last id, and all data. -/
theorem Fields.foldl_add (lines : List (List Char)) :
    lines.foldl Fields.add {} =
      { event := (valuesOf "event" lines).getLast?
        id := (valuesOf "id" lines).getLast?
        data := (valuesOf "data" lines).reverse } := by
  induction lines using List.reverseRecOn with
  | nil => rfl
  | append_singleton lines line ih =>
    rw [List.foldl_append, List.foldl_cons, List.foldl_nil, ih, Fields.add_eq]
    have hlast : ∀ name, (valuesOf name (lines ++ [line])).getLast? =
        (value? name line).or (valuesOf name lines).getLast? := by
      intro name
      cases hvalue : value? name line <;> simp [valuesOf, hvalue]
    rw [hlast, hlast]
    cases hvalue : value? "data" line <;> simp [valuesOf, hvalue]

theorem Frame.ofLines_eq_ofGroup (lines : List (List Char)) :
    Frame.ofLines lines = Frame.ofGroup lines := by
  simp only [Frame.ofLines, Fields.foldl_add, Fields.finish, Frame.ofGroup,
    List.isEmpty_reverse, List.isEmpty_iff, List.reverse_reverse]

theorem value?_nil {name : String} (hname : name.toList ≠ []) : value? name [] = none := by
  rw [value?_eq hname]
  exact if_neg (Ne.symm hname)

/-- Empty lines in a group do not count. -/
theorem Frame.ofGroup_filter (lines : List (List Char)) :
    Frame.ofGroup (lines.filter (· ≠ [])) = Frame.ofGroup lines := by
  have hvalues : ∀ name : String, name.toList ≠ [] →
      valuesOf name (lines.filter (· ≠ [])) = valuesOf name lines := by
    intro name hname
    rw [valuesOf, List.filterMap_filter, valuesOf]
    refine List.filterMap_congr (fun line _ => ?_)
    by_cases h : line = []
    · rw [h, value?_nil hname]
      rfl
    · simp [h]
  rw [Frame.ofGroup, hvalues "data" (by decide), hvalues "event" (by decide),
    hvalues "id" (by decide), Frame.ofGroup]

end LiveRuns.EventStream
