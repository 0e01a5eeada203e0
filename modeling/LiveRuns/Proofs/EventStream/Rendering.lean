import LiveRuns.Proofs.EventStream.Whole
import LiveRuns.Text.Split

/-!
Ways to write a frame.

A frame may be written in many ways: its fields may come in any order as long as its data stays in
order, comments and fields of other names may stand between them, and the lines may have any of the
three ends.  `Rendering` is one such way.  Every frame can be written whose event and id have no
ends of lines and whose data has no carriage return, `exists_rendering`; and the lines of a
rendering say what the frame is, `Rendering.ofGroup_eq`, so nothing is lost by writing it.
-/

namespace LiveRuns.EventStream

/-! ## Ways to write a frame -/

def frameFields : List String := ["event", "id", "data"]

inductive Line where
  | known (name value : String)
  | comment (text : String)
  /-- A field of another name, with or without a colon. -/
  | other (name : String) (value : Option String)

namespace Line

def text : Line → String
  | known name value => name ++ ": " ++ value
  | comment text => ":" ++ text
  | other name none => name
  | other name (some value) => name ++ ":" ++ value

def value? (name : String) : Line → Option String
  | known field value => if field = name then some value else none
  | comment _ | other _ _ => none

def Named : Line → Prop
  | known name _ => name ∈ frameFields
  | comment _ => True
  | other name _ => name ≠ "" ∧ ':' ∉ name.toList ∧ name ∉ frameFields

/-- A line of its kind, without an end of a line in it. -/
structure Proper (line : Line) : Prop where
  named : line.Named
  no_lf : '\n' ∉ line.text.toList
  no_cr : '\r' ∉ line.text.toList

instance : DecidablePred Named
  | known name _ => inferInstanceAs (Decidable (name ∈ frameFields))
  | comment _ => isTrue trivial
  | other name _ =>
    inferInstanceAs (Decidable (name ≠ "" ∧ ':' ∉ name.toList ∧ name ∉ frameFields))

instance (line : Line) : Decidable line.Proper :=
  decidable_of_iff (line.Named ∧ '\n' ∉ line.text.toList ∧ '\r' ∉ line.text.toList)
    ⟨fun h => ⟨h.1, h.2.1, h.2.2⟩, fun h => ⟨h.named, h.no_lf, h.no_cr⟩⟩

end Line

inductive LineEnd where
  | lineFeed
  | carriageReturn
  | both
deriving DecidableEq, Repr

def LineEnd.bytes : LineEnd → List UInt8
  | lineFeed => [lf]
  | carriageReturn => [cr]
  | both => [cr, lf]

/-- A frame that can be written: the parts that take one line have no end of a line in them, and the
data, which takes a line for each part between line feeds, has no carriage return. -/
structure Frame.Plain (frame : Frame) : Prop where
  event : ∀ value ∈ frame.event, '\n' ∉ value.toList ∧ '\r' ∉ value.toList
  id : ∀ value ∈ frame.id, '\n' ∉ value.toList ∧ '\r' ∉ value.toList
  data : '\r' ∉ frame.data.toList

/-- A way to write a frame: its event and its id on a line each if they are there, and a line for
each part of its data between line feeds, in order. -/
structure Rendering where
  frame : Frame
  ending : LineEnd
  lines : List Line
  proper : ∀ line ∈ lines, line.Proper
  event_eq : lines.filterMap (Line.value? "event") = frame.event.toList
  id_eq : lines.filterMap (Line.value? "id") = frame.id.toList
  data_eq : lines.filterMap (Line.value? "data") =
    (Text.split '\n' frame.data.toList).map String.ofList

def Rendering.bytes (r : Rendering) : List UInt8 :=
  (r.lines.flatMap fun line => Utf8.encode line.text.toList ++ r.ending.bytes) ++ r.ending.bytes

/-! ## Every plain frame can be written -/

theorem Line.toList_text_known (name value : String) :
    (known name value).text.toList = name.toList ++ ':' :: ' ' :: value.toList := by
  simp [text]

theorem Line.proper_known {name value : String} (hname : name ∈ frameFields)
    (h : '\n' ∉ value.toList ∧ '\r' ∉ value.toList) : (known name value).Proper := by
  have hplain : '\n' ∉ name.toList ∧ '\r' ∉ name.toList := by
    simp only [frameFields, List.mem_cons, List.not_mem_nil, or_false] at hname
    rcases hname with rfl | rfl | rfl <;> decide
  refine ⟨hname, ?_, ?_⟩ <;> rw [toList_text_known, List.mem_append, not_or]
  · exact ⟨hplain.1, by simpa using h.1⟩
  · exact ⟨hplain.2, by simpa using h.2⟩

def plainLines (frame : Frame) : List Line :=
  frame.event.toList.map (.known "event") ++ frame.id.toList.map (.known "id") ++
    ((Text.split '\n' frame.data.toList).map String.ofList).map (.known "data")

theorem says_known (name field : String) (values : List String) :
    (values.map (Line.known field)).filterMap (Line.value? name) =
      if field = name then values else [] := by
  rw [List.filterMap_map]
  by_cases h : field = name <;> simp [h, Function.comp_def, Line.value?]

theorem says_plainLines (frame : Frame) (name : String) :
    (plainLines frame).filterMap (Line.value? name) =
      (if "event" = name then frame.event.toList else []) ++
        (if "id" = name then frame.id.toList else []) ++
          if "data" = name then (Text.split '\n' frame.data.toList).map String.ofList else [] := by
  rw [plainLines, List.filterMap_append, List.filterMap_append, says_known, says_known, says_known]

theorem proper_of_mem_plainLines {frame : Frame} (plain : frame.Plain) {line : Line}
    (h : line ∈ plainLines frame) : line.Proper := by
  simp only [plainLines, List.mem_append, List.mem_map, Option.mem_toList] at h
  rcases h with (⟨value, hvalue, rfl⟩ | ⟨value, hvalue, rfl⟩) | ⟨_, ⟨part, hpart, rfl⟩, rfl⟩
  · exact Line.proper_known (by decide) (plain.event value hvalue)
  · exact Line.proper_known (by decide) (plain.id value hvalue)
  · obtain ⟨hlf, hmem⟩ := Text.of_mem_split hpart
    refine Line.proper_known (by decide) ?_
    rw [String.toList_ofList]
    exact ⟨hlf, fun hcr => plain.data (hmem _ hcr)⟩

theorem exists_rendering {frame : Frame} (plain : frame.Plain) (ending : LineEnd) :
    ∃ r : Rendering, r.frame = frame ∧ r.ending = ending := by
  have hproper : ∀ line ∈ plainLines frame, line.Proper :=
    fun line hline => proper_of_mem_plainLines plain hline
  refine ⟨⟨frame, ending, plainLines frame, hproper, ?_, ?_, ?_⟩, rfl, rfl⟩ <;>
    rw [says_plainLines] <;> simp

/-! ## What the lines say -/

theorem takes_of_not_mem {name : List Char} (hcolon : ':' ∉ name) :
    ∀ c ∈ name, decide (c ≠ ':') = true := by
  intro c hc
  exact decide_eq_true (fun heq => hcolon (heq ▸ hc))

theorem field?_of_colon {name : List Char} (hne : name ≠ []) (hcolon : ':' ∉ name)
    (value : List Char) :
    field? (name ++ ':' :: value) =
      some (name, if value.head? = some ' ' then value.tail else value) := by
  have hhead : (name ++ ':' :: value).head? ≠ some ':' := by
    obtain ⟨c, rest, rfl⟩ := List.exists_cons_of_ne_nil hne
    intro h
    exact hcolon (Option.some.inj h ▸ List.mem_cons_self)
  rw [field?, if_neg hhead, List.takeWhile_append_of_pos (takes_of_not_mem hcolon),
    List.dropWhile_append_of_pos (takes_of_not_mem hcolon)]
  simp

theorem field?_of_not_mem {name : List Char} (hcolon : ':' ∉ name) :
    field? name = some (name, []) := by
  have hhead : name.head? ≠ some ':' := fun h => hcolon (List.mem_of_mem_head? h)
  rw [field?, if_neg hhead, List.takeWhile_eq_self_iff.mpr (takes_of_not_mem hcolon),
    List.dropWhile_eq_nil_iff.mpr (takes_of_not_mem hcolon)]
  rfl

theorem value?_of_field? {line field value : List Char} (h : field? line = some (field, value))
    (name : String) : value? name line = if field = name.toList then some value else none := by
  rw [value?, h]
  rfl

theorem frameFields_plain {name : String} (h : name ∈ frameFields) :
    name.toList ≠ [] ∧ ':' ∉ name.toList := by
  simp only [frameFields, List.mem_cons, List.not_mem_nil, or_false] at h
  rcases h with rfl | rfl | rfl <;> decide

theorem Line.Named.value?_text {line : Line} (h : line.Named) {name : String}
    (hname : name ∈ frameFields) :
    EventStream.value? name line.text.toList = (line.value? name).map String.toList := by
  cases line with
  | known field value =>
    obtain ⟨hne, hcolon⟩ := frameFields_plain h
    rw [toList_text_known, value?_of_field? (field?_of_colon hne hcolon _), Line.value?]
    by_cases hfield : field = name <;> simp [hfield, String.toList_inj]
  | comment text =>
    have htext : (comment text).text.toList = ':' :: text.toList := by simp [Line.text]
    rw [htext, EventStream.value?]
    rfl
  | other field value =>
    obtain ⟨hne, hcolon, hother⟩ := h
    have hfield : field.toList ≠ name.toList := fun heq => hother (String.toList_inj.mp heq ▸ hname)
    cases value with
    | none =>
      rw [text, value?_of_field? (field?_of_not_mem hcolon), if_neg hfield]
      rfl
    | some value =>
      have htext : (other field (some value)).text.toList =
          field.toList ++ ':' :: value.toList := by simp [text]
      rw [htext, value?_of_field? (field?_of_colon (by simpa using hne) hcolon _), if_neg hfield]
      rfl

theorem valuesOf_text {lines : List Line} (h : ∀ line ∈ lines, line.Proper) {name : String}
    (hname : name ∈ frameFields) :
    valuesOf name (lines.map fun line => line.text.toList) =
      (lines.filterMap (Line.value? name)).map String.toList := by
  rw [valuesOf, List.filterMap_map, List.map_filterMap]
  exact List.filterMap_congr (fun line hline => (h line hline).named.value?_text hname)

/-- The lines of a rendering are those of a group that is read as the frame. -/
theorem Rendering.ofGroup_eq (r : Rendering) :
    Frame.ofGroup (r.lines.map fun line => line.text.toList) = some r.frame := by
  have hvalues : ∀ name ∈ frameFields, valuesOf name (r.lines.map fun line => line.text.toList) =
      (r.lines.filterMap (Line.value? name)).map String.toList :=
    fun name hname => valuesOf_text r.proper hname
  have hlast : ∀ value : Option String,
      (value.toList.map String.toList).getLast?.map String.ofList = value := by
    intro value
    cases value <;> simp
  have hparts : (Text.split '\n' r.frame.data.toList).map (String.toList ∘ String.ofList) =
      Text.split '\n' r.frame.data.toList := by
    simp [Function.comp_def]
  rw [Frame.ofGroup, hvalues "data" (by decide), hvalues "event" (by decide),
    hvalues "id" (by decide), r.event_eq, r.id_eq, r.data_eq, List.map_map, hparts, hlast, hlast,
    if_neg (Text.split_ne_nil _ _), Text.intercalate_split, String.ofList_toList]

end LiveRuns.EventStream
