import LiveRuns.Event
import LiveRuns.Proofs.Json.Value
import LiveRuns.Proofs.Timestamp.Text

/-!
Parts of a message are read back.

A part is written as a JSON string, so it is decoded from the tree of that string: `Reads d write`
says that the decoder `d` undoes `write` there.  The parts of a message that are left out when they
are absent are read back together by `foldlM_member?`, whatever draft collects them.
-/

namespace LiveRuns.Wire

open LiveRuns.Json (Tree Literal Value Item treesOfMembers)

/-- A whole text is decoded by the tree of the value that stands in it. -/
theorem decode_chars {α : Type} (d : Decoder α) {i : Item} (h : i.Sound) {text : String}
    (htext : i.chars = text.toList) : decode d text = d Json.maxDepth i.tree := by
  rw [decode, ← htext, Tree.read_chars h]
  show (d Json.maxDepth i.tree >>= fun a => form (Json.endOfText i.back) >>= fun _ => pure a) = _
  rw [Json.endOfText_blanks h.back]
  cases d Json.maxDepth i.tree <;> rfl

theorem decode_objectText {α : Type} (d : Decoder α) {members : List Json.Member} {text : String}
    (h : Json.ObjectText members text.toList) :
    decode d text = d Json.maxDepth (.object (members.map Json.Member.entry) .closed) := by
  obtain ⟨i, hsound, hchars, htree⟩ := h.exists_item
  rw [decode_chars d hsound hchars, htree]

theorem decode_toText {α : Type} (d : Decoder α) {v : Value} (free : v.FloatFree) :
    decode d v.toText = d Json.maxDepth v.tree :=
  decode_chars d (.ofValue free) (Json.chars_ofValue v)

/-- A decoder gets back what is written as a JSON string. -/
def Reads {α : Type} (d : Decoder α) (write : α → String) : Prop :=
  ∀ room a, d room (.text (.ofText (write a))) = .ok a

theorem form_eq_ok {α : Type} {x : Except Json.Fault α} {a : α} : form x = .ok a ↔ x = .ok a := by
  cases x with
  | error fault => exact ⟨nofun, nofun⟩
  | ok b => exact ⟨fun h => by cases h; rfl, fun h => by cases h; rfl⟩

theorem form_read_ofText (s : String) : form (Literal.ofText s).read = .ok s := by
  rw [Literal.read_ofText]
  rfl

theorem reads_text : Reads text fun s => s := by
  intro room s
  exact form_read_ofText s

theorem reads_timestamp : Reads timestamp Timestamp.text := by
  intro room t
  refine bind_eq_ok.2 ⟨t.text, form_read_ofText t.text, ?_⟩
  simp only [Timestamp.ofText_text]

theorem reads_status : Reads RunStatus.decoder RunStatus.name := by
  intro room status
  rw [RunStatus.decoder, named, Literal.read_ofText]
  cases status <;> rfl

theorem reads_kind : Reads EventKind.decoder EventKind.name := by
  intro room kind
  rw [EventKind.decoder, named, Literal.read_ofText]
  cases kind <;> rfl

/-- What may be `null` but is not is read back too. -/
theorem Reads.optional {α : Type} {d : Decoder α} {write : α → String} (h : Reads d write)
    (room : Nat) (a : α) :
    Wire.optional d room (.text (.ofText (write a))) = .ok (some a) := by
  show some <$> d room _ = _
  rw [h]
  rfl

/-! ## Members -/

/-- A member whose place in a draft is free, and whose value is read, is added there. -/
theorem add_eq_ok {D α : Type} {name : String} {add : String → Except Error D}
    {place : Except Error Unit} {value : Except Error α} {put : α → Except Error D} {a : α}
    {draft : D} (step : add name = place >>= fun _ => value >>= put) (free : place = .ok ())
    (read : value = .ok a) (done : put a = .ok draft) :
    (form (Literal.ofText name).read >>= add) = .ok draft := by
  rw [form_read_ofText]
  show add name = _
  rw [step, free, read]
  exact done

/-- A part that is left out when it is absent is put into the draft as it was. -/
theorem foldlM_member? {D α : Type} {add : D → Literal × Tree → Except Error D}
    (put : Option (Option α) → D) {name : String} {write : α → String}
    (step : ∀ a, add (put none) (.ofText name, .text (.ofText (write a))) =
      .ok (put (some (some a))))
    (part : Option α) (others : List (String × Value)) :
    (treesOfMembers (Run.member? name write part ++ others)).foldlM add (put none) =
      (treesOfMembers others).foldlM add (put (part.map some)) := by
  cases part with
  | none => rfl
  | some a =>
    show (add (put none) (.ofText name, .text (.ofText (write a))) >>= fun draft =>
      (treesOfMembers others).foldlM add draft) = _
    rw [step]
    rfl

theorem freeOfFloats_member? {α : Type} {name : String} {write : α → String} {part : Option α} :
    ∀ m ∈ Run.member? name write part, m.2.FloatFree := by
  cases part with
  | none => simp [Run.member?]
  | some a => simpa [Run.member?] using Value.FloatFree.text _

theorem join_map_some {α : Type} (part : Option α) : (part.map some).join = part := by
  cases part <;> rfl

end LiveRuns.Wire
