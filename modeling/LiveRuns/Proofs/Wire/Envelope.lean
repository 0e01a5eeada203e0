import LiveRuns.Channel
import LiveRuns.Proofs.Wire.Slots

/-!
Unknown members of events and filters.

An event and the two filters are gathered by slots.  So it does not matter what else their objects
hold: members of other names may be put in anywhere, with values of any form, and all may come in
any order.  The names have to be texts, though.  One whose surrogates do not come in pairs is no
text, and an object with such a member is refused.  `decode_widened_wire` states both, and
`not_all_other_members_pass` that the second is no case of the first.
-/

namespace LiveRuns

open LiveRuns.Json (Tree Literal Member ObjectText Value)

/-! ## Slots -/

namespace RunEvent

def Draft.slots : List (Wire.Slot Draft) :=
  [.at "type" kind (fun kind draft => { draft with kind := some kind }) EventKind.decoder,
    .at "data" data (fun data draft => { draft with data := some data }) Run.decoder]

theorem Draft.apart_slots : Wire.Apart slots where
  taking := by
    simp only [slots, List.forall_mem_cons]
    exact ⟨Wire.Slot.taking_at fun _ _ => rfl, Wire.Slot.taking_at fun _ _ => rfl, nofun⟩
  pairwise := by
    simp only [slots, List.pairwise_cons, List.forall_mem_cons]
    exact ⟨⟨Wire.Slot.apart_at (fun _ _ => rfl) (fun _ _ => rfl) fun _ _ _ => rfl, nofun⟩,
      nofun, .nil⟩

theorem gathersInto_decoder : Wire.GathersInto decoder Draft.slots {} Draft.finish :=
  .of_offer (fun _ _ => rfl) fun room draft key tree => bind_congr fun name => by
    simp only [Draft.slots, Wire.offer_at]
    rfl

end RunEvent

namespace StreamParams

def Draft.slots : List (Wire.Slot Draft) :=
  [.at "agentId" agentId (fun agentId draft => { draft with agentId := some agentId })
      (Wire.optional Wire.text),
    .at "status" status (fun status draft => { draft with status := some status })
      (Wire.optional RunStatus.decoder)]

def Draft.finish (draft : Draft) : Except Wire.Error StreamParams :=
  .ok ⟨draft.agentId.join, draft.status.join⟩

theorem Draft.apart_slots : Wire.Apart slots where
  taking := by
    simp only [slots, List.forall_mem_cons]
    exact ⟨Wire.Slot.taking_at fun _ _ => rfl, Wire.Slot.taking_at fun _ _ => rfl, nofun⟩
  pairwise := by
    simp only [slots, List.pairwise_cons, List.forall_mem_cons]
    exact ⟨⟨Wire.Slot.apart_at (fun _ _ => rfl) (fun _ _ => rfl) fun _ _ _ => rfl, nofun⟩,
      nofun, .nil⟩

theorem gathersInto_decoder : Wire.GathersInto decoder Draft.slots {} Draft.finish :=
  .of_offer (fun _ _ => rfl) fun room draft key tree => bind_congr fun name => by
    simp only [Draft.slots, Wire.offer_at]
    rfl

end StreamParams

namespace RunQuery

def Draft.slots : List (Wire.Slot Draft) :=
  [.at "agentId" agentId (fun agentId draft => { draft with agentId := some agentId })
      (Wire.optional Wire.text),
    .at "status" status (fun status draft => { draft with status := some status })
      (Wire.optional RunStatus.decoder),
    .at "from" since (fun since draft => { draft with since := some since })
      (Wire.optional Wire.timestamp),
    .at "to" before (fun before draft => { draft with before := some before })
      (Wire.optional Wire.timestamp)]

def Draft.finish (draft : Draft) : Except Wire.Error RunQuery :=
  .ok ⟨draft.agentId.join, draft.status.join, draft.since.join, draft.before.join⟩

theorem Draft.apart_slots : Wire.Apart slots where
  taking := by
    simp only [slots, List.forall_mem_cons]
    exact ⟨Wire.Slot.taking_at fun _ _ => rfl, Wire.Slot.taking_at fun _ _ => rfl,
      Wire.Slot.taking_at fun _ _ => rfl, Wire.Slot.taking_at fun _ _ => rfl, nofun⟩
  pairwise := by
    simp only [slots, List.pairwise_cons, List.forall_mem_cons]
    refine ⟨⟨?_, ?_, ?_, nofun⟩, ⟨?_, ?_, nofun⟩, ⟨?_, nofun⟩, nofun, .nil⟩
    all_goals exact Wire.Slot.apart_at (fun _ _ => rfl) (fun _ _ => rfl) fun _ _ _ => rfl

theorem gathersInto_decoder : Wire.GathersInto decoder Draft.slots {} Draft.finish :=
  .of_offer (fun _ _ => rfl) fun room draft key tree => bind_congr fun name => by
    simp only [Draft.slots, Wire.offer_at]
    rfl

end RunQuery

/-! ## Texts -/

/-- What decodes still decodes as the same event or filter when unknown members are put in and all
are put into another order, and a frame of it still gives the same signal; and nothing decodes that
has a member whose name is no text. -/
theorem decode_widened_wire {members members' : List Member} {text text' : String}
    (h : ObjectText members text.toList) (h' : ObjectText members' text'.toList) :
    (Wire.Widened ["type", "data"] members members' → ∀ event, RunEvent.ofText text = .ok event →
      RunEvent.ofText text' = .ok event ∧ ∀ frame : EventStream.Frame, frame.data = text →
        Channel.signalOf? { frame with data := text' } = Channel.signalOf? frame) ∧
    (Wire.Widened ["agentId", "status"] members members' → ∀ params,
      StreamParams.ofText text = .ok params → StreamParams.ofText text' = .ok params) ∧
    (Wire.Widened ["agentId", "status", "from", "to"] members members' → ∀ query,
      RunQuery.ofText text = .ok query → RunQuery.ofText text' = .ok query) ∧
    ∀ m ∈ members, (∀ name, m.key.read ≠ .ok name) →
      (∀ event, RunEvent.ofText text ≠ .ok event) ∧
      (∀ params, StreamParams.ofText text ≠ .ok params) ∧
      ∀ query, RunQuery.ofText text ≠ .ok query := by
  refine ⟨fun widened event ok => ?_, fun widened params ok => ?_, fun widened query ok => ?_,
    fun m hm unreadable => ⟨?_, ?_, ?_⟩⟩
  · have ok' : RunEvent.ofText text' = .ok event :=
      Wire.decode_widened RunEvent.gathersInto_decoder RunEvent.Draft.apart_slots h h' widened ok
    refine ⟨ok', fun frame hdata => ?_⟩
    rw [Channel.signalOf?, Channel.signalOf?, hdata, ok, ok']
    rfl
  · exact Wire.decode_widened StreamParams.gathersInto_decoder StreamParams.Draft.apart_slots h h'
      widened ok
  · exact Wire.decode_widened RunQuery.gathersInto_decoder RunQuery.Draft.apart_slots h h' widened ok
  · exact Wire.decode_ne_ok_of_unreadable RunEvent.gathersInto_decoder h hm unreadable
  · exact Wire.decode_ne_ok_of_unreadable StreamParams.gathersInto_decoder h hm unreadable
  · exact Wire.decode_ne_ok_of_unreadable RunQuery.gathersInto_decoder h hm unreadable

/-- A text that was read without a fault as a whole object is one of its members. -/
theorem exists_objectText_of_read {text : String} {entries : List (Literal × Tree)}
    {rest : List Char} (h : Tree.read text.toList = (.object entries .closed, rest))
    (form : (Tree.object entries .closed).skim = .ok ()) (ended : Json.endOfText rest = .ok ()) :
    ∃ members, members.map Member.entry = entries ∧ ObjectText members text.toList := by
  obtain ⟨i, hsound, hchars, htree⟩ := Tree.exists_item_of_read h form ended
  obtain ⟨-, members, hentries, hobject⟩ := hsound.objectText htree
  exact ⟨members, hentries, hchars ▸ hobject⟩

def RunEvent.ofStart : RunEvent := ⟨.start, ⟨"r", none, none, none, none, .empty⟩⟩

def startMembers : List Member :=
  [("type", Value.text "start"), ("data", .object [("id", .text "r")])].map .ofField

def startText : String := "\x7b\"type\":\"start\",\"data\":\x7b\"id\":\"r\"\x7d\x7d"

theorem objectText_startText : ObjectText startMembers startText.toList := by
  have free : ∀ m ∈ [("type", Value.text "start"), ("data", .object [("id", .text "r")])],
      m.2.FloatFree := by
    simp only [List.forall_mem_cons]
    exact ⟨.text _, .object (by simp [Value.FloatFree.text]), List.forall_mem_nil _⟩
  have htext : startText.toList =
    (Value.object [("type", .text "start"), ("data", .object [("id", .text "r")])]).chars := by cbv
  rw [htext]
  exact Json.objectText_chars free

theorem ofText_startText : RunEvent.ofText startText = .ok .ofStart := by cbv

/-- A text of that event with two members more, among them a surrogate that is alone and a number
that is out of range. -/
def startTextWidened : String :=
  "\x7b\"trace\":[\x7b\"\\ud800\":1\x7d],\"seq\":1e999,\"data\":\x7b\"id\":\"r\"\x7d,\"type\":\"start\"\x7d"

def otherEntries : List (Literal × Tree) :=
  [(.ofText "seq", .number ⟨false, ['1'], none, some (false, ['9', '9', '9'])⟩),
    (.ofText "trace",
      .list [.object [(⟨[.unit 0xD800], .closed⟩, .number ⟨false, ['1'], none, none⟩)] .closed]
        .closed)]

/-- A member whose name is a surrogate that is alone. -/
def lonely : Member := ⟨[], "\\ud800".toList, [], ⟨[.unit 0xD800], .closed⟩, .ofValue .null⟩

theorem sound_lonely : lonely.Sound where
  front := nofun
  key := ⟨rfl, .cons (.unit (by decide)) .nil⟩
  gap := nofun
  value := .ofValue .null

theorem unreadable_lonely (name : String) : lonely.key.read ≠ .ok name := nofun

def startTextLonely : String :=
  "\x7b\"type\":\"start\",\"data\":\x7b\"id\":\"r\"\x7d,\"\\ud800\":null\x7d"

theorem objectText_startTextLonely :
    ObjectText (startMembers ++ [lonely]) startTextLonely.toList := by
  obtain ⟨_, _, _, -, -, hsound, -⟩ := objectText_startText
  refine ⟨[], _, [], List.forall_mem_nil _, List.forall_mem_nil _, ?_, rfl, ?_⟩
  · intro m hm
    rcases List.mem_append.1 hm with hm | hm
    · exact hsound m hm
    · rw [List.mem_singleton.1 hm]
      exact sound_lonely
  · cbv

theorem decode_widened_wire_startText :
    (∃ members', ObjectText startMembers startText.toList ∧
        ObjectText members' startTextWidened.toList ∧
          Wire.Widened ["type", "data"] startMembers members' ∧
            RunEvent.ofText startText = .ok .ofStart) ∧
      RunEvent.ofText startTextWidened = .ok .ofStart ∧
      ObjectText (startMembers ++ [lonely]) startTextLonely.toList ∧
      (∀ name, lonely.key.read ≠ .ok name) ∧
      ∀ event, RunEvent.ofText startTextLonely ≠ .ok event := by
  have hread : Tree.read startTextWidened.toList =
      (.object (startMembers.map Member.entry ++ otherEntries).reverse .closed, []) := by cbv
  obtain ⟨members', hentries, h'⟩ := exists_objectText_of_read hread (by cbv) (by cbv)
  have unknown : ∀ m ∈ otherEntries, Wire.Unknown ["type", "data"] m := by
    simp only [otherEntries, List.forall_mem_cons]
    exact ⟨⟨"seq", by cbv, by decide⟩, ⟨"trace", by cbv, by decide⟩, List.forall_mem_nil _⟩
  have widened : Wire.Widened ["type", "data"] startMembers members' := by
    refine ⟨otherEntries, unknown, ?_⟩
    rw [hentries]
    exact List.reverse_perm _
  obtain ⟨read, -, -, -⟩ := decode_widened_wire objectText_startText h'
  obtain ⟨-, -, -, refused⟩ := decode_widened_wire objectText_startTextLonely h'
  have hmem : lonely ∈ startMembers ++ [lonely] := List.mem_append_right _ List.mem_cons_self
  exact ⟨⟨members', objectText_startText, h', widened, ofText_startText⟩,
    (read widened _ ofText_startText).1, objectText_startTextLonely, unreadable_lonely,
    (refused lonely hmem unreadable_lonely).1⟩

/-- Not every member that no field has may be put in: its name has to be a text. -/
theorem not_all_other_members_pass :
    ¬ ∀ (members : List Member) (m : Member) (text text' : String) (event : RunEvent),
      ObjectText members text.toList → ObjectText (members ++ [m]) text'.toList →
        (∀ name ∈ ["type", "data"], m.key.read ≠ .ok name) → RunEvent.ofText text = .ok event →
          RunEvent.ofText text' = .ok event := by
  intro hall
  have refused := hall _ _ _ _ _ objectText_startText objectText_startTextLonely
    (fun name _ => unreadable_lonely name) ofText_startText
  have herror : RunEvent.ofText startTextLonely = .error (.form .lonelyHighSurrogate) := by cbv
  rw [herror] at refused
  cases refused

end LiveRuns
