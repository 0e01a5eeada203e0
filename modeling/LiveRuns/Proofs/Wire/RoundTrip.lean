import LiveRuns.Filter
import LiveRuns.Proofs.Run.Wire

/-!
What is decoded, written and decoded again is the same.

The main statement, `roundTrips_wire`, is about runs, events and the two filters.  A value counts if
its decoder can return it for some tree of a text, be it the whole text or a part of a list.  Runs
and the runs of events have to be free of floating-point numbers, whose digits are approximate.
-/

namespace LiveRuns

open LiveRuns.Json (Tree Literal Value treesOfMembers)

namespace Wire

/-- A decoder can return a value, for a text or for a part of one. -/
def Returns {α : Type} (d : Decoder α) (a : α) : Prop :=
  ∃ room tree, room ≤ Json.maxDepth ∧ d room tree = .ok a

/-- Writing and decoding undo each other on what can be decoded and is plain. -/
structure RoundTrips {α : Type} (d : Decoder α) (write : α → String) (Plain : α → Prop) :
    Prop where
  /-- What can be decoded is got back from its text. -/
  decode_write : ∀ a, Returns d a → Plain a → decode d (write a) = .ok a
  /-- Decoding the text that was written for a decoded text changes nothing. -/
  stable : ∀ text a, decode d text = .ok a → Plain a → decode d (write a) = decode d text
  injective : ∀ a b, Returns d a → Plain a → Returns d b → Plain b → write a = write b → a = b

/-- The value of a whole text can be returned. -/
theorem returns_of_decode {α : Type} {d : Decoder α} {text : String} {a : α}
    (h : decode d text = .ok a) : Returns d a := by
  obtain ⟨value, read, h⟩ := bind_eq_ok.1 h
  obtain ⟨-, -, h⟩ := bind_eq_ok.1 h
  cases h
  exact ⟨_, _, le_rfl, read⟩

theorem RoundTrips.of_decode_write {α : Type} {d : Decoder α} {write : α → String}
    {Plain : α → Prop} (back : ∀ a, Returns d a → Plain a → decode d (write a) = .ok a) :
    RoundTrips d write Plain where
  decode_write := back
  stable text a h plain := by rw [back a (returns_of_decode h) plain, h]
  injective a b ha pa hb pb same := by
    have first := back a ha pa
    rw [same, back b hb pb] at first
    exact (Except.ok.inj first).symm

end Wire

/-! ## Runs -/

theorem Run.decode_toText {run : Run} (h : Wire.Returns Run.decoder run) (free : run.FloatFree) :
    Wire.decode Run.decoder run.toText = .ok run := by
  obtain ⟨room, tree, deep, h⟩ := h
  obtain ⟨below, rfl, sound⟩ := Run.soundExtra_of_decoder h
  rw [Run.toText, Wire.decode_toText _ (Run.freeOfFloats_toJson free)]
  exact Run.decoder_tree (sound.mono (Nat.le_of_succ_le_succ deep)) free

/-! ## Events -/

namespace RunEvent

/-- A draft holds only what was decoded one step down. -/
theorem Draft.data_add {room : Nat} {draft draft' : Draft} {member : Literal × Tree}
    (h : draft.add room member = .ok draft')
    (known : ∀ run, draft.data = some run → ∃ tree, Run.decoder room tree = .ok run) :
    ∀ run, draft'.data = some run → ∃ tree, Run.decoder room tree = .ok run := by
  obtain ⟨name, -, h⟩ := bind_eq_ok.1 h
  split_ifs at h with kind data
  · obtain ⟨-, -, h⟩ := bind_eq_ok.1 h
    obtain ⟨kind, -, h⟩ := bind_eq_ok.1 h
    cases h
    exact known
  · obtain ⟨-, -, h⟩ := bind_eq_ok.1 h
    obtain ⟨data, read, h⟩ := bind_eq_ok.1 h
    cases h
    rintro _ ⟨⟩
    exact ⟨_, read⟩
  · obtain ⟨-, -, h⟩ := bind_eq_ok.1 h
    cases h
    exact known

theorem Draft.data_finish {draft : Draft} {event : RunEvent} (h : draft.finish = .ok event) :
    draft.data = some event.data := by
  unfold finish at h
  split at h <;> cases h
  assumption

theorem exists_of_next {α : Type} {d : Wire.Decoder α} {room : Nat} {items rest : List Tree}
    {ending : Json.ListEnd} {a : α} (h : Wire.next d room items ending = .ok (some a, rest)) :
    ∃ tree, d room tree = .ok a := by
  cases items with
  | nil =>
    obtain ⟨-, -, h⟩ := bind_eq_ok.1 h
    cases h
  | cons item items =>
    obtain ⟨a, read, h⟩ := bind_eq_ok.1 h
    cases h
    exact ⟨item, read⟩

/-- The run that an event carries was decoded one step further down. -/
theorem exists_decoder_data {room : Nat} {tree : Tree} {event : RunEvent}
    (h : decoder room tree = .ok event) :
    ∃ below tree, room = below + 1 ∧ Run.decoder below tree = .ok event.data := by
  cases room with
  | zero => cases tree <;> cases h
  | succ room =>
    cases tree with
    | object members ending =>
      obtain ⟨draft, gathered, h⟩ := bind_eq_ok.1 h
      obtain ⟨-, -, h⟩ := bind_eq_ok.1 h
      have known := foldlM_preserves
        (P := fun draft : Draft =>
          ∀ run, draft.data = some run → ∃ tree, Run.decoder room tree = .ok run)
        (fun _ _ _ known added => Draft.data_add added known) (by rintro _ ⟨⟩) gathered
      obtain ⟨tree, read⟩ := known _ (Draft.data_finish h)
      exact ⟨room, tree, rfl, read⟩
    | list items ending =>
      obtain ⟨⟨kind, items⟩, -, h⟩ := bind_eq_ok.1 h
      cases kind with
      | none => cases h
      | some kind =>
        obtain ⟨⟨data, items⟩, read, h⟩ := bind_eq_ok.1 h
        cases data with
        | none => cases h
        | some data =>
          obtain ⟨-, -, h⟩ := bind_eq_ok.1 h
          cases h
          obtain ⟨tree, read⟩ := exists_of_next read
          exact ⟨room, tree, rfl, read⟩
    | _ => cases h

theorem decoder_tree {room : Nat} {event : RunEvent}
    (sound : Run.SoundExtra room event.data.extra) (free : event.data.FloatFree) :
    decoder (room + 2) event.toJson.tree = .ok event := by
  have kind : Draft.add (room + 1) {} (.ofText "type", .text (.ofText event.kind.name)) =
      .ok ⟨some event.kind, none⟩ :=
    Wire.add_eq_ok rfl rfl (Wire.reads_kind _ event.kind) rfl
  have data : Draft.add (room + 1) ⟨some event.kind, none⟩
      (.ofText "data", event.data.toJson.tree) = .ok ⟨some event.kind, some event.data⟩ :=
    Wire.add_eq_ok rfl rfl (Run.decoder_tree sound free) rfl
  exact bind_eq_ok.2 ⟨_, bind_eq_ok.2 ⟨_, kind, bind_eq_ok.2 ⟨_, data, rfl⟩⟩, rfl⟩

theorem decode_toText {event : RunEvent} (h : Wire.Returns decoder event)
    (free : event.data.FloatFree) : Wire.decode decoder event.toText = .ok event := by
  obtain ⟨room, tree, deep, h⟩ := h
  obtain ⟨below, data, rfl, read⟩ := exists_decoder_data h
  obtain ⟨below, rfl, sound⟩ := Run.soundExtra_of_decoder read
  have plain : event.toJson.FloatFree := by
    refine .object ?_
    rintro m (_ | ⟨_, _ | ⟨_, ⟨⟩⟩⟩)
    · exact .text _
    · exact Run.freeOfFloats_toJson free
  rw [toText, Wire.decode_toText _ plain]
  have room : below ≤ 125 := by
    unfold Json.maxDepth at deep
    omega
  exact decoder_tree (sound.mono room) free

end RunEvent

/-! ## Filters -/

namespace StreamParams

theorem freeOfFloats_toJson (p : StreamParams) : p.toJson.FloatFree := by
  refine .object fun m mem => ?_
  obtain mem | mem := List.mem_append.1 mem
  · exact Wire.freeOfFloats_member? m mem
  · exact Wire.freeOfFloats_member? m mem

theorem decoder_tree (room : Nat) (p : StreamParams) :
    decoder (room + 1) p.toJson.tree = .ok p := by
  refine bind_eq_ok.2 ⟨⟨p.agentId.map some, p.status.map some⟩, ?_,
    bind_eq_ok.2 ⟨(), rfl, by simp only [Wire.join_map_some]; rfl⟩⟩
  refine (Wire.foldlM_member? (fun part => Draft.mk part none) (fun s => ?_) p.agentId _).trans ?_
  · exact Wire.add_eq_ok rfl rfl (Wire.reads_text.optional room s) rfl
  rw [← List.append_nil (Run.member? ..)]
  refine (Wire.foldlM_member? (fun part => Draft.mk _ part) (fun status => ?_) p.status _).trans ?_
  · exact Wire.add_eq_ok rfl rfl (Wire.reads_status.optional room status) rfl
  rfl

theorem decode_toText (p : StreamParams) : Wire.decode decoder p.toJson.toText = .ok p := by
  rw [Wire.decode_toText _ p.freeOfFloats_toJson]
  exact decoder_tree _ p

end StreamParams

namespace RunQuery

theorem freeOfFloats_toJson (q : RunQuery) : q.toJson.FloatFree := by
  refine .object fun m mem => ?_
  simp only [List.mem_append] at mem
  obtain ((mem | mem) | mem) | mem := mem
  · exact Wire.freeOfFloats_member? m mem
  · exact Wire.freeOfFloats_member? m mem
  · exact Wire.freeOfFloats_member? m mem
  · exact Wire.freeOfFloats_member? m mem

theorem decoder_tree (room : Nat) (q : RunQuery) :
    decoder (room + 1) q.toJson.tree = .ok q := by
  refine bind_eq_ok.2 ⟨⟨q.agentId.map some, q.status.map some, q.since.map some,
    q.before.map some⟩, ?_, bind_eq_ok.2 ⟨(), rfl, by simp only [Wire.join_map_some]; rfl⟩⟩
  rw [List.append_assoc, List.append_assoc, ← List.append_nil (Run.member? "to" ..)]
  refine (Wire.foldlM_member? (fun part => Draft.mk part none none none) (fun s => ?_)
    q.agentId _).trans ?_
  · exact Wire.add_eq_ok rfl rfl (Wire.reads_text.optional room s) rfl
  refine (Wire.foldlM_member? (fun part => Draft.mk _ part none none) (fun status => ?_)
    q.status _).trans ?_
  · exact Wire.add_eq_ok rfl rfl (Wire.reads_status.optional room status) rfl
  refine (Wire.foldlM_member? (fun part => Draft.mk _ _ part none) (fun t => ?_)
    q.since _).trans ?_
  · exact Wire.add_eq_ok rfl rfl (Wire.reads_timestamp.optional room t) rfl
  refine (Wire.foldlM_member? (fun part => Draft.mk _ _ _ part) (fun t => ?_)
    q.before _).trans ?_
  · exact Wire.add_eq_ok rfl rfl (Wire.reads_timestamp.optional room t) rfl
  rfl

theorem decode_toText (q : RunQuery) : Wire.decode decoder q.toJson.toText = .ok q := by
  rw [Wire.decode_toText _ q.freeOfFloats_toJson]
  exact decoder_tree _ q

end RunQuery

/-- What is decoded, written and decoded again is the same run, event or filter. -/
theorem roundTrips_wire :
    Wire.RoundTrips Run.decoder Run.toText Run.FloatFree ∧
    Wire.RoundTrips RunEvent.decoder RunEvent.toText (fun event => event.data.FloatFree) ∧
    Wire.RoundTrips StreamParams.decoder (fun p => p.toJson.toText) (fun _ => True) ∧
    Wire.RoundTrips RunQuery.decoder (fun q => q.toJson.toText) (fun _ => True) :=
  ⟨.of_decode_write fun _ => Run.decode_toText, .of_decode_write fun _ => RunEvent.decode_toText,
    .of_decode_write fun p _ _ => p.decode_toText, .of_decode_write fun q _ _ => q.decode_toText⟩

/-- A run that failed in a leap second of a year before the first, with nested members of its
own. -/
def Run.ofOldTimes : Run :=
  ⟨"r1", none, some .failed, some ⟨⟨-44, 3, 15, by decide⟩, ⟨12, 0, 60, 7000, by decide⟩⟩, none,
    ⟨[("tags", .list [.number (.integer (-1)), .object [("\n", .null)]])], by simp [Ascending]⟩⟩

/-- A text of that run, not the one that is written for it. -/
def Run.oldTimesText : String :=
  "\x7b \"tags\": [-1, \x7b\"\\n\": null\x7d], \"status\": \x7b\"failed\": null\x7d, " ++
    "\"startedAt\": \"-44-3-15 13:00:60.000007 +01:00\", \"id\": \"\\u0072\\u0031\" \x7d"

theorem roundTrips_wire_oldTimes :
    Run.ofText Run.oldTimesText = .ok Run.ofOldTimes ∧ Run.ofOldTimes.FloatFree ∧
      Run.ofText Run.ofOldTimes.toText = .ok Run.ofOldTimes := by
  have read : Run.ofText Run.oldTimesText = .ok Run.ofOldTimes := by cbv
  have free : Run.ofOldTimes.FloatFree := by
    have inner : (Value.object [("\n", .null)]).FloatFree :=
      .object (by simp [Value.FloatFree.null])
    intro m mem
    obtain rfl := List.mem_singleton.1 mem
    exact .list (by simp [Value.FloatFree.integer, inner])
  exact ⟨read, free, roundTrips_wire.1.decode_write _ (Wire.returns_of_decode read) free⟩

end LiveRuns
