import LiveRuns.Proofs.Wire.Member

/-!
Runs are read back.

The typed members of a run are written first and the others after them.  None of the others has
the name of a typed one, so each member reaches its own place in the draft.  What a decoded run
keeps in `extra` is sound: the names are no typed ones, and the values could be read below the
depth that was left (`soundExtra_of_decoder`).  That is all that `decoder_tree` needs to read the
run back.
-/

namespace LiveRuns

/-- Fields are set behind those that come before them. -/
theorem entries_insertAll {α : Type} {fields : Fields α} {entries : List (String × α)}
    (order : Ascending (fields.entries ++ entries)) :
    (fields.insertAll entries).entries = fields.entries ++ entries := by
  induction entries generalizing fields with
  | nil => rw [List.append_nil]; rfl
  | cons e entries ih =>
    obtain ⟨name, value⟩ := e
    have last : (fields.insert name value).entries = fields.entries ++ [(name, value)] :=
      putField_of_forall_lt order.lt_of_append
    rw [List.append_cons] at order ⊢
    rw [← last] at order ⊢
    exact ih order

/-- Setting the fields of a map one after the other gives the map. -/
theorem ofList_entries {α : Type} (fields : Fields α) : Fields.ofList fields.entries = fields := by
  have h : (Fields.ofList fields.entries).entries = fields.entries :=
    entries_insertAll fields.ascending
  obtain ⟨entries, ascending⟩ := fields
  generalize Fields.ofList _ = set at h ⊢
  cases set
  cases h
  rfl

namespace Run

open LiveRuns.Json (Tree Literal Value treesOfMembers)

def typedNames : List String := ["id", "agentId", "status", "startedAt", "updatedAt"]

/-- What a run may keep below a number of lists and objects still to be opened. -/
def SoundExtra (room : Nat) (extra : Fields Value) : Prop :=
  ∀ m ∈ extra.entries, m.1 ∉ typedNames ∧ m.2.Sound room

def FloatFree (run : Run) : Prop := ∀ m ∈ run.extra.entries, m.2.FloatFree

theorem SoundExtra.mono {room more : Nat} {extra : Fields Value} (h : SoundExtra room extra)
    (le : room ≤ more) : SoundExtra more extra :=
  fun m mem => ⟨(h m mem).1, (h m mem).2.mono le⟩

theorem freeOfFloats_toJson {run : Run} (h : run.FloatFree) : run.toJson.FloatFree := by
  refine .object fun m mem => ?_
  simp only [members, typedMembers, List.mem_append, List.mem_cons] at mem
  obtain (rfl | ((mem | mem) | mem) | mem) | mem := mem
  · exact .text _
  · exact Wire.freeOfFloats_member? m mem
  · exact Wire.freeOfFloats_member? m mem
  · exact Wire.freeOfFloats_member? m mem
  · exact Wire.freeOfFloats_member? m mem
  · exact h m mem

/-! ## What a decoded run keeps -/

theorem Draft.soundExtra_add {room : Nat} {draft draft' : Draft} {member : Literal × Tree}
    (sound : SoundExtra room draft.extra) (h : draft.add room member = .ok draft') :
    SoundExtra room draft'.extra := by
  obtain ⟨name, -, h⟩ := bind_eq_ok.1 h
  split_ifs at h with id agentId status startedAt updatedAt
  case neg =>
    obtain ⟨value, read, h⟩ := bind_eq_ok.1 h
    cases h
    refine forall_mem_putField ⟨?_, ?_⟩ sound
    · simp [typedNames, *]
    · exact Json.sound_of_value _ (Wire.form_eq_ok.1 read)
  all_goals
    obtain ⟨-, -, h⟩ := bind_eq_ok.1 h
    obtain ⟨value, -, h⟩ := bind_eq_ok.1 h
    cases h
    exact sound

theorem Draft.extra_finish {draft : Draft} {run : Run} (h : draft.finish = .ok run) :
    run.extra = draft.extra := by
  unfold finish at h
  split at h <;> cases h
  rfl

theorem soundExtra_of_decoder {room : Nat} {tree : Tree} {run : Run}
    (h : decoder room tree = .ok run) : ∃ below, room = below + 1 ∧ SoundExtra below run.extra := by
  cases tree with
  | object members ending =>
    cases room with
    | zero => cases h
    | succ room =>
      refine ⟨room, rfl, ?_⟩
      obtain ⟨draft, gathered, h⟩ := bind_eq_ok.1 h
      obtain ⟨-, -, h⟩ := bind_eq_ok.1 h
      have sound : SoundExtra room draft.extra :=
        foldlM_preserves (P := fun draft => SoundExtra room draft.extra)
          (fun _ _ _ => Draft.soundExtra_add) (fun _ mem => absurd mem List.not_mem_nil) gathered
      rw [Draft.extra_finish h]
      exact sound
  | _ => cases h

/-! ## Reading back -/

theorem Draft.add_extra {room : Nat} {draft : Draft} {name : String} {value : Value}
    (other : name ∉ typedNames) (sound : value.Sound room) (free : value.FloatFree) :
    draft.add room (.ofText name, value.tree) =
      .ok { draft with extra := draft.extra.insert name value } := by
  simp only [typedNames, List.mem_cons, List.not_mem_nil, or_false, not_or] at other
  obtain ⟨id, agentId, status, startedAt, updatedAt⟩ := other
  refine bind_eq_ok.2 ⟨name, Wire.form_read_ofText name, ?_⟩
  rw [if_neg id, if_neg agentId, if_neg status, if_neg startedAt, if_neg updatedAt]
  refine bind_eq_ok.2 ⟨value, ?_, rfl⟩
  rw [Wire.value, Json.value_tree sound free]
  rfl

theorem Draft.foldlM_extra {room : Nat} {draft : Draft} {entries : List (String × Value)}
    (sound : ∀ m ∈ entries, m.1 ∉ typedNames ∧ m.2.Sound room)
    (free : ∀ m ∈ entries, m.2.FloatFree) :
    (treesOfMembers entries).foldlM (Draft.add room) draft =
      .ok { draft with extra := draft.extra.insertAll entries } := by
  induction entries generalizing draft with
  | nil => rfl
  | cons m entries ih =>
    obtain ⟨name, value⟩ := m
    obtain ⟨⟨other, first⟩, sound⟩ := List.forall_mem_cons.1 sound
    obtain ⟨freeFirst, free⟩ := List.forall_mem_cons.1 free
    rw [treesOfMembers, List.foldlM_cons, add_extra other first freeFirst]
    exact ih sound free

theorem Draft.foldlM_members {room : Nat} {run : Run} (sound : SoundExtra room run.extra)
    (free : run.FloatFree) :
    (treesOfMembers run.members).foldlM (Draft.add room) {} =
      .ok ⟨some run.id, run.agentId.map some, run.status.map some, run.startedAt.map some,
        run.updatedAt.map some, run.extra⟩ := by
  have split : run.members = ("id", .text run.id) ::
      (member? "agentId" (fun s => s) run.agentId ++ (member? "status" RunStatus.name run.status ++
        (member? "startedAt" Timestamp.text run.startedAt ++
          (member? "updatedAt" Timestamp.text run.updatedAt ++ run.extra.entries)))) := by
    simp [members, typedMembers]
  -- each member finds its own place in the draft still empty
  have id : add room {} (.ofText "id", .text (.ofText run.id)) =
      .ok ⟨some run.id, none, none, none, none, .empty⟩ :=
    Wire.add_eq_ok rfl rfl (Wire.reads_text room run.id) rfl
  rw [split, treesOfMembers, List.foldlM_cons]
  refine bind_eq_ok.2 ⟨_, id, ?_⟩
  refine (Wire.foldlM_member? (fun part => mk (some run.id) part none none none .empty)
    (fun s => ?_) run.agentId _).trans ?_
  · exact Wire.add_eq_ok rfl rfl (Wire.reads_text.optional room s) rfl
  refine (Wire.foldlM_member? (fun part => mk _ _ part none none .empty)
    (fun status => ?_) run.status _).trans ?_
  · exact Wire.add_eq_ok rfl rfl (Wire.reads_status.optional room status) rfl
  refine (Wire.foldlM_member? (fun part => mk _ _ _ part none .empty)
    (fun t => ?_) run.startedAt _).trans ?_
  · exact Wire.add_eq_ok rfl rfl (Wire.reads_timestamp.optional room t) rfl
  refine (Wire.foldlM_member? (fun part => mk _ _ _ _ part .empty)
    (fun t => ?_) run.updatedAt _).trans ?_
  · exact Wire.add_eq_ok rfl rfl (Wire.reads_timestamp.optional room t) rfl
  rw [foldlM_extra sound free, ← Fields.ofList, ofList_entries]

/-- The tree of a run that keeps sound values is decoded as the run. -/
theorem decoder_tree {room : Nat} {run : Run} (sound : SoundExtra room run.extra)
    (free : run.FloatFree) : decoder (room + 1) run.toJson.tree = .ok run := by
  refine bind_eq_ok.2 ⟨_, Draft.foldlM_members sound free, bind_eq_ok.2 ⟨(), rfl, ?_⟩⟩
  simp only [Draft.finish, Wire.join_map_some]

end Run

end LiveRuns
