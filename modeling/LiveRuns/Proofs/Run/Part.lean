import LiveRuns.Proofs.Fields
import LiveRuns.Proofs.Run.Null
import LiveRuns.Proofs.Wire.Lawful

/-!
The parts of a run.

A member of the object of a run is decoded by itself, as the `Part` that its name asks for, and is
then put into the draft.  Where a place is taken the member is refused, `Draft.add_eq`; so two
members of different names may come in either order, `Draft.add_comm`, and so may all members of an
object in which no name stands twice, `decoder_perm`.
-/

namespace LiveRuns

theorem Fields.insert_comm {α : Type} (fields : Fields α) {a b : String} (h : a ≠ b) (x y : α) :
    (fields.insert a x).insert b y = (fields.insert b y).insert a x := by
  refine Fields.ext_get? fun name => ?_
  simp only [Fields.get?_insert]
  by_cases hb : b = name
  · have ha : a ≠ name := fun heq => h (heq.trans hb.symm)
    rw [if_pos hb, if_neg ha, if_pos hb]
  · rw [if_neg hb, if_neg hb]

namespace Run

open LiveRuns.Json (Tree Literal Value ObjectEnd)

inductive Part where
  | id (id : String)
  | agentId (agentId : Option String)
  | status (status : Option RunStatus)
  | startedAt (time : Option Timestamp)
  | updatedAt (time : Option Timestamp)
  | extra (name : String) (value : Value)

namespace Part

def name : Part → String
  | .id _ => "id"
  | .agentId _ => "agentId"
  | .status _ => "status"
  | .startedAt _ => "startedAt"
  | .updatedAt _ => "updatedAt"
  | .extra name _ => name

def decoder (name : String) : Wire.Decoder Part :=
  if name = "id" then fun room tree => .id <$> Wire.text room tree
  else if name = "agentId" then fun room tree => .agentId <$> Wire.optional Wire.text room tree
  else if name = "status" then fun room tree =>
    .status <$> Wire.optional RunStatus.decoder room tree
  else if name = "startedAt" then fun room tree =>
    .startedAt <$> Wire.optional Wire.timestamp room tree
  else if name = "updatedAt" then fun room tree =>
    .updatedAt <$> Wire.optional Wire.timestamp room tree
  else fun room tree => .extra name <$> Wire.value room tree

theorem name_of_decoder {name : String} {room : Nat} {tree : Tree} {part : Part}
    (h : decoder name room tree = .ok part) : part.name = name := by
  unfold decoder at h
  split_ifs at h with id agentId status startedAt updatedAt
  all_goals
    obtain ⟨_, -, rfl⟩ := map_eq_ok.1 h
    first
      | rfl
      | exact Eq.symm (by assumption)

theorem lawful_decoder (name : String) : Wire.Lawful (decoder name) := by
  unfold decoder
  split_ifs
  · exact Wire.lawful_text.map _
  · exact Wire.lawful_text.optional.map _
  · exact (Wire.lawful_named _).optional.map _
  · exact Wire.lawful_timestamp.optional.map _
  · exact Wire.lawful_timestamp.optional.map _
  · exact Wire.lawful_value.map _

theorem decoder_extra {name : String} (h : name ∉ typedNames) (room : Nat) (tree : Tree) :
    decoder name room tree = .extra name <$> Wire.value room tree := by
  simp only [typedNames, List.mem_cons, List.not_mem_nil, or_false, not_or] at h
  obtain ⟨id, agentId, status, startedAt, updatedAt⟩ := h
  rw [decoder, if_neg id, if_neg agentId, if_neg status, if_neg startedAt, if_neg updatedAt]

end Part

namespace Draft

def put (draft : Draft) : Part → Draft
  | .id id => { draft with id := some id }
  | .agentId agentId => { draft with agentId := some agentId }
  | .status status => { draft with status := some status }
  | .startedAt time => { draft with startedAt := some time }
  | .updatedAt time => { draft with updatedAt := some time }
  | .extra name value => { draft with extra := draft.extra.insert name value }

theorem put_comm (draft : Draft) {p q : Part} (h : p.name ≠ q.name) :
    (draft.put p).put q = (draft.put q).put p := by
  cases p with
  | extra a x =>
    cases q with
    | extra b y =>
      have hinsert := Fields.insert_comm draft.extra (show a ≠ b from h) x y
      simp only [put, hinsert]
    | _ => rfl
  | _ =>
    cases q
    all_goals first
      | rfl
      | exact absurd rfl h

theorem has_put_of_ne (draft : Draft) {p : Part} {name : String} (h : p.name ≠ name) :
    (draft.put p).has name = draft.has name := by
  have hne : name ≠ p.name := h.symm
  cases p with
  | extra a x => rfl
  | _ =>
    simp only [Part.name] at hne
    simp [put, has, hne]

/-- A member is refused if its place is taken, and is else put there. -/
theorem add_eq (room : Nat) (draft : Draft) (member : Literal × Tree) :
    draft.add room member = (do
      let name ← Wire.form member.1.read
      if draft.has name then .error (.repeated name)
      else draft.put <$> Part.decoder name room member.2) := by
  obtain ⟨key, value⟩ := member
  rw [add]
  cases Wire.form key.read with
  | error e => rfl
  | ok name =>
    show (if name = "id" then _ else _) = if draft.has name then _ else _
    -- A name with a field is one of five; any other has no place that could be taken.
    by_cases hname : name ∈ typedNames
    · simp only [typedNames, List.mem_cons, List.not_mem_nil, or_false] at hname
      rcases hname with rfl | rfl | rfl | rfl | rfl
      · cases hseen : draft.id <;> simp [has, once, hseen, Part.decoder] <;> rfl
      · cases hseen : draft.agentId <;> simp [has, once, hseen, Part.decoder] <;> rfl
      · cases hseen : draft.status <;> simp [has, once, hseen, Part.decoder] <;> rfl
      · cases hseen : draft.startedAt <;> simp [has, once, hseen, Part.decoder] <;> rfl
      · cases hseen : draft.updatedAt <;> simp [has, once, hseen, Part.decoder] <;> rfl
    · rw [Part.decoder_extra hname]
      simp only [typedNames, List.mem_cons, List.not_mem_nil, or_false, not_or] at hname
      obtain ⟨id, agentId, status, startedAt, updatedAt⟩ := hname
      simp only [has, if_neg id, if_neg agentId, if_neg status, if_neg startedAt,
        if_neg updatedAt]
      cases Wire.value room value <;> rfl

theorem add_eq_ok {room : Nat} {draft draft' : Draft} {member : Literal × Tree} :
    draft.add room member = .ok draft' ↔
      ∃ part : Part, member.1.read = .ok part.name ∧ draft.has part.name = false ∧
        Part.decoder part.name room member.2 = .ok part ∧ draft' = draft.put part := by
  rw [add_eq, bind_eq_ok]
  constructor
  · rintro ⟨name, hread, h⟩
    split_ifs at h with hhas
    obtain ⟨part, hpart, rfl⟩ := map_eq_ok.1 h
    obtain rfl := Part.name_of_decoder hpart
    exact ⟨part, Wire.form_eq_ok.1 hread, by simpa using hhas, hpart, rfl⟩
  · rintro ⟨part, hread, hhas, hpart, rfl⟩
    refine ⟨part.name, Wire.form_eq_ok.2 hread, ?_⟩
    rw [hhas, hpart]
    rfl

/-- Two members of different names may change places. -/
theorem add_comm {room : Nat} {draft draft' : Draft} {a b : Literal × Tree}
    (hne : ∀ name, a.1.read = .ok name → b.1.read ≠ .ok name)
    (h : (draft.add room a >>= fun next => next.add room b) = .ok draft') :
    (draft.add room b >>= fun next => next.add room a) = .ok draft' := by
  obtain ⟨next, hfirst, hsecond⟩ := bind_eq_ok.1 h
  obtain ⟨p, hp, hpfree, hpdecoded, rfl⟩ := add_eq_ok.1 hfirst
  obtain ⟨q, hq, hqfree, hqdecoded, rfl⟩ := add_eq_ok.1 hsecond
  have hnames : p.name ≠ q.name := fun heq => hne q.name (heq ▸ hp) hq
  rw [has_put_of_ne draft hnames] at hqfree
  have hpfree' : (draft.put q).has p.name = false := by
    rw [has_put_of_ne draft hnames.symm]
    exact hpfree
  refine bind_eq_ok.2 ⟨draft.put q, add_eq_ok.2 ⟨q, hq, hqfree, hqdecoded, rfl⟩, ?_⟩
  exact add_eq_ok.2 ⟨p, hp, hpfree', hpdecoded, put_comm draft hnames⟩

def Distinct (members : List (Literal × Tree)) : Prop :=
  members.Pairwise fun a b => ∀ name, a.1.read = .ok name → b.1.read ≠ .ok name

theorem Distinct.perm {members members' : List (Literal × Tree)} (h : Distinct members)
    (hperm : members.Perm members') : Distinct members' :=
  hperm.pairwise h fun hne name hb ha => hne name ha hb

theorem foldlM_perm {room : Nat} {members members' : List (Literal × Tree)}
    (hperm : members.Perm members') (hdistinct : Distinct members) {draft draft' : Draft}
    (h : members.foldlM (add room) draft = .ok draft') :
    members'.foldlM (add room) draft = .ok draft' := by
  induction hperm generalizing draft with
  | nil => exact h
  | cons m _ ih =>
    rw [List.foldlM_cons] at h ⊢
    obtain ⟨next, hadd, h⟩ := bind_eq_ok.1 h
    exact bind_eq_ok.2 ⟨next, hadd, ih (List.pairwise_cons.1 hdistinct).2 h⟩
  | swap a b members =>
    -- What comes behind the two members starts from the same draft.
    have hne := (List.pairwise_cons.1 hdistinct).1 a List.mem_cons_self
    simp only [List.foldlM_cons, ← bind_assoc] at h ⊢
    obtain ⟨next, hadd, h⟩ := bind_eq_ok.1 h
    exact bind_eq_ok.2 ⟨next, add_comm hne hadd, h⟩
  | trans hfirst _ ih ih' => exact ih' (hdistinct.perm hfirst) (ih hdistinct h)

/-- Every member of an object that has been gone through was decoded by itself. -/
theorem forall_of_foldlM {room : Nat} {members : List (Literal × Tree)} {draft draft' : Draft}
    (h : members.foldlM (add room) draft = .ok draft') :
    ∀ m ∈ members, ∃ part : Part, m.1.read = .ok part.name ∧
      Part.decoder part.name room m.2 = .ok part := by
  refine forall_mem_of_foldlM (fun draft m next hadd => ?_) h
  obtain ⟨part, hread, -, hpart, -⟩ := add_eq_ok.1 hadd
  exact ⟨part, hread, hpart⟩

theorem foldlM_eq_of_depth_le {room more : Nat} {members : List (Literal × Tree)}
    (h : ∀ m ∈ members, m.2.depth ≤ room) (h' : ∀ m ∈ members, m.2.depth ≤ more) (draft : Draft) :
    members.foldlM (add room) draft = members.foldlM (add more) draft := by
  induction members generalizing draft with
  | nil => rfl
  | cons m members ih =>
    obtain ⟨hm, h⟩ := List.forall_mem_cons.1 h
    obtain ⟨hm', h'⟩ := List.forall_mem_cons.1 h'
    have hadd : draft.add room m = draft.add more m := by
      have hsame (name : String) : Part.decoder name room m.2 = Part.decoder name more m.2 :=
        (Part.lawful_decoder name).room hm hm'
      simp only [add_eq, hsame]
    rw [List.foldlM_cons, List.foldlM_cons, hadd]
    exact bind_congr fun next => ih h h' next

end Draft

/-! ## Whole objects -/

theorem decoder_eq_ok {room : Nat} {tree : Tree} {run : Run} :
    decoder room tree = .ok run ↔
      ∃ below members draft, room = below + 1 ∧ tree = .object members .closed ∧
        members.foldlM (Draft.add below) {} = .ok draft ∧ draft.finish = .ok run := by
  constructor
  · intro h
    cases tree with
    | object members ending =>
      cases room with
      | zero => cases h
      | succ below =>
        obtain ⟨draft, hgathered, h⟩ := bind_eq_ok.1 h
        obtain ⟨_, hclose, hfinish⟩ := bind_eq_ok.1 h
        obtain rfl := Json.ObjectEnd.close_eq_ok.1 (Wire.form_eq_ok.1 hclose)
        exact ⟨below, members, draft, rfl, rfl, hgathered, hfinish⟩
    | _ => cases h
  · rintro ⟨below, members, draft, rfl, rfl, hgathered, hfinish⟩
    exact bind_eq_ok.2 ⟨draft, hgathered, bind_eq_ok.2 ⟨(), rfl, hfinish⟩⟩

/-- The members of an object in which no name stands twice may come in any order. -/
theorem decoder_perm {room : Nat} {members members' : List (Literal × Tree)}
    (hperm : members.Perm members') (hdistinct : Draft.Distinct members) {run : Run}
    (h : decoder room (.object members .closed) = .ok run) :
    decoder room (.object members' .closed) = .ok run := by
  obtain ⟨below, _, draft, rfl, ⟨⟩, hgathered, hfinish⟩ := decoder_eq_ok.1 h
  exact decoder_eq_ok.2
    ⟨below, members', draft, rfl, rfl, Draft.foldlM_perm hperm hdistinct hgathered, hfinish⟩

theorem lawful_decoder : Wire.Lawful decoder where
  skim h := by
    obtain ⟨below, members, draft, rfl, rfl, hgathered, -⟩ := decoder_eq_ok.1 h
    refine Tree.skim_object.2 ⟨Json.skimMembers_eq_ok.2 fun m hm => ?_, rfl⟩
    obtain ⟨part, hread, hpart⟩ := Draft.forall_of_foldlM hgathered m hm
    exact ⟨Json.Literal.form_of_read hread, (Part.lawful_decoder part.name).skim hpart⟩
  depth h := by
    obtain ⟨below, members, draft, rfl, rfl, hgathered, -⟩ := decoder_eq_ok.1 h
    rw [Tree.depth]
    refine Nat.succ_le_succ (Json.depthOfMembers_le_iff.2 fun m hm => ?_)
    obtain ⟨part, -, hpart⟩ := Draft.forall_of_foldlM hgathered m hm
    exact (Part.lawful_decoder part.name).depth hpart
  room {room more tree} h h' := by
    cases tree with
    | object members ending =>
      rw [Tree.depth] at h h'
      obtain ⟨room, rfl⟩ := Nat.exists_eq_add_one_of_ne_zero (show room ≠ 0 by omega)
      obtain ⟨more, rfl⟩ := Nat.exists_eq_add_one_of_ne_zero (show more ≠ 0 by omega)
      have hle := Json.depthOfMembers_le_iff.1 (Nat.le_of_succ_le_succ h)
      have hle' := Json.depthOfMembers_le_iff.1 (Nat.le_of_succ_le_succ h')
      show (members.foldlM (Draft.add room) {} >>= _) = (members.foldlM (Draft.add more) {} >>= _)
      rw [Draft.foldlM_eq_of_depth_le hle hle']
    | _ => rfl

end Run

end LiveRuns
