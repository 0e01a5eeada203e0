import LiveRuns.Proofs.Json.Depth
import LiveRuns.Proofs.Wire.Member

/-!
Objects whose unknown members are passed over.

Such an object is decoded member by member into a draft.  A `Slot` is a field of the draft: a member
of its name is put there, if none has come before, and a member that has no slot is only looked at
for its form.  Where the slots keep out of each other's way, `Apart`, two neighbours may change
places, `gather_swap`, and so may all members, `foldlM_gather_perm`.  Together with
`foldlM_gather_unknown` this gives the main statement, `decode_widened`: a text whose object has the
members of another and some unknown ones, in any order, is decoded as the same value.  Unknown is
only what has a name; an object with a member whose name cannot be read is refused,
`decode_ne_ok_of_unreadable`.
-/

namespace LiveRuns

namespace Json

/-- A text of a value has no fault that a value passed over could have. -/
theorem Tree.Spelt.skim {t : Tree} {s : List Char} (h : t.Spelt s) : t.skim = .ok () := by
  induction h with
  | null | bool | number => simp only [Tree.skim]
  | text h =>
    rw [Tree.skim]
    exact Literal.form_eq_ok.2 h.1
  | list _ _ _ ih => exact Tree.skim_list.2 ⟨skimItems_eq_ok.2 (List.forall_mem_map.2 ih), rfl⟩
  | object _ _ key _ ih =>
    refine Tree.skim_object.2 ⟨skimMembers_eq_ok.2 (List.forall_mem_map.2 fun m hm => ?_), rfl⟩
    exact ⟨Literal.form_eq_ok.2 (key m hm).1, ih m hm⟩

end Json

namespace Wire

open LiveRuns.Json (Tree Literal Member ObjectText)

variable {α D : Type}

/-- A field of an object: its name, whether a draft has it, and how its value is put there. -/
structure Slot (D : Type) where
  name : String
  taken : D → Bool
  fill : Decoder (D → D)

def Slot.at (name : String) (place : D → Option α) (put : α → D → D) (d : Decoder α) : Slot D where
  name := name
  taken draft := (place draft).isSome
  fill room tree := put <$> d room tree

/-- Offer the value of a name to the slots: a field may come once, and what is no field is passed
over. -/
def offer (slots : List (Slot D)) (room : Nat) (draft : D) (name : String) (tree : Tree) :
    Except Error D :=
  match slots.find? (·.name = name) with
  | some slot =>
    if slot.taken draft then .error (.repeated name) else (· draft) <$> slot.fill room tree
  | none => (fun _ => draft) <$> skipped room tree

def gather (slots : List (Slot D)) (room : Nat) (draft : D) (member : Literal × Tree) :
    Except Error D := do
  offer slots room draft (← form member.1.read) member.2

/-- The first slot takes a value of its name in the way in which the drafts do it. -/
theorem offer_at {own : String} {place : D → Option α} {put : α → D → D} {d : Decoder α}
    (slots : List (Slot D)) (room : Nat) (draft : D) (name : String) (tree : Tree) :
    offer (.at own place put d :: slots) room draft name tree =
      if name = own then do
        Run.once name (place draft)
        return put (← d room tree) draft
      else offer slots room draft name tree := by
  have hname : (Slot.at own place put d).name = own := rfl
  by_cases h : name = own
  · rw [if_pos h, offer, List.find?_cons_of_pos (by simp [hname, h])]
    cases hseen : place draft with
    | none => cases hread : d room tree <;> simp [Slot.at, Run.once, hseen, hread] <;> rfl
    | some a =>
      simp only [Slot.at, hseen, Option.isSome_some, if_true, Run.once]
      rw [h]
      rfl
  · rw [if_neg h, offer, offer, List.find?_cons_of_neg (by simpa [hname] using Ne.symm h)]

def Slot.Taking (p : Slot D) : Prop :=
  ∀ {room tree f}, p.fill room tree = .ok f → ∀ draft, p.taken (f draft) = true

/-- Filling one of two slots leaves the other as it is, and either may be filled first. -/
structure Slot.Apart (p q : Slot D) : Prop where
  left : ∀ {room tree f}, p.fill room tree = .ok f → ∀ draft, q.taken (f draft) = q.taken draft
  right : ∀ {room tree g}, q.fill room tree = .ok g → ∀ draft, p.taken (g draft) = p.taken draft
  comm : ∀ {room tree tree' f g}, p.fill room tree = .ok f → q.fill room tree' = .ok g →
    ∀ draft, g (f draft) = f (g draft)

instance : Std.Symm (@Slot.Apart D) where
  symm _ _ h := ⟨h.right, h.left, fun hq hp draft => (h.comm hp hq draft).symm⟩

structure Apart (slots : List (Slot D)) : Prop where
  taking : ∀ p ∈ slots, p.Taking
  pairwise : slots.Pairwise Slot.Apart

theorem Apart.of_name_ne {slots : List (Slot D)} (apart : Apart slots) {p q : Slot D}
    (hp : p ∈ slots) (hq : q ∈ slots) (h : p.name ≠ q.name) : p.Apart q :=
  apart.pairwise.forall hp hq (ne_of_apply_ne Slot.name h)

section Places

variable {β : Type} {name name' : String} {place : D → Option α} {place' : D → Option β}
  {put : α → D → D} {put' : β → D → D} {d : Decoder α} {d' : Decoder β}

theorem Slot.taking_at (h : ∀ a draft, (place (put a draft)).isSome = true) :
    (Slot.at name place put d).Taking := by
  intro room tree f hf draft
  obtain ⟨a, -, rfl⟩ := map_eq_ok.1 hf
  exact h a draft

theorem Slot.apart_at (left : ∀ a draft, place' (put a draft) = place' draft)
    (right : ∀ b draft, place (put' b draft) = place draft)
    (comm : ∀ a b draft, put' b (put a draft) = put a (put' b draft)) :
    (Slot.at name place put d).Apart (Slot.at name' place' put' d') where
  left hf draft := by
    obtain ⟨a, -, rfl⟩ := map_eq_ok.1 hf
    exact congrArg Option.isSome (left a draft)
  right hg draft := by
    obtain ⟨b, -, rfl⟩ := map_eq_ok.1 hg
    exact congrArg Option.isSome (right b draft)
  comm hf hg draft := by
    obtain ⟨a, -, rfl⟩ := map_eq_ok.1 hf
    obtain ⟨b, -, rfl⟩ := map_eq_ok.1 hg
    exact comm a b draft

end Places

/-! ## One member -/

/-- What becomes of a draft when a member is added: a slot is filled, or nothing. -/
inductive Gathers (slots : List (Slot D)) (room : Nat) (member : Literal × Tree) : D → D → Prop where
  | field {name : String} {slot : Slot D} {f : D → D} {draft : D}
      (read : member.1.read = .ok name) (found : slots.find? (·.name = name) = some slot)
      (free : slot.taken draft = false) (filled : slot.fill room member.2 = .ok f) :
      Gathers slots room member draft (f draft)
  | unknown {name : String} {draft : D} (read : member.1.read = .ok name)
      (found : slots.find? (·.name = name) = none) (form : member.2.skim = .ok ()) :
      Gathers slots room member draft draft

variable {slots : List (Slot D)} {room : Nat} {draft draft' : D} {member : Literal × Tree}

theorem gather_eq_ok : gather slots room draft member = .ok draft' ↔
    Gathers slots room member draft draft' := by
  rw [gather, bind_eq_ok]
  unfold offer
  constructor
  · rintro ⟨name, hread, h⟩
    have hread := form_eq_ok.1 hread
    split at h
    · next slot hfound =>
      split_ifs at h with htaken
      obtain ⟨f, hfilled, rfl⟩ := map_eq_ok.1 h
      exact .field hread hfound (by simpa using htaken) hfilled
    · next hfound =>
      obtain ⟨_, hskipped, rfl⟩ := map_eq_ok.1 h
      exact .unknown hread hfound (form_eq_ok.1 hskipped)
  · intro h
    cases h with
    | field hread hfound hfree hfilled =>
      refine ⟨_, form_eq_ok.2 hread, ?_⟩
      simp only [hfound, hfree, hfilled]
      rfl
    | unknown hread hfound hform =>
      refine ⟨_, form_eq_ok.2 hread, ?_⟩
      simp only [hfound, skipped, hform]
      rfl

theorem of_find? {name : String} {slot : Slot D} (h : slots.find? (·.name = name) = some slot) :
    slot ∈ slots ∧ slot.name = name :=
  ⟨List.mem_of_find?_eq_some h, by simpa using List.find?_some h⟩

/-- Two members that were added one after the other may change places. -/
theorem gather_swap (apart : Apart slots) {a b : Literal × Tree}
    (h : (gather slots room draft a >>= fun next => gather slots room next b) = .ok draft') :
    (gather slots room draft b >>= fun next => gather slots room next a) = .ok draft' := by
  obtain ⟨next, ha, hb⟩ := bind_eq_ok.1 h
  rw [gather_eq_ok] at ha hb
  refine bind_eq_ok.2 ?_
  simp only [gather_eq_ok]
  cases ha with
  | unknown hread hfound hform => exact ⟨draft', hb, .unknown hread hfound hform⟩
  | @field name p f _ hread hfound hfree hfilled =>
    cases hb with
    | unknown hread' hfound' hform =>
      exact ⟨draft, .unknown hread' hfound' hform, .field hread hfound hfree hfilled⟩
    | @field name' q g _ hread' hfound' hfree' hfilled' =>
      obtain ⟨hp, hname⟩ := of_find? hfound
      obtain ⟨hq, hname'⟩ := of_find? hfound'
      have hne : p.name ≠ q.name := by
        -- The second member of a name would have found its slot taken.
        intro heq
        have hsame : p = q := by
          rw [hname, hname'] at heq
          rw [heq, hfound'] at hfound
          exact (Option.some.inj hfound).symm
        rw [← hsame, apart.taking p hp hfilled] at hfree'
        cases hfree'
      have hapart := apart.of_name_ne hp hq hne
      rw [hapart.left hfilled] at hfree'
      have hfree := (hapart.right hfilled' draft).trans hfree
      rw [hapart.comm hfilled hfilled']
      exact ⟨g draft, .field hread' hfound' hfree' hfilled', .field hread hfound hfree hfilled⟩

/-! ## All members -/

/-- The members of an object may come in any order. -/
theorem foldlM_gather_perm (apart : Apart slots) {members members' : List (Literal × Tree)}
    (hperm : members.Perm members') {draft draft' : D}
    (h : members.foldlM (gather slots room) draft = .ok draft') :
    members'.foldlM (gather slots room) draft = .ok draft' := by
  induction hperm generalizing draft with
  | nil => exact h
  | cons m _ ih =>
    rw [List.foldlM_cons] at h ⊢
    obtain ⟨next, hadd, h⟩ := bind_eq_ok.1 h
    exact bind_eq_ok.2 ⟨next, hadd, ih h⟩
  | swap a b members =>
    -- What comes behind the two members starts from the same draft.
    simp only [List.foldlM_cons, ← bind_assoc] at h ⊢
    obtain ⟨next, hadd, h⟩ := bind_eq_ok.1 h
    exact bind_eq_ok.2 ⟨next, gather_swap apart hadd, h⟩
  | trans _ _ ih ih' => exact ih' (ih h)

/-- A member of a readable name that no field has. -/
def Unknown (names : List String) (member : Literal × Tree) : Prop :=
  ∃ name, member.1.read = .ok name ∧ name ∉ names

/-- Unknown members add nothing. -/
theorem foldlM_gather_unknown {members : List (Literal × Tree)}
    (hunknown : ∀ m ∈ members, Unknown (slots.map Slot.name) m)
    (hform : ∀ m ∈ members, m.2.skim = .ok ()) (draft : D) :
    members.foldlM (gather slots room) draft = .ok draft := by
  induction members with
  | nil => rfl
  | cons m members ih =>
    obtain ⟨⟨name, hread, hname⟩, hunknown⟩ := List.forall_mem_cons.1 hunknown
    obtain ⟨hskim, hform⟩ := List.forall_mem_cons.1 hform
    have hnone : slots.find? (·.name = name) = none := by
      rw [List.find?_eq_none]
      intro slot hslot heq
      exact hname (List.mem_map.2 ⟨slot, hslot, by simpa using heq⟩)
    rw [List.foldlM_cons]
    exact bind_eq_ok.2 ⟨draft, gather_eq_ok.2 (.unknown hread hnone hskim), ih hunknown hform⟩

/-- Every member that is added has a name. -/
theorem exists_read_of_foldlM {members : List (Literal × Tree)}
    (h : members.foldlM (gather slots room) draft = .ok draft') :
    ∀ m ∈ members, ∃ name, m.1.read = .ok name := by
  refine forall_mem_of_foldlM (fun draft m next hadd => ?_) h
  cases gather_eq_ok.1 hadd with
  | field hread => exact ⟨_, hread⟩
  | unknown hread => exact ⟨_, hread⟩

/-! ## Whole texts -/

/-- Some members and others that are unknown, in any order. -/
def Widened (names : List String) (members members' : List Member) : Prop :=
  ∃ others : List (Literal × Tree), (∀ m ∈ others, Unknown names m) ∧
    (members'.map Member.entry).Perm (members.map Member.entry ++ others)

def GathersInto (d : Decoder α) (slots : List (Slot D)) (start : D)
    (finish : D → Except Error α) : Prop :=
  ∀ room members, d (room + 1) (.object members .closed) =
    members.foldlM (gather slots room) start >>= finish

/-- Steps that read a name and offer the value to the slots gather the members. -/
theorem GathersInto.of_offer {d : Decoder α} {add : Nat → D → Literal × Tree → Except Error D}
    {start : D} {finish : D → Except Error α}
    (object : ∀ room members, d (room + 1) (.object members .closed) =
      members.foldlM (add room) start >>= finish)
    (step : ∀ room draft key tree, add room draft (key, tree) =
      form key.read >>= fun name => offer slots room draft name tree) :
    GathersInto d slots start finish := by
  intro room members
  have hadd : add room = gather slots room := by
    funext draft ⟨key, tree⟩
    exact step room draft key tree
  rw [object, hadd]

/-- Unknown members and the order of the members do not matter. -/
theorem decode_widened {d : Decoder α} {start : D} {finish : D → Except Error α}
    (gathers : GathersInto d slots start finish) (apart : Apart slots)
    {members members' : List Member} {text text' : String} {a : α}
    (h : ObjectText members text.toList) (h' : ObjectText members' text'.toList)
    (widened : Widened (slots.map Slot.name) members members') (ok : decode d text = .ok a) :
    decode d text' = .ok a := by
  obtain ⟨others, hunknown, hperm⟩ := widened
  have hform : ∀ m ∈ others, m.2.skim = .ok () := by
    intro m hm
    have hmem : m ∈ members'.map Member.entry := by
      rw [hperm.mem_iff]
      exact List.mem_append_right _ hm
    obtain ⟨member, hmember, rfl⟩ := List.mem_map.1 hmem
    exact (h'.sound member hmember).value.spelt.skim
  rw [decode_objectText d h] at ok
  rw [decode_objectText d h']
  obtain ⟨draft, hgathered, hfinish⟩ := bind_eq_ok.1 ((gathers 126 _).symm.trans ok)
  refine (gathers 126 _).trans (bind_eq_ok.2 ⟨draft, ?_, hfinish⟩)
  apply foldlM_gather_perm apart hperm.symm
  rw [List.foldlM_append]
  exact bind_eq_ok.2 ⟨draft, hgathered, foldlM_gather_unknown hunknown hform draft⟩

/-- An object is refused if the name of a member cannot be read. -/
theorem decode_ne_ok_of_unreadable {d : Decoder α} {start : D} {finish : D → Except Error α}
    (gathers : GathersInto d slots start finish) {members : List Member} {text : String}
    (h : ObjectText members text.toList) {m : Member} (hm : m ∈ members)
    (unreadable : ∀ name, m.key.read ≠ .ok name) (a : α) : decode d text ≠ .ok a := by
  intro ok
  rw [decode_objectText d h] at ok
  obtain ⟨draft, hgathered, -⟩ := bind_eq_ok.1 ((gathers 126 _).symm.trans ok)
  obtain ⟨name, hread⟩ := exists_read_of_foldlM hgathered m.entry (List.mem_map_of_mem hm)
  exact unreadable name hread

end Wire

end LiveRuns
