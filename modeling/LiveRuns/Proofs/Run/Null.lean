import LiveRuns.Proofs.Run.Wire

/-!
Members that are `null`.

A typed member of a run may be `null` instead of absent.  Such a member is blank: it takes its place
in the draft of the run, `Draft.add_of_blank`, what comes from elsewhere does not depend on it,
`Draft.add_blank`, and in the end it counts as absent, `Draft.finish_blank`.  So blank members may
be left out of an object if no other member has their name, `decoder_filter_append`; and in an
object that can be decoded no other member has, `single_of_decoder`, since a typed member comes only
once.
-/

namespace LiveRuns.Run

open LiveRuns.Json (Tree Literal ObjectEnd)

def optionalNames : List String := ["agentId", "status", "startedAt", "updatedAt"]

/-- Whether a member only says that a typed member is absent. -/
def Blank (member : Literal × Tree) : Prop :=
  member.2 = .null ∧ ∃ name ∈ optionalNames, member.1.read = .ok name

namespace Draft

def has (name : String) (draft : Draft) : Bool :=
  if name = "id" then draft.id.isSome
  else if name = "agentId" then draft.agentId.isSome
  else if name = "status" then draft.status.isSome
  else if name = "startedAt" then draft.startedAt.isSome
  else if name = "updatedAt" then draft.updatedAt.isSome
  else false

def blank (name : String) (draft : Draft) : Draft :=
  if name = "agentId" then { draft with agentId := some none }
  else if name = "status" then { draft with status := some none }
  else if name = "startedAt" then { draft with startedAt := some none }
  else if name = "updatedAt" then { draft with updatedAt := some none }
  else draft

/-- What is added to a draft next to a blank member does not depend on it. -/
theorem add_blank {room : Nat} {name : String} (hname : name ∈ optionalNames) (draft : Draft)
    {member : Literal × Tree} (hother : member.1.read ≠ .ok name) :
    (draft.blank name).add room member = blank name <$> draft.add room member := by
  obtain ⟨key, value⟩ := member
  cases hread : key.read with
  | error fault =>
    simp only [add, hread, Wire.form]
    rfl
  | ok n =>
    have hn : n ≠ name := fun heq => hother (heq ▸ hread)
    simp only [add, hread, Wire.form]
    show (if n = "id" then _ else _) = blank name <$> (if n = "id" then _ else _)
    simp only [optionalNames, List.mem_cons, List.not_mem_nil, or_false] at hname
    rcases hname with rfl | rfl | rfl | rfl <;> split_ifs <;> simp only [map_bind] <;> rfl

theorem add_of_blank {room : Nat} {name : String} (hname : name ∈ optionalNames) (draft : Draft)
    {key : Literal} (hread : key.read = .ok name) :
    draft.add room (key, .null) =
      if draft.has name then .error (.repeated name) else .ok (draft.blank name) := by
  simp only [add, hread, Wire.form]
  simp only [optionalNames, List.mem_cons, List.not_mem_nil, or_false] at hname
  rcases hname with rfl | rfl | rfl | rfl
  · cases h : draft.agentId <;> simp [has, once, blank, h] <;> rfl
  · cases h : draft.status <;> simp [has, once, blank, h] <;> rfl
  · cases h : draft.startedAt <;> simp [has, once, blank, h] <;> rfl
  · cases h : draft.updatedAt <;> simp [has, once, blank, h] <;> rfl

theorem once_eq_ok {α : Type} {name : String} {seen : Option α} :
    once name seen = .ok () ↔ seen = none := by
  cases seen with
  | none => exact ⟨fun _ => rfl, fun _ => rfl⟩
  | some a => exact ⟨nofun, nofun⟩

/-- What a member takes: its place, which was free, if it is a typed one, and no other. -/
theorem add_cases {room : Nat} {draft draft' : Draft} {member : Literal × Tree}
    (h : draft.add room member = .ok draft') :
    ∃ name, member.1.read = .ok name ∧ draft.has name = false ∧
      (name ∈ typedNames → draft'.has name = true) ∧
        ∀ other, other ≠ name → draft'.has other = draft.has other := by
  obtain ⟨name, hread, h⟩ := bind_eq_ok.1 h
  refine ⟨name, Wire.form_eq_ok.1 hread, ?_⟩
  split_ifs at h with id agentId status startedAt updatedAt
  case neg =>
    obtain ⟨value, -, h⟩ := bind_eq_ok.1 h
    cases h
    exact ⟨by simp [has, *], by simp [typedNames, *], fun other _ => rfl⟩
  all_goals
    obtain ⟨_, hplace, h⟩ := bind_eq_ok.1 h
    obtain ⟨value, -, h⟩ := bind_eq_ok.1 h
    cases h
    have hfree := once_eq_ok.1 hplace
    subst name
    exact ⟨by simp [has, hfree], fun _ => by simp [has], fun other hother => by simp [has, hother]⟩

theorem finish_blank {name : String} (hname : name ∈ optionalNames) {draft : Draft}
    (hfree : draft.has name = false) : (draft.blank name).finish = draft.finish := by
  simp only [optionalNames, List.mem_cons, List.not_mem_nil, or_false] at hname
  rcases hname with rfl | rfl | rfl | rfl
  · have hnone : draft.agentId = none := by simpa [has] using hfree
    simp [blank, finish, hnone]
  · have hnone : draft.status = none := by simpa [has] using hfree
    simp [blank, finish, hnone]
  · have hnone : draft.startedAt = none := by simpa [has] using hfree
    simp [blank, finish, hnone]
  · have hnone : draft.updatedAt = none := by simpa [has] using hfree
    simp [blank, finish, hnone]

/-- A place stays free as long as no member of its name comes. -/
theorem has_foldlM {room : Nat} {name : String} {members : List (Literal × Tree)}
    (hother : ∀ m ∈ members, m.1.read ≠ .ok name) {draft draft' : Draft}
    (h : members.foldlM (add room) draft = .ok draft') : draft'.has name = draft.has name := by
  induction members generalizing draft with
  | nil =>
    cases h
    rfl
  | cons m members ih =>
    obtain ⟨hm, hothers⟩ := List.forall_mem_cons.1 hother
    rw [List.foldlM_cons] at h
    obtain ⟨next, hadd, h⟩ := bind_eq_ok.1 h
    obtain ⟨read, hread, -, -, hkept⟩ := add_cases hadd
    have hne : name ≠ read := fun heq => hm (heq ▸ hread)
    rw [ih hothers h, hkept name hne]

theorem foldlM_blank {room : Nat} {name : String} (hname : name ∈ optionalNames)
    {members : List (Literal × Tree)} (hother : ∀ m ∈ members, m.1.read ≠ .ok name)
    (draft : Draft) :
    members.foldlM (add room) (draft.blank name) =
      blank name <$> members.foldlM (add room) draft := by
  induction members generalizing draft with
  | nil => rfl
  | cons m members ih =>
    obtain ⟨hm, hothers⟩ := List.forall_mem_cons.1 hother
    rw [List.foldlM_cons, List.foldlM_cons, add_blank hname draft hm]
    cases draft.add room m with
    | error e => rfl
    | ok next => exact ih hothers next

end Draft

/-! ## Leaving blank members out -/

/-- The only member of its name, if it is blank, may be left out of an object. -/
theorem decoder_of_blank {room : Nat} {name : String} (hname : name ∈ optionalNames)
    {key : Literal} (hread : key.read = .ok name) {front back : List (Literal × Tree)}
    (hother : ∀ m ∈ front ++ back, m.1.read ≠ .ok name) (ending : ObjectEnd) :
    decoder room (.object (front ++ (key, .null) :: back) ending) =
      decoder room (.object (front ++ back) ending) := by
  cases room with
  | zero => rfl
  | succ room =>
    show (List.foldlM (Draft.add room) {} (front ++ (key, .null) :: back) >>= _) =
      (List.foldlM (Draft.add room) {} (front ++ back) >>= _)
    rw [List.foldlM_append, List.foldlM_append]
    cases hfront : front.foldlM (Draft.add room) {} with
    | error e => rfl
    | ok draft =>
      -- The place is free when the member comes, and is still free in the end if it is left out.
      have hfree : draft.has name = false := by
        rw [Draft.has_foldlM (List.forall_mem_append.1 hother).1 hfront]
        simp [Draft.has]
      have hadd : draft.add room (key, .null) = .ok (draft.blank name) := by
        rw [Draft.add_of_blank hname draft hread, hfree]
        rfl
      show (List.foldlM (Draft.add room) draft ((key, .null) :: back) >>= _) =
        (List.foldlM (Draft.add room) draft back >>= _)
      rw [List.foldlM_cons, hadd]
      show (List.foldlM (Draft.add room) (draft.blank name) back >>= _) = _
      rw [Draft.foldlM_blank hname (List.forall_mem_append.1 hother).2]
      cases hback : back.foldlM (Draft.add room) draft with
      | error e => rfl
      | ok draft' =>
        have hfree' : draft'.has name = false := by
          rw [Draft.has_foldlM (List.forall_mem_append.1 hother).2 hback, hfree]
        show (Wire.form ending.close >>= fun _ => (draft'.blank name).finish) =
          (Wire.form ending.close >>= fun _ => draft'.finish)
        rw [Draft.finish_blank hname hfree']

/-- No member that is left out shares its name with another. -/
def Single (drop : Literal × Tree → Bool) (members : List (Literal × Tree)) : Prop :=
  members.Pairwise fun a b => drop a = true ∨ drop b = true → a.1.read ≠ b.1.read

theorem single_of_nodup {members : List (Literal × Tree)}
    (h : (members.map fun m => m.1.read).Nodup) (drop : Literal × Tree → Bool) :
    Single drop members := by
  refine (List.pairwise_map.1 h).imp ?_
  intro a b hne _
  exact hne

theorem Single.ne_of_mem {drop : Literal × Tree → Bool} {front back : List (Literal × Tree)}
    {member : Literal × Tree} (h : Single drop (front ++ member :: back))
    (hdrop : drop member = true) : ∀ m ∈ front ++ back, m.1.read ≠ member.1.read := by
  obtain ⟨-, hback, hfront⟩ := List.pairwise_append.1 h
  refine List.forall_mem_append.2 ⟨fun m hm => ?_, fun m hm => ?_⟩
  · exact hfront m hm member List.mem_cons_self (.inr hdrop)
  · exact ((List.pairwise_cons.1 hback).1 m hm (.inl hdrop)).symm

/-- Blank members, each the only one of its name, may be left out of an object. -/
theorem decoder_filter_append {room : Nat} {drop : Literal × Tree → Bool}
    (front : List (Literal × Tree)) {members : List (Literal × Tree)}
    (hblank : ∀ m ∈ members, drop m = true → Blank m) (hsingle : Single drop (front ++ members))
    (ending : ObjectEnd) :
    decoder room (.object (front ++ members.filter fun m => !drop m) ending) =
      decoder room (.object (front ++ members) ending) := by
  induction members generalizing front with
  | nil => rfl
  | cons m members ih =>
    obtain ⟨hm, hblank⟩ := List.forall_mem_cons.1 hblank
    by_cases hdrop : drop m = true
    · -- The members before it are those that are kept, and those after it are all still there.
      obtain ⟨hnull, name, hname, hread⟩ := hm hdrop
      have hother : ∀ other ∈ front ++ members, other.1.read ≠ .ok name :=
        hread ▸ hsingle.ne_of_mem hdrop
      have hkept : Single drop (front ++ members) :=
        hsingle.sublist ((List.sublist_cons_self m members).append_left front)
      have hmember : m = (m.1, .null) := Prod.ext rfl hnull
      rw [List.filter_cons_of_neg (by simp [hdrop]), ih _ hblank hkept, hmember,
        decoder_of_blank hname hread hother]
    · rw [List.filter_cons_of_pos (by simp [hdrop]), List.append_cons front m members,
        ← ih _ hblank (by rwa [← List.append_cons]), ← List.append_cons]

/-- A typed member of a run that can be decoded stands once. -/
theorem pairwise_of_foldlM {room : Nat} {members : List (Literal × Tree)} {draft draft' : Draft}
    (h : members.foldlM (Draft.add room) draft = .ok draft') :
    (members.Pairwise fun a b => ∀ name ∈ typedNames, a.1.read = .ok name → b.1.read ≠ .ok name) ∧
      ∀ m ∈ members, ∀ name, m.1.read = .ok name → draft.has name = false := by
  induction members generalizing draft with
  | nil => exact ⟨.nil, nofun⟩
  | cons m members ih =>
    rw [List.foldlM_cons] at h
    obtain ⟨next, hadd, h⟩ := bind_eq_ok.1 h
    obtain ⟨read, hread, hfree, htaken, hkept⟩ := Draft.add_cases hadd
    obtain ⟨hlater, hfrees⟩ := ih h
    refine ⟨List.pairwise_cons.2 ⟨fun b hb name hname hm hb' => ?_, hlater⟩,
      List.forall_mem_cons.2 ⟨fun name hm => ?_, fun b hb name hb' => ?_⟩⟩
    · -- The member has taken the place that a later one of its name would have to find free.
      obtain rfl : read = name := Except.ok.inj (hread.symm.trans hm)
      rw [hfrees b hb read hb'] at htaken
      exact absurd (htaken hname) (by simp)
    · obtain rfl : read = name := Except.ok.inj (hread.symm.trans hm)
      exact hfree
    · by_cases hname : name = read
      · exact hname ▸ hfree
      · rw [← hkept name hname]
        exact hfrees b hb name hb'

theorem single_of_decoder {room : Nat} {members : List (Literal × Tree)} {ending : ObjectEnd}
    {run : Run} (h : decoder room (.object members ending) = .ok run)
    {drop : Literal × Tree → Bool} (hblank : ∀ m ∈ members, drop m = true → Blank m) :
    Single drop members := by
  cases room with
  | zero => cases h
  | succ room =>
    obtain ⟨draft, hgathered, -⟩ := bind_eq_ok.1 h
    have htyped : ∀ name ∈ optionalNames, name ∈ typedNames := fun name => List.mem_cons_of_mem _
    refine (pairwise_of_foldlM hgathered).1.imp_of_mem fun {a b} ha hb honce hdrop heq => ?_
    rcases hdrop with hdrop | hdrop
    · obtain ⟨-, name, hname, hread⟩ := hblank a ha hdrop
      exact honce name (htyped name hname) hread (heq ▸ hread)
    · obtain ⟨-, name, hname, hread⟩ := hblank b hb hdrop
      exact honce name (htyped name hname) (heq ▸ hread) hread

end LiveRuns.Run
