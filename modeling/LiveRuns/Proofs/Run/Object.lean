import LiveRuns.Proofs.Fields
import LiveRuns.Proofs.Run.Wire

/-!
Runs as objects.

A run that has been decoded keeps no extra member under the name of a typed one, and merging such
runs does not change that, `Known.apart`.  So no name stands twice among the members that are
written, `nodup_names_members`, and a name has the value of its field or else that of the extra
member, `get?_object`.  Both are merged by one rule, so merging runs is laying the object of the
patch, without its id, over the object of the run.
-/

namespace LiveRuns.Run

open LiveRuns.Json (Tree Value)

/-- A run that has been decoded, or merged from such runs. -/
inductive Known : Run → Prop where
  | decoded {room : Nat} {tree : Tree} {run : Run} (h : decoder room tree = .ok run) : Known run
  | merged {run patch : Run} (hrun : Known run) (hpatch : Known patch) : Known (run.merge patch)

/-- No extra member has the name of a typed one. -/
def Apart (run : Run) : Prop := ∀ name ∈ typedNames, run.extra.get? name = none

def object (run : Run) : Fields Value := .ofList run.members

def typed? (name : String) (run : Run) : Option Value :=
  if name = "id" then some (.text run.id)
  else if name = "agentId" then run.agentId.map fun s => .text s
  else if name = "status" then run.status.map fun status => .text status.name
  else if name = "startedAt" then run.startedAt.map fun t => .text t.text
  else if name = "updatedAt" then run.updatedAt.map fun t => .text t.text
  else none

/-! ## Extra members stay apart -/

theorem apart_of_decoder {room : Nat} {tree : Tree} {run : Run} (h : decoder room tree = .ok run) :
    Apart run := by
  obtain ⟨below, -, hsound⟩ := soundExtra_of_decoder h
  intro name hname
  refine lookup_eq_none_iff_names.mpr fun hmem => ?_
  obtain ⟨member, hmember, rfl⟩ := List.mem_map.mp hmem
  exact (hsound member hmember).1 hname

theorem Apart.merge {run patch : Run} (hrun : Apart run) (hpatch : Apart patch) :
    Apart (run.merge patch) := by
  intro name hname
  show (run.extra.overlay patch.extra).get? name = none
  rw [Fields.get?_overlay, hrun name hname, hpatch name hname]
  rfl

theorem Known.apart {run : Run} (h : Known run) : Apart run := by
  induction h with
  | decoded h => exact apart_of_decoder h
  | merged _ _ ihrun ihpatch => exact ihrun.merge ihpatch

/-! ## The members that are written -/

theorem names_member?_sublist {α : Type} (name : String) (write : α → String) (part : Option α) :
    ((member? name write part).map Prod.fst).Sublist [name] := by
  cases part with
  | none => exact List.nil_sublist _
  | some a => exact List.Sublist.refl _

theorem names_typedMembers_sublist (run : Run) :
    (run.typedMembers.map Prod.fst).Sublist typedNames := by
  simp only [typedMembers, List.map_cons, List.map_append]
  exact List.Sublist.cons_cons "id" ((((names_member?_sublist ..).append
    (names_member?_sublist ..)).append (names_member?_sublist ..)).append
      (names_member?_sublist ..))

theorem nodup_names_members {run : Run} (h : Apart run) : (run.members.map Prod.fst).Nodup := by
  rw [members, List.map_append]
  refine List.nodup_append.mpr ⟨?_, run.extra.ascending.nodup_names, ?_⟩
  · have hnames : typedNames.Nodup := by decide
    exact hnames.sublist (names_typedMembers_sublist run)
  · rintro name htyped other hextra rfl
    have hname : name ∈ typedNames := (names_typedMembers_sublist run).subset htyped
    exact lookup_eq_none_iff_names.mp (h name hname) hextra

theorem lookup_member? {α : Type} (name other : String) (write : α → String) (part : Option α) :
    (member? other write part).lookup name =
      if other = name then part.map fun a => .text (write a) else none := by
  cases part with
  | none => simp [member?]
  | some a => exact lookup_cons_ite name (other, Value.text (write a)) []

theorem typed?_eq_none {name : String} (h : name ∉ typedNames) (run : Run) :
    run.typed? name = none := by
  simp only [typedNames, List.mem_cons, List.not_mem_nil, or_false, not_or] at h
  obtain ⟨id, agentId, status, startedAt, updatedAt⟩ := h
  rw [typed?, if_neg id, if_neg agentId, if_neg status, if_neg startedAt, if_neg updatedAt]

theorem lookup_typedMembers (name : String) (run : Run) :
    run.typedMembers.lookup name = run.typed? name := by
  by_cases h : name ∈ typedNames
  · simp only [typedNames, List.mem_cons, List.not_mem_nil, or_false] at h
    rcases h with rfl | rfl | rfl | rfl | rfl <;>
      simp [typedMembers, lookup_cons_ite, List.lookup_append, lookup_member?, typed?]
  · rw [typed?_eq_none h]
    exact lookup_eq_none_iff_names.mpr fun hmem => h ((names_typedMembers_sublist run).subset hmem)

/-- A name has the value of its field, or else of the extra member. -/
theorem get?_object {run : Run} (h : Apart run) (name : String) :
    run.object.get? name = (run.typed? name).or (run.extra.get? name) := by
  rw [object, Fields.get?_ofList (nodup_names_members h), members, List.lookup_append,
    lookup_typedMembers]
  rfl

theorem get?_object_iff {run : Run} (h : Apart run) {name : String} {value : Value} :
    run.object.get? name = some value ↔ (name, value) ∈ run.members := by
  rw [object, Fields.get?_ofList (nodup_names_members h)]
  exact lookup_eq_some_iff_mem (nodup_names_members h)

theorem typed?_merge (name : String) (run patch : Run) :
    (run.merge patch).typed? name =
      if name = "id" then run.typed? name else (patch.typed? name).or (run.typed? name) := by
  simp only [typed?, merge]
  split_ifs <;> simp [Option.map_or]

/-! ## Merging as laying objects over one another -/

theorem nodup_names_filter {p : String × Value → Bool} {entries : List (String × Value)}
    (h : (entries.map Prod.fst).Nodup) : ((entries.filter p).map Prod.fst).Nodup :=
  h.sublist (List.filter_sublist.map Prod.fst)

theorem object_merge_of_apart {run patch : Run} (hrun : Apart run) (hpatch : Apart patch) :
    (run.merge patch).object =
      run.object.overlay (.ofList (patch.members.filter fun m => m.1 ≠ "id")) := by
  refine Fields.ext_get? fun name => ?_
  have hnames := nodup_names_filter (p := fun m => m.1 ≠ "id") (nodup_names_members hpatch)
  have hmembers : patch.members.lookup name =
      (patch.typed? name).or (patch.extra.get? name) := by
    rw [← get?_object hpatch, object, Fields.get?_ofList (nodup_names_members hpatch)]
  have hextra : (run.merge patch).extra.get? name =
      (patch.extra.get? name).or (run.extra.get? name) := Fields.get?_overlay ..
  rw [get?_object (hrun.merge hpatch), Fields.get?_overlay, Fields.get?_ofList hnames,
    lookup_filter_ne, hmembers, get?_object hrun, typed?_merge, hextra]
  by_cases htyped : name ∈ typedNames
  · -- No extra member is asked for.
    rw [hrun name htyped, hpatch name htyped]
    by_cases hid : name = "id"
    · simp [hid]
    · simp [hid]
  · -- Only extra members are asked for.
    have hid : name ≠ "id" := fun heq => htyped (heq ▸ List.mem_cons_self)
    rw [typed?_eq_none htyped, typed?_eq_none htyped, if_neg hid, if_neg hid]
    simp

/-- The object that is written for a merged run is that of the run with all members of the object of
the patch but the id laid over it, key by key.  And no extra member of a run has the name of a typed
one, so no name stands twice among the members that are written; these are just the entries of the
object, in which a name has the value of its field or else of the extra member. -/
theorem object_merge :
    (∀ run patch : Run, Known run → Known patch →
      (run.merge patch).object =
        run.object.overlay (.ofList (patch.members.filter fun m => m.1 ≠ "id"))) ∧
      ∀ run : Run, Known run →
        (∀ name ∈ typedNames, run.extra.get? name = none) ∧
          (run.members.map Prod.fst).Nodup ∧
            (∀ name value, run.object.get? name = some value ↔ (name, value) ∈ run.members) ∧
              ∀ name, run.object.get? name = (run.typed? name).or (run.extra.get? name) := by
  constructor
  · intro run patch hrun hpatch
    exact object_merge_of_apart hrun.apart hpatch.apart
  · intro run hrun
    have hapart := hrun.apart
    exact ⟨hapart, nodup_names_members hapart, fun _ _ => get?_object_iff hapart,
      get?_object hapart⟩

def ofNote : Run :=
  ⟨"r", some "a", none, none, none, .ofList [("note", .text "n"), ("tag", .bool true)]⟩

/-- A patch of another id in which the note is `null`. -/
def ofNoNote : Run := ⟨"x", none, some .failed, none, none, .ofList [("note", .null)]⟩

theorem object_merge_noted :
    Known (ofNote.merge ofNote) ∧ Known ofNoNote ∧
      ((ofNote.merge ofNote).merge ofNoNote).object =
        (ofNote.merge ofNote).object.overlay
          (.ofList (ofNoNote.members.filter fun m => m.1 ≠ "id")) ∧
      ((ofNote.merge ofNote).merge ofNoNote).object.entries =
        [("agentId", .text "a"), ("id", .text "r"), ("note", .null), ("status", .text "failed"),
          ("tag", .bool true)] ∧
      (∀ name ∈ typedNames, ofNote.extra.get? name = none) ∧
      (ofNote.members.map Prod.fst).Nodup ∧ ("tag", .bool true) ∈ ofNote.members := by
  have hnote : decoder 1 (.object [(.ofText "tag", .bool true),
      (.ofText "agentId", .text (.ofText "a")), (.ofText "note", .text (.ofText "n")),
      (.ofText "id", .text (.ofText "r"))] .closed) = .ok ofNote := by cbv
  have hnoNote : decoder 1 (.object [(.ofText "id", .text (.ofText "x")), (.ofText "note", .null),
      (.ofText "agentId", .null), (.ofText "status", .text (.ofText "failed"))] .closed) =
        .ok ofNoNote := by cbv
  have hrun : Known (ofNote.merge ofNote) := .merged (.decoded hnote) (.decoded hnote)
  obtain ⟨hmerge, hknown⟩ := object_merge
  obtain ⟨hapart, hnodup, hobject, -⟩ := hknown ofNote (.decoded hnote)
  exact ⟨hrun, .decoded hnoNote, hmerge _ _ hrun (.decoded hnoNote), by cbv, hapart, hnodup,
    (hobject "tag" (.bool true)).1 (by cbv)⟩

end LiveRuns.Run
