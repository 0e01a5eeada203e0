import LiveRuns.Proofs.Fields
import LiveRuns.Proofs.Run.Null

/-!
Patches merged into a run.

Each part of a run is merged for itself: the part of the patch counts if the patch has one, and else
that of the run.  So after any number of patches a part is what the last patch that has it says,
`part_foldl_merge`, and merging is associative and idempotent.  What `null` means depends on the
member: a typed member that is `null` may be left out, while an extra one has the value `null`, which
replaces what was there.
-/

namespace LiveRuns.Run

open LiveRuns.Json (Tree Literal Value treesOfMembers)

def extra? (name : String) (run : Run) : Option Value := run.extra.get? name

/-- What the last patch that has a part says of it, or else what the run says. -/
def latest? {α : Type} (part : Run → Option α) (run : Run) (patches : List Run) : Option α :=
  (patches.filterMap part).getLast?.or (part run)

/-- The run has the id of the base, and every other part from the last patch that has it, or else
from the base. -/
structure Latest (base : Run) (patches : List Run) (run : Run) : Prop where
  id : run.id = base.id
  agentId : run.agentId = latest? Run.agentId base patches
  status : run.status = latest? Run.status base patches
  startedAt : run.startedAt = latest? Run.startedAt base patches
  updatedAt : run.updatedAt = latest? Run.updatedAt base patches
  extra : ∀ name value, (name, value) ∈ run.extra.entries ↔
    latest? (extra? name) base patches = some value

/-! ## One patch after the other -/

theorem merge_assoc (a b c : Run) : (a.merge b).merge c = a.merge (b.merge c) := by
  simp only [merge, Option.or_assoc, Fields.overlay_assoc]

theorem merge_self (a : Run) : a.merge a = a := by
  simp only [merge, Option.or_self, Fields.overlay_self]

theorem extra?_merge (name : String) (run patch : Run) :
    (run.merge patch).extra? name = (patch.extra? name).or (run.extra? name) :=
  Fields.get?_overlay run.extra patch.extra name

theorem mem_extra_iff {run : Run} {name : String} {value : Value} :
    (name, value) ∈ run.extra.entries ↔ run.extra? name = some value :=
  (lookup_eq_some_iff_mem run.extra.ascending.nodup_names).symm

theorem latest?_concat {α : Type} (part : Run → Option α) (run : Run) (patches : List Run)
    (patch : Run) :
    latest? part run (patches ++ [patch]) = (part patch).or (latest? part run patches) := by
  rw [latest?, latest?, List.filterMap_append]
  cases hpatch : part patch with
  | none => simp [hpatch]
  | some value => simp [hpatch]

/-- A part for which a patch counts before the run has the value of the last patch that has it. -/
theorem part_foldl_merge {α : Type} {part : Run → Option α}
    (hpart : ∀ run patch, part (run.merge patch) = (part patch).or (part run)) (run : Run)
    (patches : List Run) : part (patches.foldl merge run) = latest? part run patches := by
  induction patches using List.reverseRecOn with
  | nil => rfl
  | append_singleton patches patch ih =>
    rw [List.foldl_append, List.foldl_cons, List.foldl_nil, hpart, ih, latest?_concat]

theorem id_foldl_merge (run : Run) (patches : List Run) :
    (patches.foldl merge run).id = run.id := by
  induction patches generalizing run with
  | nil => rfl
  | cons patch patches ih => exact ih (run.merge patch)

theorem latest_merged (base : Run) (patches : List Run) :
    Latest base patches (patches.foldl merge base) where
  id := id_foldl_merge base patches
  agentId := part_foldl_merge (fun _ _ => rfl) base patches
  status := part_foldl_merge (fun _ _ => rfl) base patches
  startedAt := part_foldl_merge (fun _ _ => rfl) base patches
  updatedAt := part_foldl_merge (fun _ _ => rfl) base patches
  extra := fun name value => by
    rw [mem_extra_iff, part_foldl_merge (extra?_merge name)]

/-! ## The law of merging -/

/-- A run is read from the members that are written for it, with any blank ones added. -/
theorem decoder_of_written {room : Nat} {run : Run} (hsound : SoundExtra room run.extra)
    (hfree : run.FloatFree) {members : List (Literal × Tree)} {drop : Literal × Tree → Bool}
    (hblank : ∀ m ∈ members, drop m = true → Blank m) (hsingle : Single drop members)
    (hwritten : (members.filter fun m => !drop m) = treesOfMembers run.members) :
    decoder (room + 1) (.object members .closed) = .ok run := by
  have hsame : decoder (room + 1) (.object (members.filter fun m => !drop m) .closed) =
      decoder (room + 1) (.object members .closed) :=
    decoder_filter_append [] hblank hsingle .closed
  rw [← hsame, hwritten]
  exact decoder_tree hsound hfree

/-- Patches merged in order: the run keeps its id, every other part is that of the last patch that
has it, and no extra member comes from elsewhere.  So it does not matter how the merging is grouped,
nor whether a patch is merged again.  Blank members of a patch may be left out: if it is decoded
with them, it is decoded as the same run without them; and if none of them shares its name with
another member, decoding has the same outcome with and without them, be it a run or an error, and
where the others are those that are written for a run, it is that run. -/
theorem latest_foldl_merge :
    (∀ base patches, Latest base patches (patches.foldl merge base)) ∧
      (∀ a b c : Run, a.merge (b.merge c) = (a.merge b).merge c) ∧
      (∀ a : Run, a.merge a = a) ∧
      (∀ a b : Run, (a.merge b).merge b = a.merge b) ∧
      ∀ (room : Nat) (members : List (Literal × Tree)) (drop : Literal × Tree → Bool),
        (∀ m ∈ members, drop m = true → Blank m) →
          (∀ ending run, decoder room (.object members ending) = .ok run →
            decoder room (.object (members.filter fun m => !drop m) ending) = .ok run) ∧
          (Single drop members →
            (∀ ending, decoder room (.object (members.filter fun m => !drop m) ending) =
              decoder room (.object members ending)) ∧
            ∀ run, SoundExtra room run.extra → run.FloatFree →
              (members.filter fun m => !drop m) = treesOfMembers run.members →
                decoder (room + 1) (.object members .closed) = .ok run) := by
  refine ⟨latest_merged, fun a b c => (merge_assoc a b c).symm, merge_self, fun a b => ?_,
    fun room members drop hblank => ⟨fun ending run hrun => ?_, fun hsingle => ⟨fun ending => ?_,
      fun run hsound hfree hwritten => ?_⟩⟩⟩
  · rw [merge_assoc, merge_self]
  · have hsingle : Single drop members := single_of_decoder hrun hblank
    rw [← hrun]
    exact decoder_filter_append [] hblank hsingle ending
  · exact decoder_filter_append [] hblank hsingle ending
  · exact decoder_of_written hsound hfree hblank hsingle hwritten

/-- A patch in which the agent is `null`, and so is an extra member. -/
def nulled : List (Literal × Tree) :=
  [(.ofText "id", .text (.ofText "r")), (.ofText "agentId", .null),
    (.ofText "status", .text (.ofText "failed")), (.ofText "note", .null)]

def dropsAgent (member : Literal × Tree) : Bool :=
  member.1 = .ofText "agentId" && member.2 matches .null

def ofNulled : Run := ⟨"r", none, some .failed, none, none, .ofList [("note", .null)]⟩

theorem latest_foldl_merge_nulled :
    Latest ((ofId "r").withAgent "a") [ofNulled, (ofId "x").withStatus .running, ofNulled]
        ⟨"r", some "a", some .failed, none, none, .ofList [("note", .null)]⟩ ∧
      (∀ m ∈ nulled, dropsAgent m = true → Blank m) ∧ Single dropsAgent nulled ∧
      (nulled.filter fun m => !dropsAgent m) = treesOfMembers ofNulled.members ∧
      SoundExtra 0 ofNulled.extra ∧ ofNulled.FloatFree ∧
      decoder 1 (.object nulled .closed) = .ok ofNulled ∧
      decoder 1 (.object (nulled.filter fun m => !dropsAgent m) .closed) = .ok ofNulled ∧
      decoder 1 (.object (nulled.filter fun m => !dropsAgent m) .comma) =
        decoder 1 (.object nulled .comma) := by
  have hblank : ∀ m ∈ nulled, dropsAgent m = true → Blank m := by
    intro m hm hdrop
    simp only [nulled, List.mem_cons, List.not_mem_nil, or_false] at hm
    rcases hm with rfl | rfl | rfl | rfl
    case inr.inl => exact ⟨rfl, "agentId", by decide, Literal.read_ofText "agentId"⟩
    all_goals exact absurd hdrop (by decide)
  have hnames : nulled.map (fun m => m.1.read) =
      [.ok "id", .ok "agentId", .ok "status", .ok "note"] := by
    simp [nulled]
  have hsingle : Single dropsAgent nulled := by
    refine single_of_nodup ?_ dropsAgent
    rw [hnames]
    decide
  have hwritten : (nulled.filter fun m => !dropsAgent m) = treesOfMembers ofNulled.members := by
    rfl
  have hsound : SoundExtra 0 ofNulled.extra := by
    intro m hm
    obtain rfl := List.mem_singleton.1 hm
    exact ⟨by decide, .null⟩
  have hfree : ofNulled.FloatFree := by
    intro m hm
    obtain rfl := List.mem_singleton.1 hm
    exact .null
  obtain ⟨hlatest, -, -, -, hnull⟩ := latest_foldl_merge
  obtain ⟨-, hread⟩ := hnull 0 nulled dropsAgent hblank
  obtain ⟨hkept, hsame⟩ := hnull 1 nulled dropsAgent hblank
  have hdecoded := (hread hsingle).2 ofNulled hsound hfree hwritten
  exact ⟨hlatest _ _, hblank, hsingle, hwritten, hsound, hfree, hdecoded,
    hkept .closed ofNulled hdecoded, (hsame hsingle).1 .comma⟩

end LiveRuns.Run
