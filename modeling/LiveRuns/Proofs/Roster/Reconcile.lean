import LiveRuns.Proofs.Roster.Clamp

/-!
One event on a list within the bounds.

An event on a listed run changes that run where it stands and nothing else, whatever the kind of
the event; an event on any other run puts it in front, and what is then too many falls off the end.
`reconcile_eq` is the whole of `reconcile` on such lists, and what is said of many events rests on
it alone.
-/

namespace LiveRuns.Roster

/-- The list with a patch merged into the runs that have its id. -/
def amend (patch : Run) (runs : List Run) : List Run :=
  runs.map fun run => if run.id = patch.id then run.merge patch else run

@[simp] theorem id_merge (run patch : Run) : (run.merge patch).id = run.id := rfl

@[simp] theorem ids_amend (patch : Run) (runs : List Run) : ids (amend patch runs) = ids runs := by
  rw [amend, ids, ids, List.map_map]
  refine List.map_congr_left (fun run _ => ?_)
  by_cases h : run.id = patch.id <;> simp [h]

theorem length_amend (patch : Run) (runs : List Run) : (amend patch runs).length = runs.length :=
  List.length_map ..

theorem amend_of_not_mem {patch : Run} {runs : List Run} (h : patch.id ∉ ids runs) :
    amend patch runs = runs := by
  have hother : ∀ run ∈ runs, (if run.id = patch.id then run.merge patch else run) = run := by
    intro run hrun
    have hid : run.id ∈ ids runs := List.mem_map_of_mem hrun
    have hne : run.id ≠ patch.id := fun heq => h (heq ▸ hid)
    rw [if_neg hne]
  rw [amend, List.map_congr_left hother, List.map_id']

theorem mergeInto?_eq {runs : List Run} (h : (ids runs).Nodup) (patch : Run) :
    mergeInto? patch runs = if patch.id ∈ ids runs then some (amend patch runs) else none := by
  induction runs with
  | nil => rfl
  | cons run runs ih =>
    obtain ⟨hnot, htail⟩ := List.nodup_cons.mp h
    by_cases hrun : run.id = patch.id
    · -- No later run has the id, so the first one is the only one to be amended.
      have hrest : amend patch runs = runs := amend_of_not_mem (hrun ▸ hnot)
      have hamend : amend patch (run :: runs) = run.merge patch :: amend patch runs := by
        simp [amend, hrun]
      rw [mergeInto?, if_pos hrun, hamend, hrest, if_pos (by simp [hrun])]
    · have hamend : amend patch (run :: runs) = run :: amend patch runs := by
        simp [amend, hrun]
      rw [mergeInto?, if_neg hrun, ih htail, hamend]
      by_cases hmem : patch.id ∈ ids runs <;> simp [hmem, Ne.symm hrun]

theorem Bounded.amend {capacity : Nat} {runs : List Run} (h : Bounded capacity runs) (patch : Run) :
    Bounded capacity (amend patch runs) := by
  constructor
  · rw [length_amend]
    exact h.length_le
  · rw [ids_amend]
    exact h.nodup_ids

theorem reconcile_eq {capacity : Nat} {runs : List Run} (h : Bounded capacity runs)
    (event : RunEvent) :
    reconcile runs event capacity =
      if event.data.id ∈ ids runs then amend event.data runs
      else (event.data :: runs).take capacity := by
  rw [reconcile, mergeInto?_eq h.nodup_ids]
  by_cases hmem : event.data.id ∈ ids runs
  · rw [if_pos hmem, if_pos hmem, Option.getD_some, (h.amend event.data).clamp_eq]
  · have hnodup : (ids (event.data :: runs)).Nodup := List.nodup_cons.mpr ⟨hmem, h.nodup_ids⟩
    rw [if_neg hmem, if_neg hmem, Option.getD_none, clamp_of_nodup hnodup]

end LiveRuns.Roster
