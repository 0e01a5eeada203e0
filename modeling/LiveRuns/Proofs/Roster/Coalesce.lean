import LiveRuns.Proofs.Roster.History
import LiveRuns.Proofs.Run.Merge

/-!
Events in a row on one run.

An event makes its run stand in the list, if the list holds anything at all, and the next event on
the run is then merged into it there.  So two events in a row on one run are one event with the data
of both, `reconcile_reconcile`, and any number of them are one, `follow_cons_of_ids`.  An event that
is delivered again right after itself carries nothing new, so the list that follows does not tell
how often each event was delivered, `follow_redelivered`.
-/

namespace LiveRuns.Roster

/-- Each event as often in a row as it is delivered, once and some times more. -/
def redelivered (deliveries : List (RunEvent × Nat)) : List RunEvent :=
  deliveries.flatMap fun delivery => List.replicate (delivery.2 + 1) delivery.1

/-- The data of an event with that of later ones merged into it, in order. -/
def joined (event : RunEvent) (later : List RunEvent) : Run :=
  (later.map RunEvent.data).foldl Run.merge event.data

@[simp] theorem id_joined (event : RunEvent) (later : List RunEvent) :
    (joined event later).id = event.data.id :=
  Run.id_foldl_merge event.data _

/-! ## Two events -/

theorem amend_amend {first second : Run} (hid : second.id = first.id) (runs : List Run) :
    amend second (amend first runs) = amend (first.merge second) runs := by
  rw [amend, amend, amend, List.map_map]
  refine List.map_congr_left fun run _ => ?_
  by_cases h : run.id = first.id
  · simp [h, hid, Run.merge_assoc]
  · simp [h, hid]

/-- Two events in a row on one run are one event with the data of both merged, of whatever kind. -/
theorem reconcile_reconcile {capacity : Nat} {runs : List Run} (h : Bounded capacity runs)
    {first second : RunEvent} (hid : second.data.id = first.data.id) (kind : EventKind) :
    reconcile (reconcile runs first capacity) second capacity =
      reconcile runs ⟨kind, first.data.merge second.data⟩ capacity := by
  rw [reconcile_eq (bounded_reconcile runs first capacity), reconcile_eq h, reconcile_eq h, hid,
    id_merge]
  by_cases hmem : first.data.id ∈ ids runs
  · -- The run is listed, and both events change it where it stands.
    rw [if_pos hmem, ids_amend, if_pos hmem, if_pos hmem, amend_amend hid]
  · rw [if_neg hmem, if_neg hmem]
    cases capacity with
    | zero => rfl
    | succ capacity =>
      -- The first event puts the run in front, and what falls off the end does not matter.
      have hfront : first.data.id ∈ ids ((first.data :: runs).take (capacity + 1)) :=
        List.mem_cons_self
      have hrest : second.data.id ∉ ids (runs.take capacity) := by
        rw [hid, ids_take]
        exact fun hin => hmem (List.mem_of_mem_take hin)
      rw [if_pos hfront, List.take_succ_cons, List.take_succ_cons]
      show (if first.data.id = second.data.id then _ else _) :: amend second.data _ = _
      rw [if_pos hid.symm, amend_of_not_mem hrest]

theorem reconcile_again {capacity : Nat} {runs : List Run} (h : Bounded capacity runs)
    (event : RunEvent) :
    reconcile (reconcile runs event capacity) event capacity = reconcile runs event capacity := by
  rw [reconcile_reconcile h rfl event.kind, Run.merge_self]

/-! ## Many events -/

/-- Events in a row on one run are one event with the data of all of them. -/
theorem follow_cons_of_ids {capacity : Nat} {runs : List Run} (h : Bounded capacity runs)
    (event : RunEvent) {later : List RunEvent}
    (hids : ∀ other ∈ later, other.data.id = event.data.id) :
    follow capacity runs (event :: later) =
      reconcile runs ⟨event.kind, joined event later⟩ capacity := by
  induction later generalizing event with
  | nil => rfl
  | cons next later ih =>
    obtain ⟨hnext, hlater⟩ := List.forall_mem_cons.1 hids
    have hmerged := ih ⟨event.kind, event.data.merge next.data⟩ hlater
    rw [follow, List.foldl_cons, ← reconcile_reconcile h hnext event.kind] at hmerged
    rw [follow, List.foldl_cons, List.foldl_cons, hmerged]
    rfl

theorem follow_cons_eq {capacity : Nat} {runs : List Run} (h : Bounded capacity runs)
    (event : RunEvent) {later : List RunEvent}
    (hids : ∀ other ∈ later, other.data.id = event.data.id) :
    follow capacity runs (event :: later) =
      if event.data.id ∈ ids runs then amend (joined event later) runs
      else (joined event later :: runs).take capacity := by
  rw [follow_cons_of_ids h event hids, reconcile_eq h, id_joined]

theorem follow_replicate {capacity : Nat} {runs : List Run} (h : Bounded capacity runs)
    (event : RunEvent) (n : Nat) :
    follow capacity runs (List.replicate (n + 1) event) = reconcile runs event capacity := by
  induction n generalizing runs with
  | zero => rfl
  | succ n ih =>
    rw [List.replicate_succ, follow, List.foldl_cons, ← follow,
      ih (bounded_reconcile runs event capacity), reconcile_again h]

/-- How often in a row each event is delivered does not matter. -/
theorem follow_redelivered {capacity : Nat} {runs : List Run} (h : Bounded capacity runs)
    (deliveries : List (RunEvent × Nat)) :
    follow capacity runs (redelivered deliveries) =
      follow capacity runs (deliveries.map Prod.fst) := by
  induction deliveries generalizing runs with
  | nil => rfl
  | cons delivery deliveries ih =>
    obtain ⟨event, n⟩ := delivery
    rw [redelivered, List.flatMap_cons, ← redelivered, follow_append, follow_replicate h,
      ih (bounded_reconcile runs event capacity)]
    rfl

/-! ## The law of coalescing -/

/-- On a list within the bounds, whatever the capacity: two events in a row on one run, of any
kinds, are one event that carries the data of both merged; any number of events in a row on one run
merge their data, in order, into the run where it stands, or put it in front if it is not listed; an
event applied again right after itself changes nothing; and so the list after many events, each of
them delivered once or more often in a row, is the list after each of them once. -/
theorem follow_coalesce {capacity : Nat} {runs : List Run} (h : Bounded capacity runs) :
    (∀ (first second : RunEvent) (kind : EventKind), second.data.id = first.data.id →
      reconcile (reconcile runs first capacity) second capacity =
        reconcile runs ⟨kind, first.data.merge second.data⟩ capacity) ∧
      (∀ (event : RunEvent) (later : List RunEvent),
        (∀ other ∈ later, other.data.id = event.data.id) →
          follow capacity runs (event :: later) =
            if event.data.id ∈ ids runs then amend (joined event later) runs
            else (joined event later :: runs).take capacity) ∧
      (∀ event : RunEvent,
        reconcile (reconcile runs event capacity) event capacity =
          reconcile runs event capacity) ∧
      ∀ deliveries : List (RunEvent × Nat),
        follow capacity runs (redelivered deliveries) =
          follow capacity runs (deliveries.map Prod.fst) :=
  ⟨fun _ _ kind hid => reconcile_reconcile h hid kind,
    fun event _ hids => follow_cons_eq h event hids, reconcile_again h, follow_redelivered h⟩

/-- `c` comes into a full list and pushes `b` out. -/
def begun : RunEvent := ⟨.start, (Run.ofId "c").withAgent "x"⟩

def ended : RunEvent := ⟨.complete, (Run.ofId "c").withStatus .completed⟩

theorem follow_coalesce_full :
    Bounded 2 [.ofId "a", .ofId "b"] ∧
      ids (reconcile [.ofId "a", .ofId "b"] begun 2) = ["c", "a"] ∧
      ended.data.id = begun.data.id ∧
      reconcile (reconcile [.ofId "a", .ofId "b"] begun 2) ended 2 =
        reconcile [.ofId "a", .ofId "b"] ⟨.error, begun.data.merge ended.data⟩ 2 ∧
      (∀ other ∈ [ended, begun], other.data.id = begun.data.id) ∧
      follow 2 [.ofId "a", .ofId "b"] [begun, ended, begun] =
        [((Run.ofId "c").withAgent "x").withStatus .completed, .ofId "a"] ∧
      redelivered [(begun, 1), (ended, 2)] = [begun, begun, ended, ended, ended] ∧
      follow 2 [.ofId "a", .ofId "b"] [begun, begun, ended, ended, ended] =
        follow 2 [.ofId "a", .ofId "b"] [begun, ended] := by
  have hbounded : Bounded 2 [.ofId "a", .ofId "b"] := ⟨by decide, by decide⟩
  have hids : ∀ other ∈ [ended, begun], other.data.id = begun.data.id := by decide
  obtain ⟨htwo, hmany, -, hredelivered⟩ := follow_coalesce hbounded
  exact ⟨hbounded, by decide, rfl, htwo begun ended .error rfl, hids,
    (hmany begun [ended, begun] hids).trans (by rfl), rfl, hredelivered [(begun, 1), (ended, 2)]⟩

end LiveRuns.Roster
