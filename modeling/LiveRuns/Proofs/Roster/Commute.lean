import LiveRuns.Proofs.Roster.History

/-!
Events on different runs, in either order.

An event on a listed run does not mind what happens to the others, unless one of them comes in and
pushes its run over the end of the list.  `reconcile_comm_iff` says when the order of two events on
different runs does not matter: in a list that can hold anything, exactly if the event on one of
them leaves the other in the list.  So it is enough that both are listed, or that one is and there
is room for the other, `reconcile_comm_of_room`; and events on listed runs can come in any order at
all, `follow_perm`.
-/

namespace LiveRuns.Roster

variable {capacity : Nat} {runs : List Run} {first second : RunEvent}

/-! ## Amending and coming in -/

/-- Amending two different runs changes each where it stands. -/
theorem amend_comm {first second : Run} (hne : first.id ≠ second.id) (runs : List Run) :
    amend second (amend first runs) = amend first (amend second runs) := by
  simp only [amend, List.map_map]
  refine List.map_congr_left fun run _ => ?_
  by_cases hfirst : run.id = first.id
  · simp [hfirst, hne]
  · by_cases hsecond : run.id = second.id <;> simp [hfirst, hsecond, hne.symm]

theorem amend_cons_of_ne {patch run : Run} (h : run.id ≠ patch.id) (runs : List Run) :
    amend patch (run :: runs) = run :: amend patch runs := by
  simp [amend, h]

theorem amend_take (patch : Run) (n : Nat) (runs : List Run) :
    amend patch (runs.take n) = (amend patch runs).take n :=
  List.map_take

/-- A run that is not listed comes to stand in front, if the list can hold anything. -/
theorem head?_ids_reconcile (h : Bounded (capacity + 1) runs) {event : RunEvent}
    (hnew : event.data.id ∉ ids runs) :
    (ids (reconcile runs event (capacity + 1))).head? = some event.data.id := by
  rw [reconcile_eq h, if_neg hnew]
  rfl

/-- An event brings in no run but its own. -/
theorem mem_ids_of_mem_reconcile (h : Bounded capacity runs) {event : RunEvent} {id : String}
    (hne : id ≠ event.data.id) (hmem : id ∈ ids (reconcile runs event capacity)) :
    id ∈ ids runs := by
  rw [reconcile_eq h] at hmem
  split_ifs at hmem with hlisted
  · rwa [ids_amend] at hmem
  · rw [ids_take] at hmem
    exact (List.mem_cons.mp (List.mem_of_mem_take hmem)).resolve_left hne

/-- An event leaves a run in the list if its own run is listed or there is room for it. -/
theorem mem_ids_reconcile (h : Bounded capacity runs) {event : RunEvent} {id : String}
    (hmem : id ∈ ids runs) (hroom : event.data.id ∈ ids runs ∨ runs.length < capacity) :
    id ∈ ids (reconcile runs event capacity) := by
  rw [reconcile_eq h]
  split_ifs with hlisted
  · rwa [ids_amend]
  · have hlength : (event.data :: runs).length ≤ capacity := hroom.resolve_left hlisted
    rw [List.take_of_length_le hlength]
    exact List.mem_cons_of_mem _ hmem

/-! ## Two events -/

/-- An event that leaves the run of another one in the list can come before that one or after it. -/
theorem reconcile_comm_of_mem (h : Bounded capacity runs)
    (hne : first.data.id ≠ second.data.id)
    (hkept : first.data.id ∈ ids (reconcile runs second capacity)) :
    reconcile (reconcile runs first capacity) second capacity =
      reconcile (reconcile runs second capacity) first capacity := by
  have hlisted := mem_ids_of_mem_reconcile h hne hkept
  rw [reconcile_eq (bounded_reconcile runs second capacity), if_pos hkept,
    reconcile_eq (bounded_reconcile runs first capacity), reconcile_eq h first, if_pos hlisted,
    ids_amend, reconcile_eq h second]
  split_ifs
  · exact amend_comm hne runs
  · rw [amend_take, amend_cons_of_ne hne.symm]

/-- If either event leaves the other run out of the list, the last one to come stands in front. -/
theorem reconcile_ne_of_not_mem (hne : first.data.id ≠ second.data.id)
    (hfirst : first.data.id ∉ ids (reconcile runs second (capacity + 1)))
    (hsecond : second.data.id ∉ ids (reconcile runs first (capacity + 1))) :
    reconcile (reconcile runs first (capacity + 1)) second (capacity + 1) ≠
      reconcile (reconcile runs second (capacity + 1)) first (capacity + 1) := by
  have hhead := head?_ids_reconcile (bounded_reconcile runs first (capacity + 1)) hsecond
  have hhead' := head?_ids_reconcile (bounded_reconcile runs second (capacity + 1)) hfirst
  intro heq
  rw [heq, hhead'] at hhead
  exact hne (Option.some.inj hhead)

theorem reconcile_zero (runs : List Run) (event : RunEvent) : reconcile runs event 0 = [] :=
  List.length_eq_zero_iff.mp (Nat.le_zero.mp (bounded_reconcile runs event 0).length_le)

/-- When the order of two events on different runs does not matter. -/
theorem reconcile_comm_iff (h : Bounded capacity runs) (hne : first.data.id ≠ second.data.id) :
    reconcile (reconcile runs first capacity) second capacity =
        reconcile (reconcile runs second capacity) first capacity ↔
      capacity = 0 ∨ first.data.id ∈ ids (reconcile runs second capacity) ∨
        second.data.id ∈ ids (reconcile runs first capacity) := by
  constructor
  · intro heq
    cases capacity with
    | zero => exact .inl rfl
    | succ capacity =>
      by_contra hnot
      simp only [not_or] at hnot
      exact reconcile_ne_of_not_mem hne hnot.2.1 hnot.2.2 heq
  · rintro (rfl | hkept | hkept)
    · rw [reconcile_zero, reconcile_zero]
    · exact reconcile_comm_of_mem h hne hkept
    · exact (reconcile_comm_of_mem h hne.symm hkept).symm

/-! ## Many events -/

/-- Two events in a row can be exchanged wherever they stand, if the one leaves the run of the
other in the list as it is then. -/
theorem follow_swap (h : Bounded capacity runs) (before later : List RunEvent)
    (hne : first.data.id ≠ second.data.id)
    (hkept : first.data.id ∈ ids (reconcile (follow capacity runs before) second capacity)) :
    follow capacity runs (before ++ first :: second :: later) =
      follow capacity runs (before ++ second :: first :: later) := by
  have hswap := reconcile_comm_of_mem (bounded_follow h before) hne hkept
  rw [follow_append, follow_append]
  show follow capacity (reconcile (reconcile _ first capacity) second capacity) later =
    follow capacity (reconcile (reconcile _ second capacity) first capacity) later
  rw [hswap]

/-- Events on listed runs, no two of them on the same one, can come in any order. -/
theorem follow_perm (h : Bounded capacity runs) {events events' : List RunEvent}
    (hperm : events.Perm events') (hlisted : ∀ event ∈ events, event.data.id ∈ ids runs)
    (hdistinct : (events.map fun event => event.data.id).Nodup) :
    follow capacity runs events = follow capacity runs events' := by
  induction hperm generalizing runs with
  | nil => rfl
  | cons event hperm ih =>
    obtain ⟨hevent, hothers⟩ := List.forall_mem_cons.mp hlisted
    refine ih (bounded_reconcile runs event capacity) (fun other hother => ?_)
      (List.nodup_cons.mp hdistinct).2
    exact mem_ids_reconcile h (hothers other hother) (.inl hevent)
  | swap first second events =>
    have hne : second.data.id ≠ first.data.id := fun heq => by simp [heq] at hdistinct
    have hkept := mem_ids_reconcile h (hlisted second List.mem_cons_self)
      (.inl (hlisted first (by simp)))
    exact follow_swap h [] events hne hkept
  | trans hperm _ ih ih' =>
    rw [ih h hlisted hdistinct]
    exact ih' h (fun event hevent => hlisted event (hperm.mem_iff.mpr hevent))
      ((hperm.map _).nodup_iff.mp hdistinct)

/-! ## The law of independence -/

/-- On a list within the bounds, two events on different runs give the same list in either order if
both runs are listed, or if just one of them is and the list is not full. -/
theorem reconcile_comm_of_room (h : Bounded capacity runs) (hne : first.data.id ≠ second.data.id)
    (hroom : first.data.id ∈ ids runs ∧ second.data.id ∈ ids runs ∨
      Xor (first.data.id ∈ ids runs) (second.data.id ∈ ids runs) ∧ runs.length < capacity) :
    reconcile (reconcile runs first capacity) second capacity =
      reconcile (reconcile runs second capacity) first capacity := by
  refine (reconcile_comm_iff h hne).mpr (.inr ?_)
  rcases hroom with ⟨hfirst, hsecond⟩ | ⟨⟨hfirst, -⟩ | ⟨hsecond, -⟩, hlength⟩
  · exact .inl (mem_ids_reconcile h hfirst (.inl hsecond))
  · exact .inl (mem_ids_reconcile h hfirst (.inr hlength))
  · exact .inr (mem_ids_reconcile h hsecond (.inr hlength))

def lastEnded : RunEvent := ⟨.complete, (Run.ofId "b").withStatus .completed⟩

def arriving : RunEvent := ⟨.start, (Run.ofId "c").withAgent "x"⟩

/-- With room for one more run `b` may end before `c` comes in or after it.  In a full list `c`
pushes `b` out, and then `b` ends as a run that has just come in. -/
theorem reconcile_comm_of_room_last :
    Bounded 3 [.ofId "a", .ofId "b"] ∧ lastEnded.data.id ≠ arriving.data.id ∧
      Xor (lastEnded.data.id ∈ ids [.ofId "a", .ofId "b"])
        (arriving.data.id ∈ ids [.ofId "a", .ofId "b"]) ∧
      reconcile (reconcile [.ofId "a", .ofId "b"] lastEnded 3) arriving 3 =
        reconcile (reconcile [.ofId "a", .ofId "b"] arriving 3) lastEnded 3 ∧
      reconcile (reconcile [.ofId "a", .ofId "b"] lastEnded 2) arriving 2 ≠
        reconcile (reconcile [.ofId "a", .ofId "b"] arriving 2) lastEnded 2 := by
  have hbounded : Bounded 3 [.ofId "a", .ofId "b"] := ⟨by decide, by decide⟩
  have hne : lastEnded.data.id ≠ arriving.data.id := by decide
  have hone : Xor (lastEnded.data.id ∈ ids [.ofId "a", .ofId "b"])
      (arriving.data.id ∈ ids [.ofId "a", .ofId "b"]) := .inl ⟨by decide, by decide⟩
  have hroom := reconcile_comm_of_room hbounded hne (.inr ⟨hone, by decide⟩)
  -- In a full list each of them comes in anew after the other.
  have hfirst : lastEnded.data.id ∉ ids (reconcile [.ofId "a", .ofId "b"] arriving 2) := by decide
  have hsecond : arriving.data.id ∉ ids (reconcile [.ofId "a", .ofId "b"] lastEnded 2) := by decide
  exact ⟨hbounded, hne, hone, hroom, reconcile_ne_of_not_mem hne hfirst hsecond⟩

end LiveRuns.Roster
