import LiveRuns.Proofs.Roster.Reconcile

/-!
The history of a list.

What a list holds after many events can be told from its history without the lists in between.
`arrivals` are all runs that have come into the list, the last to come first and those it began with
at the end, each with the events since it came.  `follow_eq` says that the list is the first of them,
as many as the capacity allows, each with its own later events merged into it.  So a run keeps its
place but for the runs that come in front of it, and is lost only when they are too many.
-/

namespace LiveRuns.Roster

def follow (capacity : Nat) (runs : List Run) (events : List RunEvent) : List Run :=
  events.foldl (fun runs event => reconcile runs event capacity) runs

/-- The events whose run is not in the list when they come, the last first, each with the events
after it. -/
def insertions (capacity : Nat) : List Run → List RunEvent → List (RunEvent × List RunEvent)
  | _, [] => []
  | runs, event :: later =>
    insertions capacity (reconcile runs event capacity) later ++
      if event.data.id ∈ ids runs then [] else [(event, later)]

/-- The runs that have come into the list and those that it began with, each with the events since
it came. -/
def arrivals (capacity : Nat) (runs : List Run) (events : List RunEvent) :
    List (Run × List RunEvent) :=
  (insertions capacity runs events).map (fun insertion => (insertion.1.data, insertion.2)) ++
    runs.map fun run => (run, events)

/-- A run with the data of all events of its id merged into it, in order. -/
def updated (run : Run) (events : List RunEvent) : Run :=
  (events.filter fun event => event.data.id = run.id).foldl (fun run event => run.merge event.data)
    run

/-! ## A run and the events after it -/

theorem updated_cons (run : Run) (event : RunEvent) (later : List RunEvent) :
    updated run (event :: later) =
      updated (if run.id = event.data.id then run.merge event.data else run) later := by
  by_cases h : run.id = event.data.id
  · rw [if_pos h, updated, List.filter_cons_of_pos (by simpa using h.symm), List.foldl_cons]
    rfl
  · rw [if_neg h, updated, List.filter_cons_of_neg (by simpa using Ne.symm h)]
    rfl

@[simp] theorem id_updated (run : Run) (events : List RunEvent) :
    (updated run events).id = run.id := by
  induction events generalizing run with
  | nil => rfl
  | cons event later ih =>
    rw [updated_cons, ih]
    by_cases h : run.id = event.data.id <;> simp [h]

/-- Merging an event into a whole list and then the later ones is merging them all. -/
theorem map_updated_amend (runs : List Run) (event : RunEvent) (later : List RunEvent) :
    (amend event.data runs).map (fun run => updated run later) =
      runs.map fun run => updated run (event :: later) := by
  rw [amend, List.map_map]
  exact List.map_congr_left (fun run _ => (updated_cons run event later).symm)

/-! ## The list after many events -/

theorem bounded_follow {capacity : Nat} {runs : List Run} (h : Bounded capacity runs)
    (events : List RunEvent) : Bounded capacity (follow capacity runs events) := by
  induction events generalizing runs with
  | nil => exact h
  | cons event later ih => exact ih (bounded_reconcile runs event capacity)

theorem follow_append (capacity : Nat) (runs : List Run) (events later : List RunEvent) :
    follow capacity runs (events ++ later) = follow capacity (follow capacity runs events) later :=
  List.foldl_append

theorem take_append_take {α : Type} (n : Nat) (front rest : List α) :
    (front ++ rest.take n).take n = (front ++ rest).take n := by
  rw [List.take_append, List.take_append, List.take_take, Nat.min_eq_left (Nat.sub_le ..)]

/-- The list is the first arrivals, each with its later events. -/
theorem follow_eq {capacity : Nat} {runs : List Run} (h : Bounded capacity runs)
    (events : List RunEvent) :
    follow capacity runs events =
      ((arrivals capacity runs events).map fun arrival => updated arrival.1 arrival.2).take
        capacity := by
  induction events generalizing runs with
  | nil =>
    have hself : (arrivals capacity runs []).map (fun arrival => updated arrival.1 arrival.2) =
        runs := by
      simp [arrivals, insertions, updated, Function.comp_def]
    rw [hself, List.take_of_length_le h.length_le]
    rfl
  | cons event later ih =>
    have hnext := ih (bounded_reconcile runs event capacity)
    simp only [arrivals, List.map_append, List.map_map, Function.comp_def] at hnext ⊢
    rw [follow, List.foldl_cons, ← follow, hnext, insertions, reconcile_eq h]
    by_cases hmem : event.data.id ∈ ids runs
    · -- No run comes in, and the event is merged into those that stand.
      rw [if_pos hmem, if_pos hmem, List.append_nil, map_updated_amend]
    · -- The run comes in front, and the event says nothing of the others.
      have hothers : amend event.data runs = runs := amend_of_not_mem hmem
      rw [if_neg hmem, if_neg hmem, List.map_append, List.append_assoc, ← map_updated_amend, hothers,
        List.map_take, take_append_take]
      rfl

theorem ids_follow {capacity : Nat} {runs : List Run} (h : Bounded capacity runs)
    (events : List RunEvent) :
    ids (follow capacity runs events) =
      ((insertions capacity runs events).map (fun insertion => insertion.1.data.id) ++
        ids runs).take capacity := by
  rw [follow_eq h, ids_take, arrivals]
  simp [ids, Function.comp_def]

theorem find?_of_nodup {α : Type} {key : α → String} {values : List α}
    (h : (values.map key).Nodup) {value : α} (hmem : value ∈ values) :
    values.find? (fun other => key other = key value) = some value := by
  induction values with
  | nil => cases hmem
  | cons first values ih =>
    obtain ⟨hnot, htail⟩ := List.nodup_cons.mp h
    rcases List.mem_cons.mp hmem with rfl | hmem
    · simp
    · have hkey : key value ∈ values.map key := List.mem_map_of_mem hmem
      have hne : key first ≠ key value := fun heq => hnot (heq ▸ hkey)
      rw [List.find?_cons_of_neg (by simpa using hne)]
      exact ih htail hmem

/-- A run in the list is the last arrival of its id, with its later events. -/
theorem find?_arrivals {capacity : Nat} {runs : List Run} (h : Bounded capacity runs)
    {events : List RunEvent} {run : Run} (hrun : run ∈ follow capacity runs events) :
    ((arrivals capacity runs events).find? fun arrival => arrival.1.id = run.id).map
      (fun arrival => updated arrival.1 arrival.2) = some run := by
  have hnodup := (bounded_follow h events).nodup_ids
  rw [follow_eq h, ← List.map_take] at hrun hnodup
  obtain ⟨arrival, harrival, rfl⟩ := List.mem_map.mp hrun
  have hkeys : (((arrivals capacity runs events).take capacity).map
      fun arrival => arrival.1.id).Nodup := by
    simpa [ids, Function.comp_def] using hnodup
  have hfirst := find?_of_nodup hkeys harrival
  have hfind := (List.take_prefix capacity (arrivals capacity runs events)).find?_eq_some hfirst
  rw [id_updated, hfind]
  rfl

/-- A run moves back by one place for each run that comes in, up to the end of the list. -/
theorem getElem?_ids_follow {capacity : Nat} {runs : List Run} (h : Bounded capacity runs)
    {later : List RunEvent} {i : Nat}
    (hroom : i + (insertions capacity runs later).length < capacity) :
    (ids (follow capacity runs later))[i + (insertions capacity runs later).length]? =
      (ids runs)[i]? := by
  rw [ids_follow h, List.getElem?_take_of_lt hroom, List.getElem?_append_right (by simp)]
  simp

/-! ## The history law -/

/-- After any events on a list within the bounds: the ids are those of the runs that came in, the
last first, and those that the list began with, as many as fit; every run is the data of the event
that last brought it in, or what it was in the beginning, with the later events of its id merged in
order; an event on a run in the list changes that run in its place; and however many events follow,
a run stands as many places further back as runs come in, until these push it over the end. -/
theorem follow_history {capacity : Nat} {runs : List Run} (h : Bounded capacity runs)
    (events : List RunEvent) :
    ids (follow capacity runs events) =
        ((insertions capacity runs events).map (fun insertion => insertion.1.data.id) ++
          ids runs).take capacity ∧
      (∀ run ∈ follow capacity runs events,
        ((arrivals capacity runs events).find? fun arrival => arrival.1.id = run.id).map
          (fun arrival => updated arrival.1 arrival.2) = some run) ∧
      (∀ event, event.data.id ∈ ids (follow capacity runs events) →
        follow capacity runs (events ++ [event]) =
          (follow capacity runs events).map fun run =>
            if run.id = event.data.id then run.merge event.data else run) ∧
      ∀ later i,
        i + (insertions capacity (follow capacity runs events) later).length < capacity →
          (ids (follow capacity runs (events ++ later)))[
              i + (insertions capacity (follow capacity runs events) later).length]? =
            (ids (follow capacity runs events))[i]? := by
  have hnow := bounded_follow h events
  refine ⟨ids_follow h events, fun run hrun => find?_arrivals h hrun, fun event hlisted => ?_,
    fun later i hroom => ?_⟩
  · rw [follow_append]
    exact (reconcile_eq hnow event).trans (if_pos hlisted)
  · rw [follow_append]
    exact getElem?_ids_follow hnow hroom

/-- Runs come and go: `c` pushes `a` out of a list of two, and `a` comes back as a new run. -/
def comings : List RunEvent :=
  [⟨.start, .ofId "b"⟩, ⟨.update, (Run.ofId "a").withStatus .running⟩, ⟨.start, .ofId "c"⟩,
    ⟨.complete, (Run.ofId "a").withAgent "x"⟩, ⟨.update, (Run.ofId "a").withStatus .completed⟩]

theorem follow_history_comings :
    Bounded 2 [.ofId "a"] ∧
      ids (follow 2 [.ofId "a"] comings) = ["a", "c"] ∧
      ((Run.ofId "a").withAgent "x").withStatus .completed ∈ follow 2 [.ofId "a"] comings ∧
      ((arrivals 2 [.ofId "a"] comings).find? fun arrival => arrival.1.id = "a").map
        (fun arrival => updated arrival.1 arrival.2) =
          some (((Run.ofId "a").withAgent "x").withStatus .completed) ∧
      follow 2 [.ofId "a"] (comings ++ [⟨.start, .ofId "c"⟩]) =
        (follow 2 [.ofId "a"] comings).map (fun run =>
          if run.id = "c" then run.merge (.ofId "c") else run) ∧
      (ids (follow 2 [.ofId "a"] (comings ++ [⟨.error, .ofId "d"⟩])))[1]? = some "a" := by
  have hbounded : Bounded 2 [.ofId "a"] := ⟨by decide, by decide⟩
  have hrun : ((Run.ofId "a").withAgent "x").withStatus .completed ∈
      follow 2 [.ofId "a"] comings := List.mem_cons_self
  obtain ⟨hids, hruns, hmerge, hroom⟩ := follow_history hbounded comings
  exact ⟨hbounded, hids, hrun, hruns _ hrun, hmerge ⟨.start, .ofId "c"⟩ (by decide),
    hroom [⟨.error, .ofId "d"⟩] 0 (by decide)⟩

end LiveRuns.Roster
