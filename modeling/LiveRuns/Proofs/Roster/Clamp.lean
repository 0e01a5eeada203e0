import LiveRuns.Roster
import Mathlib.Data.List.Basic

/-!
The clamped list.

`clamp` goes through a list once and remembers the ids that it has kept.  `clamp_eq_take` says the
same without a memory: strike every run whose id stands earlier, then take as many as the capacity
allows.  From it come the bounds that every list written by this library keeps, `Bounded`, whatever
list it is made from, and what becomes of the single runs, `clamp_keeps_firsts`.
-/

namespace LiveRuns.Roster

def ids (runs : List Run) : List String := runs.map Run.id

@[simp] theorem ids_cons (run : Run) (runs : List Run) : ids (run :: runs) = run.id :: ids runs :=
  rfl

@[simp] theorem ids_take (n : Nat) (runs : List Run) : ids (runs.take n) = (ids runs).take n :=
  List.map_take

/-- The runs whose id does not stand earlier in the list. -/
def firsts : List Run → List Run
  | [] => []
  | run :: runs => run :: (firsts runs).filter (fun other => other.id ≠ run.id)

/-- A list of no more runs than the capacity, in which no id stands twice. -/
structure Bounded (capacity : Nat) (runs : List Run) : Prop where
  length_le : runs.length ≤ capacity
  nodup_ids : (ids runs).Nodup

/-! ## Clamping without a memory -/

theorem clampSeen_of_full {capacity : Nat} {seen : List String} (h : capacity ≤ seen.length)
    (runs : List Run) : clampSeen capacity seen runs = [] := by
  induction runs with
  | nil => rfl
  | cons run runs ih =>
    have hfull : ¬ (seen.length < capacity ∧ run.id ∉ seen) := fun hroom => by omega
    rw [clampSeen, if_neg hfull, ih]

theorem filter_unseen (id : String) (seen : List String) (runs : List Run) :
    (runs.filter (fun run => run.id ≠ id)).filter (fun run => run.id ∉ seen) =
      runs.filter (fun run => run.id ∉ id :: seen) := by
  rw [List.filter_filter]
  refine List.filter_congr (fun run _ => ?_)
  simp [Bool.and_comm]

/-- What is kept besides the ids already seen. -/
theorem clampSeen_eq (capacity : Nat) (seen : List String) (runs : List Run) :
    clampSeen capacity seen runs =
      ((firsts runs).filter (fun run => run.id ∉ seen)).take (capacity - seen.length) := by
  induction runs generalizing seen with
  | nil => simp [clampSeen, firsts]
  | cons run runs ih =>
    by_cases hseen : run.id ∈ seen
    · -- The run is struck, and the later ones of its id are struck as seen before.
      have hrest : (firsts runs).filter (fun other => other.id ∉ run.id :: seen) =
          (firsts runs).filter (fun other => other.id ∉ seen) := by
        refine List.filter_congr (fun other _ => ?_)
        have hcons : other.id ∈ run.id :: seen ↔ other.id ∈ seen :=
          ⟨fun hmem => (List.mem_cons.mp hmem).elim (fun heq => heq ▸ hseen) id,
            List.mem_cons_of_mem _⟩
        simp only [hcons]
      rw [clampSeen, if_neg (fun hroom => hroom.2 hseen), ih, firsts, List.filter_cons,
        if_neg (by simpa using hseen), filter_unseen, hrest]
    · by_cases hroom : seen.length < capacity
      · have hcount : capacity - seen.length = (capacity - (run.id :: seen).length) + 1 := by
          rw [List.length_cons]
          omega
        rw [clampSeen, if_pos ⟨hroom, hseen⟩, ih, firsts, List.filter_cons,
          if_pos (by simpa using hseen), filter_unseen, hcount, List.take_succ_cons]
      · have hfull : capacity - seen.length = 0 := by omega
        rw [clampSeen_of_full (by omega), hfull, List.take_zero]

/-- Clamping strikes the runs whose id stands earlier and takes the first of the others. -/
theorem clamp_eq_take (runs : List Run) (capacity : Nat) :
    clamp runs capacity = (firsts runs).take capacity := by
  rw [clamp, clampSeen_eq]
  simp

/-! ## Bounds -/

theorem nodup_ids_firsts (runs : List Run) : (ids (firsts runs)).Nodup := by
  induction runs with
  | nil => exact List.nodup_nil
  | cons run runs ih =>
    rw [firsts, ids_cons, List.nodup_cons]
    constructor
    · intro hmem
      obtain ⟨other, hother, heq⟩ := List.mem_map.mp hmem
      simp [heq] at hother
    · exact ih.sublist (List.filter_sublist.map Run.id)

theorem firsts_of_nodup {runs : List Run} (h : (ids runs).Nodup) : firsts runs = runs := by
  induction runs with
  | nil => rfl
  | cons run runs ih =>
    obtain ⟨hnot, htail⟩ := List.nodup_cons.mp h
    have hkept : ∀ other ∈ runs, other.id ≠ run.id := by
      intro other hother heq
      exact hnot (heq ▸ List.mem_map_of_mem hother)
    rw [firsts, ih htail, List.filter_eq_self.mpr (by simpa using hkept)]

theorem clamp_of_nodup {runs : List Run} (h : (ids runs).Nodup) (capacity : Nat) :
    clamp runs capacity = runs.take capacity := by
  rw [clamp_eq_take, firsts_of_nodup h]

theorem Bounded.clamp_eq {capacity : Nat} {runs : List Run} (h : Bounded capacity runs) :
    clamp runs capacity = runs := by
  rw [clamp_of_nodup h.nodup_ids, List.take_of_length_le h.length_le]

/-- Any list is clamped to one within the bounds. -/
theorem bounded_clamp (runs : List Run) (capacity : Nat) :
    Bounded capacity (clamp runs capacity) := by
  rw [clamp_eq_take]
  constructor
  · exact List.length_take_le capacity (firsts runs)
  · rw [ids_take]
    exact (nodup_ids_firsts runs).sublist (List.take_sublist capacity _)

theorem bounded_reconcile (runs : List Run) (event : RunEvent) (capacity : Nat) :
    Bounded capacity (reconcile runs event capacity) :=
  bounded_clamp _ capacity

theorem bounded_nil (capacity : Nat) : Bounded capacity [] :=
  ⟨Nat.zero_le capacity, List.nodup_nil⟩

/-! ## What is kept -/

theorem firsts_sublist (runs : List Run) : (firsts runs).Sublist runs := by
  induction runs with
  | nil => exact .slnil
  | cons run runs ih => exact (List.filter_sublist.trans ih).cons_cons run

/-- Of the runs of one id, the one that is kept is the one found first. -/
theorem find?_of_mem_firsts {runs : List Run} {run : Run} (h : run ∈ firsts runs) :
    runs.find? (fun other => other.id = run.id) = some run := by
  induction runs with
  | nil => cases h
  | cons first runs ih =>
    rcases List.mem_cons.mp h with rfl | hlater
    · simp
    · obtain ⟨hmem, hne⟩ := List.mem_filter.mp hlater
      have hother : first.id ≠ run.id := fun heq => by simp [heq] at hne
      rw [List.find?_cons_of_neg (by simpa using hother)]
      exact ih hmem

/-- With the runs before them in sight, the runs whose id is among neither these nor the earlier
ones of their own. -/
theorem filter_zipIdx_eq (before runs : List Run) :
    ((runs.zipIdx before.length).filter fun entry =>
        entry.1.id ∉ ids ((before ++ runs).take entry.2)).map Prod.fst =
      (firsts runs).filter fun run => run.id ∉ ids before := by
  induction runs generalizing before with
  | nil => rfl
  | cons run runs ih =>
    have hnext := ih (before ++ [run])
    rw [List.length_append, List.length_singleton, List.append_assoc,
      List.singleton_append] at hnext
    have hids : ∀ other : Run,
        other.id ∉ ids (before ++ [run]) ↔ other.id ∉ run.id :: ids before := by
      intro other
      simp [ids, or_comm]
    have hlater : (firsts runs).filter (fun other => other.id ∉ ids (before ++ [run])) =
        ((firsts runs).filter fun other => other.id ≠ run.id).filter
          fun other => other.id ∉ ids before := by
      rw [filter_unseen]
      exact List.filter_congr (fun other _ => by simp only [hids])
    rw [List.zipIdx_cons, List.filter_cons, List.take_left, firsts, List.filter_cons, ← hlater,
      ← hnext]
    by_cases hmem : run.id ∈ ids before <;> simp [hmem]

/-- The runs that are kept are those with an id that none of the runs before them has. -/
theorem firsts_eq_filter_zipIdx (runs : List Run) :
    firsts runs =
      (runs.zipIdx.filter fun entry => entry.1.id ∉ ids (runs.take entry.2)).map Prod.fst := by
  have hwhole := filter_zipIdx_eq [] runs
  simpa [ids] using hwhole.symm

theorem clamp_clamp (runs : List Run) (first capacity : Nat) :
    clamp (clamp runs first) capacity = clamp runs (min capacity first) := by
  rw [clamp_of_nodup (bounded_clamp runs first).nodup_ids, clamp_eq_take, clamp_eq_take,
    List.take_take]

theorem clamp_eq_self_iff {runs : List Run} {capacity : Nat} :
    clamp runs capacity = runs ↔ Bounded capacity runs := by
  constructor
  · intro h
    rw [← h]
    exact bounded_clamp runs capacity
  · exact Bounded.clamp_eq

/-- Whatever the list and the capacity: clamping strikes every run whose id stands earlier in the
list and takes as many of the others as the capacity allows.  So the runs that are kept stand in
their order and as they were, each of them the first of its id; clamping twice is clamping once to
the smaller capacity; and just the lists within the bounds are left as they are. -/
theorem clamp_keeps_firsts (runs : List Run) (capacity : Nat) :
    clamp runs capacity =
        ((runs.zipIdx.filter fun entry =>
          entry.1.id ∉ ids (runs.take entry.2)).map Prod.fst).take capacity ∧
      (clamp runs capacity).Sublist runs ∧
      (∀ run ∈ clamp runs capacity,
        runs.find? (fun other => other.id = run.id) = some run) ∧
      (∀ first, clamp (clamp runs first) capacity = clamp runs (min capacity first)) ∧
      (clamp runs capacity = runs ↔ (ids runs).Nodup ∧ runs.length ≤ capacity) := by
  have htake := clamp_eq_take runs capacity
  have hkept : (clamp runs capacity).Sublist (firsts runs) := by
    rw [htake]
    exact List.take_sublist capacity _
  refine ⟨by rw [htake, firsts_eq_filter_zipIdx], hkept.trans (firsts_sublist runs),
    fun run hrun => find?_of_mem_firsts (hkept.subset hrun),
    fun first => clamp_clamp runs first capacity, clamp_eq_self_iff.trans ?_⟩
  exact ⟨fun h => ⟨h.nodup_ids, h.length_le⟩, fun h => ⟨h.2, h.1⟩⟩

/-- `a` comes twice, and there are four ids for a capacity of three. -/
def repeating : List Run :=
  [(Run.ofId "a").withStatus .running, .ofId "b", (Run.ofId "a").withStatus .pending, .ofId "c",
    .ofId "d"]

theorem clamp_keeps_firsts_repeating :
    clamp repeating 3 = [(Run.ofId "a").withStatus .running, .ofId "b", .ofId "c"] ∧
      (Run.ofId "a").withStatus .running ∈ clamp repeating 3 ∧
      repeating.find? (fun other => other.id = "a") =
        some ((Run.ofId "a").withStatus .running) ∧
      clamp (clamp repeating 4) 3 = clamp repeating 3 ∧ clamp repeating 3 ≠ repeating := by
  obtain ⟨heq, -, hfirst, htwice, hself⟩ := clamp_keeps_firsts repeating 3
  have hmem : (Run.ofId "a").withStatus .running ∈ clamp repeating 3 := List.mem_cons_self
  have hlong : ¬ repeating.length ≤ 3 := by decide
  exact ⟨heq.trans rfl, hmem, hfirst _ hmem, htwice 4, fun h => hlong (hself.mp h).2⟩

end LiveRuns.Roster
