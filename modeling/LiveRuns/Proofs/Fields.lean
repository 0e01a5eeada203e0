import LiveRuns.Fields
import Mathlib.Data.List.Nodup

/-!
Fields looked up by name.

What is asked of a map after fields have been put into it, and after another has been laid over it,
can be told from what was asked of the maps before, `get?_insert` and `get?_overlay`.  Two maps that
give the same answers are equal, `ext_get?`, since each has one form only; so laying maps over one
another is associative, and laying a map over itself changes nothing.
-/

namespace LiveRuns

variable {α : Type}

/-! ## Lists of fields -/

theorem lookup_cons_ite (name : String) (f : String × α) (rest : List (String × α)) :
    (f :: rest).lookup name = if f.1 = name then some f.2 else rest.lookup name := by
  obtain ⟨n, v⟩ := f
  by_cases h : n = name
  · rw [if_pos h, ← h]
    exact List.lookup_cons_self
  · rw [if_neg h, List.lookup_cons, beq_eq_false_iff_ne.mpr (Ne.symm h)]

theorem lookup_putField (name : String) (value : α) (entries : List (String × α))
    (other : String) :
    (putField name value entries).lookup other =
      if name = other then some value else entries.lookup other := by
  induction entries with
  | nil => exact lookup_cons_ite other (name, value) []
  | cons f rest ih =>
    obtain ⟨n, v⟩ := f
    by_cases hlt : name < n
    · rw [putField, if_pos hlt]
      exact lookup_cons_ite other (name, value) ((n, v) :: rest)
    · by_cases hname : name = n
      · subst hname
        rw [putField, if_neg hlt, if_pos rfl, lookup_cons_ite, lookup_cons_ite]
        by_cases hother : name = other
        · rw [if_pos hother, if_pos hother]
        · rw [if_neg hother, if_neg hother, if_neg hother]
      · rw [putField, if_neg hlt, if_neg hname, lookup_cons_ite, ih, lookup_cons_ite]
        by_cases hn : n = other
        · have hne : name ≠ other := fun heq => hname (heq.trans hn.symm)
          rw [if_pos hn, if_neg hne, if_pos hn]
        · rw [if_neg hn, if_neg hn]

theorem lookup_eq_none_iff_names {name : String} {entries : List (String × α)} :
    entries.lookup name = none ↔ name ∉ entries.map Prod.fst := by
  rw [List.lookup_eq_none_iff, List.mem_map]
  constructor
  · rintro h ⟨f, hf, rfl⟩
    exact bne_iff_ne.mp (h f hf) rfl
  · intro h f hf
    exact bne_iff_ne.mpr fun heq => h ⟨f, hf, heq.symm⟩

/-- Where no name stands twice, the value of a name is that of its field. -/
theorem lookup_eq_some_iff_mem {name : String} {value : α} {entries : List (String × α)}
    (h : (entries.map Prod.fst).Nodup) :
    entries.lookup name = some value ↔ (name, value) ∈ entries := by
  constructor
  · intro hfound
    obtain ⟨front, back, rfl, -⟩ := List.lookup_eq_some_iff.mp hfound
    exact List.mem_append_right front List.mem_cons_self
  · intro hmem
    obtain ⟨front, back, rfl⟩ := List.append_of_mem hmem
    refine List.lookup_eq_some_iff.mpr ⟨front, back, rfl, fun f hf => bne_iff_ne.mpr ?_⟩
    rintro rfl
    rw [List.map_append, List.nodup_append] at h
    exact h.2.2 f.1 (List.mem_map_of_mem hf) f.1 List.mem_cons_self rfl

theorem lookup_filter_ne (name dropped : String) (entries : List (String × α)) :
    (entries.filter fun e => e.1 ≠ dropped).lookup name =
      if name = dropped then none else entries.lookup name := by
  induction entries with
  | nil => simp
  | cons f entries ih =>
    by_cases hdropped : f.1 = dropped
    · rw [List.filter_cons_of_neg (by simpa using hdropped), ih, lookup_cons_ite]
      by_cases hname : name = dropped
      · rw [if_pos hname, if_pos hname]
      · have hne : f.1 ≠ name := fun heq => hname (heq.symm.trans hdropped)
        rw [if_neg hname, if_neg hname, if_neg hne]
    · rw [List.filter_cons_of_pos (by simpa using hdropped), lookup_cons_ite, ih, lookup_cons_ite]
      by_cases hname : f.1 = name
      · have hne : name ≠ dropped := fun heq => hdropped (hname.trans heq)
        rw [if_pos hname, if_pos hname, if_neg hne]
      · rw [if_neg hname, if_neg hname]

theorem Ascending.nodup_names {entries : List (String × α)} (h : Ascending entries) :
    (entries.map Prod.fst).Nodup := by
  refine List.pairwise_map.mpr (h.imp fun hlt => ?_)
  intro heq
  rw [heq] at hlt
  exact String.lt_irrefl _ hlt

namespace Fields

/-! ## Maps -/

@[simp] theorem get?_insert (fields : Fields α) (name : String) (value : α) (other : String) :
    (fields.insert name value).get? other =
      if name = other then some value else fields.get? other :=
  lookup_putField name value fields.entries other

/-- Two maps that give every name the same value are equal. -/
theorem ext_get? {a b : Fields α} (h : ∀ name, a.get? name = b.get? name) : a = b := by
  have hmem : ∀ e, e ∈ a.entries ↔ e ∈ b.entries := by
    rintro ⟨name, value⟩
    rw [← lookup_eq_some_iff_mem a.ascending.nodup_names,
      ← lookup_eq_some_iff_mem b.ascending.nodup_names]
    exact iff_of_eq (congrArg (· = some value) (h name))
  have hperm : a.entries.Perm b.entries :=
    (List.perm_ext_iff_of_nodup (List.Nodup.of_map _ a.ascending.nodup_names)
      (List.Nodup.of_map _ b.ascending.nodup_names)).mpr hmem
  have hentries : a.entries = b.entries :=
    hperm.eq_of_pairwise (fun e f _ _ hef hfe => absurd hfe (String.lt_asymm hef)) a.ascending
      b.ascending
  cases a
  cases b
  cases hentries
  rfl

/-- Of fields set one after the other, no two of a name, each counts before what was there. -/
theorem get?_insertAll {entries : List (String × α)} (h : (entries.map Prod.fst).Nodup)
    (fields : Fields α) (name : String) :
    (fields.insertAll entries).get? name = (entries.lookup name).or (fields.get? name) := by
  induction entries generalizing fields with
  | nil => rfl
  | cons f rest ih =>
    obtain ⟨n, v⟩ := f
    obtain ⟨hnot, htail⟩ := List.nodup_cons.mp h
    rw [insertAll, List.foldl_cons, ← insertAll, ih htail, get?_insert, lookup_cons_ite]
    by_cases hn : n = name
    · subst hn
      rw [if_pos rfl, if_pos rfl, lookup_eq_none_iff_names.mpr hnot]
      rfl
    · rw [if_neg hn, if_neg hn]

theorem get?_ofList {entries : List (String × α)} (h : (entries.map Prod.fst).Nodup)
    (name : String) : (ofList entries).get? name = entries.lookup name := by
  rw [ofList, get?_insertAll h]
  exact Option.or_none

/-- A name has its value in the upper map, or else in the lower one. -/
@[simp] theorem get?_overlay (lower upper : Fields α) (name : String) :
    (lower.overlay upper).get? name = (upper.get? name).or (lower.get? name) :=
  get?_insertAll upper.ascending.nodup_names lower name

theorem overlay_assoc (a b c : Fields α) : (a.overlay b).overlay c = a.overlay (b.overlay c) := by
  refine ext_get? (fun name => ?_)
  rw [get?_overlay, get?_overlay, get?_overlay, get?_overlay, Option.or_assoc]

theorem overlay_self (a : Fields α) : a.overlay a = a := by
  refine ext_get? (fun name => ?_)
  rw [get?_overlay, Option.or_self]

end Fields

end LiveRuns
