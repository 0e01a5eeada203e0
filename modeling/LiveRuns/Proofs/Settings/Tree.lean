import LiveRuns.Proofs.Fields
import LiveRuns.Settings.Fault

/-!
What stands at a key of the settings.

The settings have sections, and a section has keys.  `Tree.under?` looks a key up, and `effect` says
what a single setting makes of what stands there, without regard to the rest of the tree: as long as
settings treat the sections as tables, `Tabular`, what stands at a key after many of them is the fold
of their effects, `under?_ofLayers`.  A setting minds what stood there before only if that has parts,
so what a layer sets counts before a plain value below it, `foldl_effect_of_plain`.
-/

namespace LiveRuns.Settings

namespace Tree

/-! ## Looking up -/

def at? (t : Tree) (key : String) : Option Tree := t.entries.lookup key

def under? (t : Tree) (outer inner : String) : Option Tree := (t.at? outer).bind (·.at? inner)

@[simp] theorem at?_asTable (t : Tree) (key : String) : t.asTable.at? key = t.at? key := by
  cases t <;> rfl

theorem at?_getD_absent (t? : Option Tree) (key : String) :
    (t?.getD absent).at? key = t?.bind (·.at? key) := by
  cases t? <;> rfl

theorem at?_alterKey (key : String) (f : Tree → Tree) (t : Tree) (other : String) :
    (t.alterKey key f).at? other =
      if key = other then some (f ((t.at? key).getD absent)) else t.at? other := by
  rw [alterKey, at?, entries, lookup_putField]
  have hentries : t.asTable.entries.lookup key = t.at? key := at?_asTable t key
  have hother : t.asTable.entries.lookup other = t.at? other := at?_asTable t other
  rw [hentries, hother]

theorem set_key (t : Tree) (key : String) (path : Path) (value : Tree) :
    t.set (.key key :: path) value = t.alterKey key (alter (laidOver value) path) := rfl

/-! ## Laying one tree over another -/

def layOver (key : String) (standing : Option Tree) (entry : String × Tree) : Option Tree :=
  if entry.1 = key then some (laidOver entry.2 (standing.getD absent)) else standing

theorem at?_entriesOver (entries : List (String × Tree)) (lower : Tree) (key : String) :
    (entriesOver entries lower).at? key = entries.foldl (layOver key) (lower.at? key) := by
  induction entries generalizing lower with
  | nil => rw [entriesOver, List.foldl_nil]
  | cons e entries ih =>
    rw [entriesOver, ih, at?_alterKey, List.foldl_cons, layOver]
    by_cases h : e.1 = key
    · rw [if_pos h, if_pos h, h]
    · rw [if_neg h, if_neg h]

theorem exists_table_entriesOver (entries : List (String × Tree)) {lower : Tree}
    (h : ∃ origin es, lower = .table origin es) :
    ∃ origin es, entriesOver entries lower = .table origin es := by
  induction entries generalizing lower with
  | nil => rwa [entriesOver]
  | cons e entries ih =>
    rw [entriesOver]
    exact ih ⟨_, _, rfl⟩

/-! ## A value without parts below -/

theorem laidOver_leaf (upper : Tree) (origin : Option String) (value : Scalar) :
    laidOver upper (.leaf origin value) = laidOver upper absent := by
  cases upper <;> rfl

theorem alter_leaf (upper : Tree) (path : Path) (origin : Option String) (value : Scalar) :
    alter (laidOver upper) path (.leaf origin value) = alter (laidOver upper) path absent := by
  cases path with
  | nil => exact laidOver_leaf upper origin value
  | cons step path => cases step <;> rfl

end Tree

open LiveRuns.Settings.Tree

/-! ## The effect of a setting -/

/-- A setting that treats the sections as tables. -/
inductive Tabular : Path × Tree → Prop where
  | elsewhere {name : String} {rest : Path} {value : Tree} (h : ∀ s : Section, name ≠ s.key) :
      Tabular (.key name :: rest, value)
  | whole {s : Section} {origin : Option String} {entries : List (String × Tree)} :
      Tabular ([.key s.key], .table origin entries)
  | part {s : Section} {name : String} {rest : Path} {value : Tree} :
      Tabular (.key s.key :: .key name :: rest, value)

/-- What a setting makes of what stands at a key of a section. -/
def effect (outer inner : String) (standing : Option Tree) : Path × Tree → Option Tree
  | ([.key o], .table _ entries) =>
    if o = outer then entries.foldl (layOver inner) standing else standing
  | (.key o :: .key i :: rest, value) =>
    if o = outer ∧ i = inner then some (alter (laidOver value) rest (standing.getD absent))
    else standing
  | _ => standing

/-- A section is a table or not there. -/
def Sectioned (t : Tree) : Prop :=
  ∀ (s : Section) (tree : Tree), t.at? s.key = some tree → ∃ origin entries, tree = .table origin entries

variable {setting : Path × Tree}

theorem under?_set (h : Tabular setting) (t : Tree) (s : Section) (inner : String) :
    (t.set setting.1 setting.2).under? s.key inner =
      effect s.key inner (t.under? s.key inner) setting := by
  cases h with
  | @elsewhere name rest value hname =>
    rw [set_key, under?, at?_alterKey, if_neg (hname s)]
    have hne : name ≠ s.key := hname s
    rcases rest with _ | ⟨_ | _, rest⟩
    · cases value <;> simp [effect, hne, under?]
    · simp [effect, hne, under?]
    · simp [effect, under?]
  | @whole s' origin entries =>
    rw [set_key, under?, at?_alterKey, effect]
    by_cases hs : s'.key = s.key
    · rw [if_pos hs, if_pos hs, Option.bind_some, alter, laidOver, at?_entriesOver, at?_asTable,
        at?_getD_absent, hs]
      rfl
    · rw [if_neg hs, if_neg hs]
      rfl
  | @part s' name rest value =>
    rw [set_key, under?, at?_alterKey, effect]
    by_cases hs : s'.key = s.key
    · rw [if_pos hs, Option.bind_some, alter, at?_alterKey, at?_getD_absent, hs]
      by_cases hname : name = inner
      · rw [if_pos hname, if_pos ⟨rfl, hname⟩, hname]
        rfl
      · rw [if_neg hname, if_neg fun h => hname h.2]
        exact at?_getD_absent _ _
    · rw [if_neg hs, if_neg fun h => hs h.1]
      rfl

theorem Sectioned.set (h : Tabular setting) {t : Tree} (ht : Sectioned t) :
    Sectioned (t.set setting.1 setting.2) := by
  intro s tree hat
  cases h with
  | elsewhere hname =>
    rw [set_key, at?_alterKey, if_neg (hname s)] at hat
    exact ht s tree hat
  | @whole s' origin entries =>
    rw [set_key, at?_alterKey] at hat
    split_ifs at hat with hs
    · cases hat
      rw [alter, laidOver]
      apply exists_table_entriesOver
      cases (t.at? s'.key).getD absent <;> exact ⟨_, _, rfl⟩
    · exact ht s tree hat
  | part =>
    rw [set_key, at?_alterKey] at hat
    split_ifs at hat with hs
    · cases hat
      exact ⟨_, _, rfl⟩
    · exact ht s tree hat

/-! ## Layers -/

section

variable {settings : List (Path × Tree)} (h : ∀ setting ∈ settings, Tabular setting)
include h

theorem under?_foldl_set (t : Tree) (s : Section) (inner : String) :
    (settings.foldl (fun tree setting => tree.set setting.1 setting.2) t).under? s.key inner =
      settings.foldl (effect s.key inner) (t.under? s.key inner) := by
  induction settings generalizing t with
  | nil => rfl
  | cons setting settings ih =>
    obtain ⟨hfirst, hothers⟩ := List.forall_mem_cons.1 h
    rw [List.foldl_cons, List.foldl_cons, ih hothers, under?_set hfirst]

theorem sectioned_foldl_set {t : Tree} (ht : Sectioned t) :
    Sectioned (settings.foldl (fun tree setting => tree.set setting.1 setting.2) t) := by
  induction settings generalizing t with
  | nil => exact ht
  | cons setting settings ih =>
    obtain ⟨hfirst, hothers⟩ := List.forall_mem_cons.1 h
    exact ih hothers (ht.set hfirst)

end

section

variable {layers : List Layer} (h : ∀ layer ∈ layers, ∀ setting ∈ layer, Tabular setting)
include h

/-- What stands at a key of some layers is the fold of the effects of their settings. -/
theorem under?_ofLayers (s : Section) (inner : String) :
    (Tree.ofLayers layers).under? s.key inner = layers.flatten.foldl (effect s.key inner) none := by
  rw [Tree.ofLayers, under?_foldl_set]
  · rfl
  · exact List.forall_mem_flatten.2 h

theorem sectioned_ofLayers : Sectioned (Tree.ofLayers layers) := by
  apply sectioned_foldl_set
  · exact List.forall_mem_flatten.2 h
  · exact nofun

end

/-! ## What counts before what -/

/-- A value without parts, or none. -/
def Plain (standing : Option Tree) : Prop := ∀ t ∈ standing, ∃ origin value, t = .leaf origin value

section

variable {ε : Type} {step : Option Tree → ε → Option Tree} {es : List ε}

theorem isSome_foldl (stays : ∀ e ∈ es, ∀ t, (step (some t) e).isSome) (t : Tree) :
    (es.foldl step (some t)).isSome := by
  induction es generalizing t with
  | nil => rfl
  | cons e es ih =>
    obtain ⟨hfirst, hothers⟩ := List.forall_mem_cons.1 stays
    obtain ⟨u, hu⟩ := Option.isSome_iff_exists.1 (hfirst t)
    rw [List.foldl_cons, hu]
    exact ih hothers u

/-- Steps that each count before what stood there count before it all together. -/
theorem foldl_or {standing : Option Tree}
    (counts : ∀ e ∈ es, step standing e = (step none e).or standing)
    (stays : ∀ e ∈ es, ∀ t, (step (some t) e).isSome) :
    es.foldl step standing = (es.foldl step none).or standing := by
  induction es with
  | nil => rfl
  | cons e es ih =>
    obtain ⟨hfirst, hothers⟩ := List.forall_mem_cons.1 counts
    obtain ⟨-, others⟩ := List.forall_mem_cons.1 stays
    rw [List.foldl_cons, List.foldl_cons, hfirst]
    cases hset : step none e with
    | none => exact ih hothers others
    | some t =>
      obtain ⟨u, hu⟩ := Option.isSome_iff_exists.1 (isSome_foldl others t)
      rw [Option.some_or, hu, Option.some_or]

end

theorem isSome_layOver (key : String) (t : Tree) (e : String × Tree) :
    (layOver key (some t) e).isSome := by
  unfold layOver
  split_ifs <;> rfl

theorem layOver_of_plain {standing : Option Tree} (h : Plain standing) (key : String)
    (e : String × Tree) : layOver key standing e = (layOver key none e).or standing := by
  unfold layOver
  split_ifs
  · cases standing with
    | none => rfl
    | some t =>
      obtain ⟨origin, value, rfl⟩ := h t rfl
      exact congrArg some (laidOver_leaf e.2 origin value)
  · rfl

theorem isSome_effect (outer inner : String) (t : Tree) (setting : Path × Tree) :
    (effect outer inner (some t) setting).isSome := by
  unfold effect
  split
  · split_ifs
    · exact isSome_foldl (fun e _ t => isSome_layOver inner t e) t
    · rfl
  · split_ifs <;> rfl
  · rfl

/-- A setting counts before a plain value. -/
theorem effect_of_plain {standing : Option Tree} (h : Plain standing) (outer inner : String)
    (setting : Path × Tree) :
    effect outer inner standing setting = (effect outer inner none setting).or standing := by
  unfold effect
  split
  · split_ifs
    · exact foldl_or (fun e _ => layOver_of_plain h inner e) fun e _ t => isSome_layOver inner t e
    · rfl
  · split_ifs
    · next path value _ =>
      cases standing with
      | none => rfl
      | some t =>
        obtain ⟨origin, scalar, rfl⟩ := h t rfl
        exact congrArg some (alter_leaf value path origin scalar)
    · rfl
  · rfl

/-- What settings make of a key counts before a plain value that stood there. -/
theorem foldl_effect_of_plain {standing : Option Tree} (h : Plain standing) (outer inner : String)
    (settings : List (Path × Tree)) :
    settings.foldl (effect outer inner) standing =
      (settings.foldl (effect outer inner) none).or standing :=
  foldl_or (fun setting _ => effect_of_plain h outer inner setting)
    fun setting _ t => isSome_effect outer inner t setting

/-- Plain values of keys count before whatever stood there. -/
theorem foldl_effect_leaves {settings : List (Path × Tree)}
    (h : ∀ setting ∈ settings, ∃ o i origin value,
      setting = ([.key o, .key i], .leaf origin value)) (outer inner : String)
    (standing : Option Tree) :
    settings.foldl (effect outer inner) standing =
      (settings.foldl (effect outer inner) none).or standing := by
  refine foldl_or (fun setting hmem => ?_) fun setting _ t => isSome_effect outer inner t setting
  obtain ⟨o, i, origin, value, rfl⟩ := h setting hmem
  simp only [effect]
  split_ifs <;> rfl

end LiveRuns.Settings
