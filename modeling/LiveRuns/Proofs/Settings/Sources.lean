import LiveRuns.Proofs.Settings.Key

/-!
Layers of settings.

What a layer by itself sets at a key is `Layer.at`.  Of two layers the upper one counts at a key,
where it sets the key, `Layer.at_append`; and where options are given and have variables too, those
that are given count, `addVariables_at`.
-/

namespace LiveRuns.Settings

/-! ## Paths of keys -/

namespace Key

def all : List Key :=
  [.baseUrl, .runsPath, .streamPath, .maxRuns, .retryDelay, .agentId, .status, .since, .before,
    .logJson]

def ofPath? (path : Path) : Option Key := all.find? (·.path = path)

theorem ofPath?_path (k : Key) : ofPath? k.path = some k := by
  cases k <;> decide

theorem path_injective : Function.Injective path := by
  intro k k' h
  have hsame := ofPath?_path k
  rw [h, ofPath?_path] at hsame
  exact (Option.some.inj hsame).symm

theorem tabular (k : Key) (rest : Path) (value : Tree) : Tabular (k.path ++ rest, value) := .part

theorem plain_of_read {k : Key} {t? : Option Tree} {v : Scalar} (h : k.read t? = .ok v) :
    Plain t? := by
  rintro t rfl
  cases t with
  | leaf origin value => exact ⟨origin, value, rfl⟩
  | list =>
    rw [read, convert] at h
    cases k <;> cases h
  | table =>
    rw [read, convert] at h
    cases k <;> cases h

end Key

/-- What a layer by itself sets at a key. -/
def Layer.at (layer : Layer) (k : Key) : Option Tree := (Tree.ofLayers [layer]).at k

/-! ## Layers of plain values -/

/-- A plain value that is set at a key. -/
def AtKey (setting : Path × Tree) : Prop :=
  ∃ (k : Key) (origin : Option String) (value : Scalar), setting = (k.path, .leaf origin value)

theorem AtKey.tabular {setting : Path × Tree} (h : AtKey setting) : Tabular setting := by
  obtain ⟨k, origin, value, rfl⟩ := h
  exact k.tabular [] _

theorem AtKey.effect {setting : Path × Tree} (h : AtKey setting) (k : Key)
    (standing : Option Tree) :
    Settings.effect k.group.key k.name standing setting =
      if setting.1 = k.path then some setting.2 else standing := by
  obtain ⟨k', origin, value, rfl⟩ := h
  show (if k'.group.key = k.group.key ∧ k'.name = k.name then _ else _) = _
  have hpath : k'.path = k.path ↔ k'.group.key = k.group.key ∧ k'.name = k.name := by
    simp [Key.path]
  by_cases hk : k'.path = k.path
  · rw [if_pos hk, if_pos (hpath.1 hk)]
    rfl
  · rw [if_neg hk, if_neg (hk ∘ hpath.2)]

variable {layer upper lower : Layer}

/-- What settings make of a key that nothing was set at before. -/
theorem Layer.at_eq (h : ∀ setting ∈ layer, Tabular setting) (k : Key) :
    layer.at k = layer.foldl (effect k.group.key k.name) none := by
  rw [Layer.at, Tree.at, under?_ofLayers (by simpa using h)]
  simp

theorem Layer.at_append (hlower : ∀ setting ∈ lower, Tabular setting)
    (hupper : ∀ setting ∈ upper, AtKey setting) (k : Key) :
    Layer.at (lower ++ upper) k = (upper.at k).or (lower.at k) := by
  have htabular := fun setting hmem => (hupper setting hmem).tabular
  rw [Layer.at_eq htabular, Layer.at_eq hlower, Layer.at_eq, List.foldl_append]
  · apply foldl_effect_leaves
    intro setting hmem
    obtain ⟨k, origin, value, rfl⟩ := hupper setting hmem
    exact ⟨_, _, origin, value, rfl⟩
  · exact List.forall_mem_append.2 ⟨hlower, htabular⟩

theorem Layer.at_eq_none_iff (h : ∀ setting ∈ layer, AtKey setting) (k : Key) :
    layer.at k = none ↔ ∀ setting ∈ layer, setting.1 ≠ k.path := by
  rw [Layer.at_eq fun setting hmem => (h setting hmem).tabular]
  induction layer with
  | nil => simp
  | cons setting layer ih =>
    obtain ⟨hfirst, hothers⟩ := List.forall_mem_cons.1 h
    rw [List.foldl_cons, hfirst.effect, List.forall_mem_cons]
    by_cases hk : setting.1 = k.path
    · have hset : (layer.foldl (effect k.group.key k.name) (some setting.2)).isSome :=
        isSome_foldl (fun e _ t => isSome_effect k.group.key k.name t e) setting.2
      rw [if_pos hk]
      simp [hk, Option.isSome_iff_ne_none.1 hset]
    · rw [if_neg hk, ih hothers]
      simp [hk]

/-- What is set counts before what stood below it, where that was a plain value. -/
theorem Layer.at_append_of_plain (hlower : ∀ setting ∈ lower, Tabular setting)
    (hupper : ∀ setting ∈ upper, Tabular setting) {k : Key} (hplain : Plain (lower.at k)) :
    Layer.at (lower ++ upper) k = (upper.at k).or (lower.at k) := by
  rw [Layer.at_eq hlower] at hplain
  rw [Layer.at_eq hupper, Layer.at_eq hlower, Layer.at_eq, List.foldl_append]
  · exact foldl_effect_of_plain hplain _ _ upper
  · exact List.forall_mem_append.2 ⟨hlower, hupper⟩

theorem Layer.at_singleton (k : Key) (tree : Tree) (other : Key) :
    Layer.at [(k.path, tree)] other =
      if k = other then some (Tree.laidOver tree .absent) else none := by
  rw [Layer.at_eq (by simpa using k.tabular [] tree), List.foldl_cons, List.foldl_nil]
  show (if k.group.key = other.group.key ∧ k.name = other.name then _ else _) = _
  have hpath : k = other ↔ k.group.key = other.group.key ∧ k.name = other.name := by
    rw [← Key.path_injective.eq_iff]
    simp [Key.path]
  exact if_congr hpath.symm rfl rfl

/-! ## Options and their variables -/

def Flag.key? : Flag → Option Key
  | .config => none
  | .baseUrl => some .baseUrl
  | .agentId => some .agentId
  | .status => some .status
  | .maxRuns => some .maxRuns
  | .retryDelay => some .retryDelay
  | .logJson => some .logJson

theorem Flag.path?_eq (flag : Flag) : flag.path? = flag.key?.map Key.path := by
  cases flag <;> rfl

/-- No two options set one key. -/
theorem Flag.eq_of_key? {flag other : Flag} {k : Key} (h : flag.key? = some k)
    (h' : other.key? = some k) : flag = other := by
  cases flag <;> cases h <;> cases other <;> cases h' <;> rfl

/-- An option with what its variable says.  What the option cannot read is no value. -/
def Environment.choice? (environment : Environment) (flag : Flag) : Option (Flag × Scalar) :=
  (environment.get? flag.envName).bind fun text => (flag.read text).toOption.map (flag, ·)

def Environment.choices (environment : Environment) (flags : List Flag) : Choices :=
  flags.filterMap environment.choice?

theorem Environment.fst_of_choice? {environment : Environment} {flag : Flag} {choice : Flag × Scalar}
    (h : environment.choice? flag = some choice) : choice.1 = flag := by
  obtain ⟨text, -, h⟩ := Option.bind_eq_some_iff.1 h
  obtain ⟨value, -, rfl⟩ := Option.map_eq_some_iff.1 h
  rfl

namespace Choices

variable {choices : Choices}

theorem mem_layer {setting : Path × Tree} :
    setting ∈ choices.layer ↔ ∃ choice ∈ choices, ∃ k, choice.1.key? = some k ∧
      setting = (k.path, .leaf none choice.2) := by
  simp only [layer, List.mem_filterMap, Flag.path?_eq, Option.map_map, Option.map_eq_some_iff,
    Function.comp_apply, eq_comm (a := setting)]

theorem atKey (choices : Choices) : ∀ setting ∈ choices.layer, AtKey setting := by
  intro setting hmem
  obtain ⟨choice, -, k, -, rfl⟩ := mem_layer.1 hmem
  exact ⟨k, none, choice.2, rfl⟩

theorem at_eq_none_iff {k : Key} :
    choices.layer.at k = none ↔ ∀ choice ∈ choices, choice.1.key? ≠ some k := by
  rw [Layer.at_eq_none_iff choices.atKey]
  constructor
  · intro h choice hmem hkey
    exact h _ (mem_layer.2 ⟨choice, hmem, k, hkey, rfl⟩) rfl
  · intro h setting hmem hpath
    obtain ⟨choice, hchoice, k', hkey, rfl⟩ := mem_layer.1 hmem
    cases Key.path_injective hpath
    exact h choice hchoice hkey

theorem at_append (lower upper : Choices) (k : Key) :
    (lower ++ upper).layer.at k = (upper.layer.at k).or (lower.layer.at k) := by
  have hlayer : (lower ++ upper).layer = lower.layer ++ upper.layer := List.filterMap_append
  rw [hlayer]
  exact Layer.at_append (fun setting hmem => (lower.atKey setting hmem).tabular) upper.atKey k

end Choices

namespace CommandLine

variable {environment : Environment} {given choices : Choices} {flag : Flag} {flags : List Flag}

theorem addVariables_cons (h : addVariables environment given (flag :: flags) = .ok choices) :
    ((∃ choice ∈ given, choice.1 = flag) ∧ addVariables environment given flags = .ok choices) ∨
      (∀ choice ∈ given, choice.1 ≠ flag) ∧
        addVariables environment (given ++ (environment.choice? flag).toList) flags = .ok choices := by
  rw [addVariables] at h
  cases hgiven : given.any (·.1 = flag) with
  | true =>
    rw [hgiven] at h
    exact .inl ⟨by simpa using hgiven, h⟩
  | false =>
    have hnot : ∀ choice ∈ given, choice.1 ≠ flag := by simpa using hgiven
    refine .inr ⟨hnot, ?_⟩
    rw [hgiven] at h
    rw [Environment.choice?]
    cases hvalue : environment.get? flag.envName with
    | none =>
      rw [hvalue] at h
      rwa [Option.bind_none, Option.toList_none, List.append_nil]
    | some text =>
      rw [hvalue] at h
      obtain ⟨value, hread, h⟩ := bind_eq_ok.1 h
      rwa [Option.bind_some, hread]

/-- The options that have a value are those that are given and, of the others, those with a
variable. -/
theorem addVariables_at (hflags : flags.Nodup)
    (h : addVariables environment given flags = .ok choices) (k : Key) :
    choices.layer.at k = (given.layer.at k).or ((environment.choices flags).layer.at k) := by
  induction flags generalizing given with
  | nil =>
    cases h
    exact Option.or_none.symm
  | cons flag flags ih =>
    obtain ⟨hnot, hrest⟩ := List.nodup_cons.1 hflags
    have hown : environment.choices (flag :: flags) =
        (environment.choice? flag).toList ++ environment.choices flags := by
      rw [Environment.choices, List.filterMap_cons]
      cases environment.choice? flag <;> rfl
    rw [hown, Choices.at_append]
    by_cases hk : flag.key? = some k
    · -- Among the options, only this one sets the key.
      have hothers : (environment.choices flags).layer.at k = none := by
        refine Choices.at_eq_none_iff.2 fun choice hmem hkey => hnot ?_
        obtain ⟨other, hother, hchoice⟩ := List.mem_filterMap.1 hmem
        rw [Environment.fst_of_choice? hchoice] at hkey
        rwa [Flag.eq_of_key? hk hkey]
      rcases addVariables_cons h with ⟨⟨choice, hmem, hsame⟩, h⟩ | ⟨hfree, h⟩
      · have hset : given.layer.at k ≠ none := fun hnone =>
          Choices.at_eq_none_iff.1 hnone choice hmem (hsame ▸ hk)
        obtain ⟨tree, htree⟩ := Option.ne_none_iff_exists'.1 hset
        rw [ih hrest h, htree, Option.some_or, Option.some_or]
      · have hunset : given.layer.at k = none :=
          Choices.at_eq_none_iff.2 fun choice hmem hkey =>
            hfree choice hmem (Flag.eq_of_key? hkey hk)
        rw [ih hrest h, Choices.at_append, hothers, hunset]
        simp
    · have hnone : (Choices.layer (environment.choice? flag).toList).at k = none := by
        refine Choices.at_eq_none_iff.2 fun choice hmem => ?_
        rwa [Environment.fst_of_choice? (Option.mem_toList.1 hmem)]
      rw [hnone, Option.or_none]
      rcases addVariables_cons h with ⟨-, h⟩ | ⟨-, h⟩
      · exact ih hrest h
      · rw [ih hrest h, Choices.at_append, hnone, Option.none_or]

end CommandLine

end LiveRuns.Settings
