import LiveRuns.Proofs.Settings.File
import LiveRuns.Proofs.Settings.Sources

/-!
Settings from several sources.

A key can be set by an option, by the variable of that option, by a variable that names the key and
by the settings file.  Where the file has tables for the sections and the variables name keys, the
settings that are loaded take every key from the first of these that sets it, and else from the
defaults, `load_eq_ok`.  So what is set below has no influence, and no key changes another.
-/

namespace LiveRuns.Settings

structure Sources where
  options : Layer
  /-- The variables of the options. -/
  own : Layer
  /-- The variables that name keys. -/
  environment : Layer
  file : Layer

namespace Sources

def read (arguments : List String) (environment : Environment) (files : Files) :
    Except Fault Sources := do
  let given ← (CommandLine.readFrom [] none arguments).mapError .commandLine
  let choices ← (CommandLine.addVariables environment given Flag.all).mapError .commandLine
  let file ← (files.layer choices.fileName).mapError .file
  return ⟨given.layer, (environment.choices Flag.all).layer, environment.layer, file⟩

/-- The value of a key in the first source that sets it. -/
def highest (src : Sources) (k : Key) : Option Tree :=
  (src.options.at k).or <| (src.own.at k).or <| (src.environment.at k).or (src.file.at k)

/-- The value of a key in the first source that sets it, and nothing else. -/
def only (src : Sources) (k : Key) : Layer := (src.highest k).toList.map (k.path, ·)

/-- The variables name keys, and the file has tables for the sections. -/
structure Proper (src : Sources) : Prop where
  environment : ∀ setting ∈ src.environment, ∃ k : Key, setting.1 = k.path
  file : ∀ setting ∈ src.file, Tabular setting

end Sources

/-! ## The defaults -/

def standard : Settings where
  baseUrl := "http://127.0.0.1:3000"
  runsPath := Snapshot.defaultPath
  streamPath := Channel.defaultPath
  maxRuns := Roster.defaultCapacity
  retryDelay := Feed.defaultRetryDelay
  logJson := false

theorem defaults_atKey : ∀ setting ∈ defaults, AtKey setting := by
  simp only [defaults, List.forall_mem_cons]
  exact ⟨⟨.baseUrl, _, _, rfl⟩, ⟨.runsPath, _, _, rfl⟩, ⟨.streamPath, _, _, rfl⟩,
    ⟨.maxRuns, _, _, rfl⟩, ⟨.retryDelay, _, _, rfl⟩, ⟨.logJson, _, _, rfl⟩, List.forall_mem_nil _⟩

theorem defaults_tabular : ∀ setting ∈ defaults, Tabular setting :=
  fun setting hmem => (defaults_atKey setting hmem).tabular

theorem read_defaults (k : Key) : k.read (Layer.at defaults k) = .ok (standard.value k) := by
  cases k <;> rfl

/-- What files and options set on top of the defaults counts before them. -/
theorem at_defaults_append {layer : Layer} (h : ∀ setting ∈ layer, Tabular setting) (k : Key) :
    Layer.at (defaults ++ layer) k = (layer.at k).or (Layer.at defaults k) :=
  Layer.at_append_of_plain defaults_tabular h (Key.plain_of_read (read_defaults k))

/-! ## What is loaded -/

section

variable {layers : List Layer} (h : ∀ layer ∈ layers, ∀ setting ∈ layer, Tabular setting)
include h

theorem at_ofLayers (k : Key) : (Tree.ofLayers layers).at k = Layer.at layers.flatten k := by
  rw [Layer.at_eq (List.forall_mem_flatten.2 h), Tree.at, under?_ofLayers h]

/-- The settings of some layers are those whose values are read key by key. -/
theorem ofTree_ofLayers_eq_ok {s : Settings} :
    ofTree (.ofLayers layers) = .ok s ↔
      ∀ k : Key, k.read (Layer.at layers.flatten k) = .ok (s.value k) := by
  rw [ofTree_eq_ok (sectioned_ofLayers h)]
  simp only [at_ofLayers h]

end

variable {arguments : List String} {environment : Environment} {files : Files} {src : Sources}
  {s : Settings}

/-- A variable that names a key sets a plain value at it. -/
theorem atKey_environment (h : ∀ setting ∈ environment.layer, ∃ k : Key, setting.1 = k.path) :
    ∀ setting ∈ environment.layer, AtKey setting := by
  intro setting hmem
  obtain ⟨k, hk⟩ := h setting hmem
  obtain ⟨entry, -, hset⟩ := List.mem_filterMap.1 hmem
  obtain ⟨-, hset⟩ := Option.ite_none_right_eq_some.1 hset
  cases hset
  exact ⟨k, _, _, Prod.ext hk rfl⟩

/-- Settings are loaded from layers of which, at each key, the first source that sets it counts. -/
theorem Sources.exists_layers (hread : read arguments environment files = .ok src)
    (proper : src.Proper) :
    ∃ layers : List Layer, (∀ layer ∈ layers, ∀ setting ∈ layer, Tabular setting) ∧
      load arguments environment files = ofTree (.ofLayers layers) ∧
        ∀ k, Layer.at layers.flatten k = (src.highest k).or (Layer.at defaults k) := by
  obtain ⟨given, hgiven, h⟩ := bind_eq_ok.1 hread
  obtain ⟨choices, hchoices, h⟩ := bind_eq_ok.1 h
  obtain ⟨file, hfile, h⟩ := bind_eq_ok.1 h
  rw [mapError_eq_ok] at hgiven hchoices hfile
  cases h
  have henv := atKey_environment proper.environment
  have henvtab := fun setting hmem => (henv setting hmem).tabular
  have hchoicestab := fun setting hmem => (choices.atKey setting hmem).tabular
  refine ⟨[defaults, file, environment.layer, choices.layer], ?_, ?_, fun k => ?_⟩
  · simp only [List.forall_mem_cons]
    exact ⟨defaults_tabular, proper.file, henvtab, hchoicestab, List.forall_mem_nil _⟩
  · simp [load, CommandLine.read, hgiven, hchoices, hfile, mapError_ok, bind, Except.bind]
  · have hvariables : Layer.at (file ++ (environment.layer ++ choices.layer)) k =
        ((choices.layer.at k).or (environment.layer.at k)).or (file.at k) := by
      rw [Layer.at_append proper.file (List.forall_mem_append.2 ⟨henv, choices.atKey⟩),
        Layer.at_append henvtab choices.atKey]
    have hflatten : [defaults, file, environment.layer, choices.layer].flatten =
        defaults ++ (file ++ (environment.layer ++ choices.layer)) := by simp
    rw [hflatten, at_defaults_append, hvariables, CommandLine.addVariables_at (by decide) hchoices,
      Sources.highest]
    · simp only [Option.or_assoc]
    · exact List.forall_mem_append.2
        ⟨proper.file, List.forall_mem_append.2 ⟨henvtab, hchoicestab⟩⟩

/-- Settings are loaded just if every key is read from the first source that sets it. -/
theorem load_eq_ok (hread : Sources.read arguments environment files = .ok src)
    (proper : src.Proper) :
    load arguments environment files = .ok s ↔
      ∀ k : Key, k.read ((src.highest k).or (Layer.at defaults k)) = .ok (s.value k) := by
  obtain ⟨layers, htab, hload, hat⟩ := Sources.exists_layers hread proper
  rw [hload, ofTree_ofLayers_eq_ok htab]
  simp only [hat]

/-! ## One key by itself -/

/-- The settings with one key as in others. -/
def take (s : Settings) (k : Key) (other : Settings) : Settings :=
  match k with
  | .baseUrl => { s with baseUrl := other.baseUrl }
  | .runsPath => { s with runsPath := other.runsPath }
  | .streamPath => { s with streamPath := other.streamPath }
  | .maxRuns => { s with maxRuns := other.maxRuns }
  | .retryDelay => { s with retryDelay := other.retryDelay }
  | .agentId => { s with agentId := other.agentId }
  | .status => { s with status := other.status }
  | .since => { s with since := other.since }
  | .before => { s with before := other.before }
  | .logJson => { s with logJson := other.logJson }

theorem at_plain {k : Key} {tree? : Option Tree} (h : Plain tree?) (other : Key) :
    Layer.at (tree?.toList.map (k.path, ·)) other = if k = other then tree? else none := by
  cases tree? with
  | none => exact (ite_self none).symm
  | some tree =>
    obtain ⟨origin, value, rfl⟩ := h tree rfl
    exact Layer.at_singleton k _ other

end LiveRuns.Settings
