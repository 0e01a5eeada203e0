import LiveRuns.Proofs.Settings.Guess
import LiveRuns.Proofs.Settings.Layers

/-!
The agent that runs are narrowed to.

An agent can be named by an option, by the variable of that option, by a variable that names the key
and by the settings file.  The first of them that does counts, `load_agent_named`.  Three of them leave
the text as it is, but the value of a variable that names a key may be taken for something else: the
variable `007` names the agent `7`.
-/

namespace LiveRuns.Settings

/-! ## Sources that name an agent -/

def agentArguments (option : Option String) : List String :=
  option.toList.map ("--agent-id=" ++ ·)

def agentVariables (own named : Option String) : Environment :=
  own.toList.map ("RUNS_AGENT_ID", ·) ++ named.toList.map ("RUNSYNC_FILTER__AGENT_ID", ·)

/-- A settings file that sets the agent only, if any key. -/
structure NamesOnly (file : Layer) (agent : Option String) : Prop where
  tabular : ∀ setting ∈ file, Tabular setting
  others : ∀ k ≠ Key.agentId, file.at k = none
  agent : ∃ origin, file.at .agentId = agent.map fun v => .leaf origin (.text v)

theorem ofText_agentArgument (v : String) :
    CommandLine.Argument.ofText ("--agent-id=" ++ v) = .long "agent-id" (some v) := by
  have htext : ("--agent-id=" ++ v).toList = '-' :: '-' :: ("agent-id".toList ++ '=' :: v.toList) := by
    simp
  rw [CommandLine.Argument.ofText, htext]
  simp [CommandLine.cutValue]

theorem readFrom_agentArguments (option : Option String) :
    CommandLine.readFrom [] none (agentArguments option) =
      .ok (option.toList.map fun v => (.agentId, .text v)) := by
  cases option with
  | none => rfl
  | some v =>
    show CommandLine.readFrom [] none ["--agent-id=" ++ v] = _
    rw [CommandLine.readFrom, ofText_agentArgument]
    rfl

theorem choices_agentVariables (own named : Option String) :
    (agentVariables own named).choices Flag.all = own.toList.map fun v => (.agentId, .text v) := by
  cases own <;> cases named <;> rfl

theorem setting?_own (v : String) : Environment.setting? ("RUNS_AGENT_ID", v) = none := by
  have hlower : Unicode.lower "RUNS_AGENT_ID".toList = "runs_agent_id".toList := by decide
  rw [Environment.setting?, hlower]
  rfl

theorem setting?_named (v : String) :
    Environment.setting? ("RUNSYNC_FILTER__AGENT_ID", v) =
      some (Key.agentId.path, .leaf (some Environment.origin) (Environment.valueOf v)) := by
  have hlower : Unicode.lower "RUNSYNC_FILTER__AGENT_ID".toList =
      Environment.start ++ "filter__agent_id".toList := by decide
  have hpath : Path.ofText (String.ofList (Environment.dotted "filter__agent_id".toList)) =
      Key.agentId.path := by decide
  rw [Environment.setting?, hlower]
  show (if _ then some (Path.ofText (String.ofList (Environment.dotted (List.drop _ _))), _)
    else none) = _
  rw [if_pos (List.isPrefixOf_iff_prefix.2 (List.prefix_append _ _)), List.drop_left, hpath]

theorem layer_agentVariables (own named : Option String) :
    (agentVariables own named).layer =
      (named.map fun v => Tree.leaf (some Environment.origin) (Environment.valueOf v)).toList.map
        (Key.agentId.path, ·) := by
  cases own <;> cases named <;>
    simp [agentVariables, Environment.layer, setting?_own, setting?_named]

theorem addVariables_agentVariables (option own named : Option String) :
    CommandLine.addVariables (agentVariables own named)
        (option.toList.map fun v => (.agentId, .text v)) Flag.all =
      .ok ((option.or own).toList.map fun v => (.agentId, .text v)) := by
  cases option <;> cases own <;> cases named <;> rfl

/-! ## The agent that counts -/

/-- What an option or its variable sets. -/
def given (agent : Option String) : Option Tree := agent.map fun v => .leaf none (.text v)

/-- What a variable that names the key sets. -/
def guessed (agent : Option String) : Option Tree :=
  agent.map fun v => .leaf (some Environment.origin) (Environment.valueOf v)

def agentLayer (tree? : Option Tree) : Layer := tree?.toList.map (Key.agentId.path, ·)

theorem plain_given (agent : Option String) : Plain (given agent) := by
  cases agent <;> simp [given, Plain]

theorem plain_guessed (agent : Option String) : Plain (guessed agent) := by
  cases agent <;> simp [guessed, Plain]

section

variable (option own named : Option String) {inFile : Option String} {files : Files} {file : Layer}

theorem read_agent (hfile : files.layer none = .ok file) :
    Sources.read (agentArguments option) (agentVariables own named) files =
      .ok ⟨agentLayer (given option), agentLayer (given own), agentLayer (guessed named), file⟩ := by
  have hname : Choices.fileName ((option.or own).toList.map fun v => (.agentId, .text v)) = none := by
    cases option <;> cases own <;> rfl
  refine bind_eq_ok.2 ⟨_, mapError_eq_ok.2 (readFrom_agentArguments option), bind_eq_ok.2 ⟨_,
    mapError_eq_ok.2 (addVariables_agentVariables option own named), bind_eq_ok.2 ⟨file, ?_, ?_⟩⟩⟩
  · rw [mapError_eq_ok, hname, hfile]
  · rw [choices_agentVariables, layer_agentVariables]
    cases option <;> cases own <;> rfl

theorem proper_agent (hnames : NamesOnly file inFile) :
    Sources.Proper
      ⟨agentLayer (given option), agentLayer (given own), agentLayer (guessed named), file⟩ where
  environment := List.forall_mem_map.2 fun _ _ => ⟨.agentId, rfl⟩
  file := hnames.tabular

/-- The first source that names an agent counts. -/
theorem load_agent_named (hfile : files.layer none = .ok file) (hnames : NamesOnly file inFile) :
    load (agentArguments option) (agentVariables own named) files =
      .ok { standard with
        agentId := option.or (own.or ((named.map Environment.said).or inFile)) } := by
  rw [load_eq_ok (read_agent option own named hfile) (proper_agent option own named hnames)]
  intro k
  simp only [Sources.highest, agentLayer, at_plain, plain_given, plain_guessed]
  by_cases hk : Key.agentId = k
  · subst hk
    obtain ⟨origin, hagent⟩ := hnames.agent
    rw [if_pos rfl, if_pos rfl, if_pos rfl, hagent]
    cases option with
    | some v => rfl
    | none =>
      cases own with
      | some v => rfl
      | none =>
        cases named with
        | none => cases inFile <;> rfl
        | some v =>
          show Key.ofText? <$> Place.optionalText ⟨_, .leaf _ (Environment.valueOf v)⟩ = _
          rw [Environment.optionalText_valueOf]
          rfl
  · rw [if_neg hk, if_neg hk, if_neg hk, hnames.others k (Ne.symm hk)]
    have hvalue := read_defaults k
    cases k with
    | agentId => exact absurd rfl hk
    | _ => exact hvalue

end

/-! ## A file for every agent -/

def agentFile (agent : String) : Files := jsonFile [("filter", .object [("agent_id", .text agent)])]

def agentSetting (agent : String) : Path × Tree :=
  ([.key "filter"], .ofDatum (some "run-sync.json") (.table [("agent_id", .text agent)]))

theorem layer_agentFile (agent : String) :
    (agentFile agent).layer none = .ok [agentSetting agent] := by
  have hsound : ∀ m ∈ [("agent_id", Json.Value.text agent)], m.2.Sound 125 :=
    List.forall_mem_singleton.2 (.text agent)
  have hfree : ∀ m ∈ [("agent_id", Json.Value.text agent)], m.2.FloatFree :=
    List.forall_mem_singleton.2 (.text agent)
  have hlayer := layer_jsonFile [("filter", .object [("agent_id", .text agent)])]
    (List.pairwise_singleton _ _)
    (List.forall_mem_singleton.2 (.object (List.pairwise_singleton _ _) hsound))
    (List.forall_mem_singleton.2 (.object hfree))
  have hpath : Path.ofText "filter" = [.key "filter"] := by decide
  rw [agentFile, hlayer, agentSetting, ← hpath]
  rfl

theorem namesOnly_agentFile (agent : String) : NamesOnly [agentSetting agent] (some agent) where
  tabular := List.forall_mem_singleton.2 (.whole (s := .filter))
  others k hk := by
    cases k with
    | agentId => exact absurd rfl hk
    | _ => rfl
  agent := ⟨_, rfl⟩

/-! ## The filter of the stream -/

theorem said_digits : Environment.said "007" = "7" := rfl

theorem isWord_agent : Environment.IsWord "agent-9" where
  begins := by
    intro c hc
    cases hc
    decide
  truth := by decide
  number := by decide

/-- Where nothing but an agent is named, the settings load, and the stream is narrowed to the agent
that the option names, or else its variable, or else a variable that names the key, or else the file.
Only the third of these need not be the text that was given.  It is, unless that reads as a truth value
or as a number that is written otherwise; and a text that does not begin like a number reads as neither
unless it is a word for one. -/
theorem streamParams_of_agents (option own named inFile : Option String) {files : Files}
    {file : Layer} (hfile : files.layer none = .ok file) (hnames : NamesOnly file inFile) :
    (∃ s, load (agentArguments option) (agentVariables own named) files = .ok s ∧
      s.streamParams = .ok
        { agentId := option.or (own.or ((named.map Environment.said).or inFile)) }) ∧
      (∀ v, Environment.said v = v ↔
        (∀ b, Environment.valueOf v = .bool b → v = if b then "true" else "false") ∧
          (∀ i, Environment.valueOf v = .integer i → v = toString i) ∧
            ∀ bits, Environment.valueOf v = .float bits →
              v = String.ofList (Decimal.positional bits)) ∧
        ∀ v, Environment.IsWord v → Environment.said v = v := by
  refine ⟨⟨_, load_agent_named option own named hfile hnames, rfl⟩, Environment.said_eq_self_iff, ?_⟩
  exact fun _ => Environment.said_of_isWord

/-- The text `007` is kept by the option, by its variable and by the file, and `agent-9` by the variable
that names the key as well. -/
theorem streamParams_of_agents_digits :
    (∃ s, load ["--agent-id=007"] [("RUNSYNC_FILTER__AGENT_ID", "a")] (agentFile "b") = .ok s ∧
      s.streamParams = .ok { agentId := some "007" }) ∧
    (∃ s, load [] [("RUNS_AGENT_ID", "007")] (agentFile "b") = .ok s ∧
      s.streamParams = .ok { agentId := some "007" }) ∧
    (∃ s, load [] [] (agentFile "007") = .ok s ∧
      s.streamParams = .ok { agentId := some "007" }) ∧
    (∃ s, load [] [("RUNSYNC_FILTER__AGENT_ID", "007")] (agentFile "b") = .ok s ∧
      s.streamParams = .ok { agentId := some "7" }) ∧
    Environment.said "agent-9" = "agent-9" := by
  have hfile := layer_agentFile
  have hnames := namesOnly_agentFile
  have hnamed := streamParams_of_agents none none (some "007") _ (hfile "b") (hnames "b")
  rw [Option.map_some, said_digits] at hnamed
  exact ⟨(streamParams_of_agents (some "007") none (some "a") _ (hfile "b") (hnames "b")).1,
    (streamParams_of_agents none (some "007") none _ (hfile "b") (hnames "b")).1,
    (streamParams_of_agents none none none _ (hfile "007") (hnames "007")).1, hnamed.1,
    hnamed.2.2 _ isWord_agent⟩

theorem namesOnly_nil : NamesOnly [] none where
  tabular := nofun
  others _ _ := rfl
  agent := ⟨none, rfl⟩

/-- Not every agent is kept: the variable that names the key makes `7` of `007`. -/
theorem not_all_agents_kept :
    ¬ ∀ v : String, v ≠ "" → '\x00' ∉ v.toList →
      ∃ s, load [] [("RUNSYNC_FILTER__AGENT_ID", v)] [] = .ok s ∧
        s.streamParams = .ok { agentId := some v } := by
  intro h
  obtain ⟨s, hload, hparams⟩ := h "007" (by decide) (by decide)
  have hnone : Files.layer [] none = .ok [] := by rfl
  have hloads := load_agent_named none none (some "007") hnone namesOnly_nil
  have hsame : load [] [("RUNSYNC_FILTER__AGENT_ID", "007")] [] =
      .ok { standard with agentId := some "7" } := by
    rw [Option.map_some, said_digits] at hloads
    exact hloads
  rw [hsame] at hload
  cases hload
  have hagent := congrArg StreamParams.agentId (Except.ok.inj hparams)
  exact absurd hagent (by decide)

end LiveRuns.Settings
