import LiveRuns.Proofs.Except
import LiveRuns.Proofs.Settings.Tree
import LiveRuns.Settings.Load

/-!
The keys of the settings.

Settings are decoded section by section, and some sections may be lists.  Where every section is a
table or not there, each key is read by itself: the settings that a tree has are those whose value of
every key is read from what stands there, `ofTree_eq_ok`.
-/

namespace LiveRuns.Settings

inductive Key where
  | baseUrl
  | runsPath
  | streamPath
  | maxRuns
  | retryDelay
  | agentId
  | status
  | since
  | before
  | logJson
deriving DecidableEq, Repr

namespace Key

def group : Key → Section
  | .baseUrl | .runsPath | .streamPath => .server
  | .maxRuns | .retryDelay => .feed
  | .agentId | .status | .since | .before => .filter
  | .logJson => .log

def number : Key → Nat
  | .baseUrl | .maxRuns | .agentId | .logJson => 0
  | .runsPath | .retryDelay | .status => 1
  | .streamPath | .since => 2
  | .before => 3

def name (k : Key) : String := k.group.keys.getD k.number ""

def path (k : Key) : Path := [.key k.group.key, .key k.name]

def ofText? : Option String → Scalar
  | some text => .text text
  | none => .nothing

def convert (k : Key) (place : Place) : Except Fault Scalar :=
  match k.group with
  | .server => .text <$> place.text
  | .feed => (fun n : Nat => .integer n) <$> place.natural
  | .filter => ofText? <$> place.optionalText
  | .log => .bool <$> place.bool

/-- Read the value of a key.  Only a filter need not be set. -/
def read (k : Key) : Option Tree → Except Fault Scalar
  | some tree => k.convert ⟨k.group.key ++ "." ++ k.name, tree⟩
  | none =>
    if k.group = .filter then .ok .nothing else .error (.missing (k.group.key ++ "." ++ k.name))

end Key

def value (s : Settings) : Key → Scalar
  | .baseUrl => .text s.baseUrl
  | .runsPath => .text s.runsPath
  | .streamPath => .text s.streamPath
  | .maxRuns => .integer s.maxRuns
  | .retryDelay => .integer s.retryDelay
  | .agentId => Key.ofText? s.agentId
  | .status => Key.ofText? s.status
  | .since => Key.ofText? s.since
  | .before => Key.ofText? s.before
  | .logJson => .bool s.logJson

def Tree.at (t : Tree) (k : Key) : Option Tree := t.under? k.group.key k.name

/-! ## Sections that are tables -/

namespace Key

theorem ofText?_injective : Function.Injective ofText? := by
  intro a b h
  cases a <;> cases b <;> cases h <;> rfl

theorem keys_number (k : Key) : k.group.keys[k.number]? = some k.name := by
  cases k <;> rfl

variable {α : Type} (origin : Option String) (entries : List (String × Tree))

theorem read?_eq_ok (k : Key) {f : Place → Except Fault α} {a? : Option α} :
    k.group.read? (.table origin entries) f k.number = .ok a? ↔
      (entries.lookup k.name = none ∧ a? = none) ∨ ∃ tree a, entries.lookup k.name = some tree ∧
        f ⟨k.group.key ++ "." ++ k.name, tree⟩ = .ok a ∧ a? = some a := by
  rw [Section.read?, Section.place?, keys_number, Option.bind_some]
  cases entries.lookup k.name with
  | none =>
    show Except.ok none = Except.ok a? ↔ _
    simp [eq_comm]
  | some tree =>
    show some <$> f ⟨k.group.key ++ "." ++ k.name, tree⟩ = .ok a? ↔ _
    rw [map_eq_ok]
    simp [eq_comm]

theorem need_eq_ok {s : Section} {number : Nat} {a? : Option α} {a : α} :
    s.need (.table origin entries) number a? = .ok a ↔ a? = some a := by
  cases a? with
  | none => exact ⟨nofun, nofun⟩
  | some b => simp [Section.need]

/-- A key that has to be set is decoded just if it is read. -/
theorem need_iff {k : Key} {f : Place → Except Fault α} {wrap : α → Scalar}
    (injective : Function.Injective wrap) (hf : ∀ place, k.convert place = wrap <$> f place)
    (hk : k.group ≠ .filter) {a : α} :
    (∃ a?, k.group.read? (.table origin entries) f k.number = .ok a? ∧
      k.group.need (.table origin entries) k.number a? = .ok a) ↔
        k.read (entries.lookup k.name) = .ok (wrap a) := by
  simp only [read?_eq_ok, need_eq_ok]
  cases entries.lookup k.name with
  | none => simp [read, hk]
  | some tree => simp [read, hf, map_eq_ok, injective.eq_iff]

/-- A key that need not be set is decoded just if it is read. -/
theorem allow_iff {k : Key} (hk : k.group = .filter) {v : Option String} :
    (∃ a?, k.group.read? (.table origin entries) Place.optionalText k.number = .ok a? ∧
      k.group.allow (.table origin entries) k.number a? = .ok v) ↔
        k.read (entries.lookup k.name) = .ok (ofText? v) := by
  have hallow (a? : Option (Option String)) :
      k.group.allow (.table origin entries) k.number a? = .ok a?.join := rfl
  have hconvert (place : Place) : k.convert place = ofText? <$> place.optionalText := by
    rw [convert, hk]
  simp only [read?_eq_ok, hallow]
  cases entries.lookup k.name with
  | none => cases v <;> simp [read, hk, ofText?]
  | some tree => simp [read, hconvert, map_eq_ok, ofText?_injective.eq_iff]

end Key

/-! ## Sections -/

section

variable (origin : Option String) (entries : List (String × Tree))

theorem text_injective : Function.Injective Scalar.text := fun _ _ h => by cases h; rfl

theorem natural_injective : Function.Injective fun n : Nat => Scalar.integer n := by
  intro a b h
  exact Int.ofNat.inj (Scalar.integer.inj h)

theorem bool_injective : Function.Injective Scalar.bool := fun _ _ h => by cases h; rfl

theorem ofServer_eq_ok {base runs stream : String} :
    ofServer (.table origin entries) = .ok (base, runs, stream) ↔
      Key.baseUrl.read (entries.lookup Key.baseUrl.name) = .ok (.text base) ∧
        Key.runsPath.read (entries.lookup Key.runsPath.name) = .ok (.text runs) ∧
          Key.streamPath.read (entries.lookup Key.streamPath.name) = .ok (.text stream) := by
  have hneed (k : Key) (hk : k.group = .server) {text : String} :=
    Key.need_iff origin entries (k := k) (a := text) text_injective
      (fun place => by rw [Key.convert, hk]) (by rw [hk]; decide)
  rw [← hneed .baseUrl rfl, ← hneed .runsPath rfl, ← hneed .streamPath rfl]
  unfold ofServer
  constructor
  · intro h
    obtain ⟨base?, hbase, h⟩ := bind_eq_ok.1 h
    obtain ⟨runs?, hruns, h⟩ := bind_eq_ok.1 h
    obtain ⟨stream?, hstream, h⟩ := bind_eq_ok.1 h
    obtain ⟨_, hbase', h⟩ := bind_eq_ok.1 h
    obtain ⟨_, hruns', h⟩ := bind_eq_ok.1 h
    obtain ⟨_, hstream', h⟩ := bind_eq_ok.1 h
    cases h
    exact ⟨⟨base?, hbase, hbase'⟩, ⟨runs?, hruns, hruns'⟩, stream?, hstream, hstream'⟩
  · rintro ⟨⟨base?, hbase, hbase'⟩, ⟨runs?, hruns, hruns'⟩, stream?, hstream, hstream'⟩
    exact bind_eq_ok.2 ⟨_, hbase, bind_eq_ok.2 ⟨_, hruns, bind_eq_ok.2 ⟨_, hstream,
      bind_eq_ok.2 ⟨_, hbase', bind_eq_ok.2 ⟨_, hruns', bind_eq_ok.2 ⟨_, hstream', rfl⟩⟩⟩⟩⟩⟩

theorem ofFeed_eq_ok {capacity delay : Nat} :
    ofFeed (.table origin entries) = .ok (capacity, delay) ↔
      Key.maxRuns.read (entries.lookup Key.maxRuns.name) = .ok (.integer capacity) ∧
        Key.retryDelay.read (entries.lookup Key.retryDelay.name) = .ok (.integer delay) := by
  have hneed (k : Key) (hk : k.group = .feed) {n : Nat} :=
    Key.need_iff origin entries (k := k) (a := n) natural_injective
      (fun place => by rw [Key.convert, hk]) (by rw [hk]; decide)
  rw [← hneed .maxRuns rfl, ← hneed .retryDelay rfl]
  unfold ofFeed
  constructor
  · intro h
    obtain ⟨capacity?, hcapacity, h⟩ := bind_eq_ok.1 h
    obtain ⟨delay?, hdelay, h⟩ := bind_eq_ok.1 h
    obtain ⟨_, hcapacity', h⟩ := bind_eq_ok.1 h
    obtain ⟨_, hdelay', h⟩ := bind_eq_ok.1 h
    cases h
    exact ⟨⟨capacity?, hcapacity, hcapacity'⟩, delay?, hdelay, hdelay'⟩
  · rintro ⟨⟨capacity?, hcapacity, hcapacity'⟩, delay?, hdelay, hdelay'⟩
    exact bind_eq_ok.2 ⟨_, hcapacity, bind_eq_ok.2 ⟨_, hdelay,
      bind_eq_ok.2 ⟨_, hcapacity', bind_eq_ok.2 ⟨_, hdelay', rfl⟩⟩⟩⟩

theorem ofFilter_eq_ok {agent status since before : Option String} :
    ofFilter (.table origin entries) = .ok (agent, status, since, before) ↔
      Key.agentId.read (entries.lookup Key.agentId.name) = .ok (Key.ofText? agent) ∧
        Key.status.read (entries.lookup Key.status.name) = .ok (Key.ofText? status) ∧
          Key.since.read (entries.lookup Key.since.name) = .ok (Key.ofText? since) ∧
            Key.before.read (entries.lookup Key.before.name) = .ok (Key.ofText? before) := by
  have hallow (k : Key) (hk : k.group = .filter) {v : Option String} :=
    Key.allow_iff origin entries (v := v) hk
  rw [← hallow .agentId rfl, ← hallow .status rfl, ← hallow .since rfl, ← hallow .before rfl]
  unfold ofFilter
  constructor
  · intro h
    obtain ⟨agent?, hagent, h⟩ := bind_eq_ok.1 h
    obtain ⟨status?, hstatus, h⟩ := bind_eq_ok.1 h
    obtain ⟨since?, hsince, h⟩ := bind_eq_ok.1 h
    obtain ⟨before?, hbefore, h⟩ := bind_eq_ok.1 h
    obtain ⟨_, hagent', h⟩ := bind_eq_ok.1 h
    obtain ⟨_, hstatus', h⟩ := bind_eq_ok.1 h
    obtain ⟨_, hsince', h⟩ := bind_eq_ok.1 h
    obtain ⟨_, hbefore', h⟩ := bind_eq_ok.1 h
    cases h
    exact ⟨⟨agent?, hagent, hagent'⟩, ⟨status?, hstatus, hstatus'⟩, ⟨since?, hsince, hsince'⟩,
      before?, hbefore, hbefore'⟩
  · rintro ⟨⟨agent?, hagent, hagent'⟩, ⟨status?, hstatus, hstatus'⟩, ⟨since?, hsince, hsince'⟩,
      before?, hbefore, hbefore'⟩
    exact bind_eq_ok.2 ⟨_, hagent, bind_eq_ok.2 ⟨_, hstatus, bind_eq_ok.2 ⟨_, hsince,
      bind_eq_ok.2 ⟨_, hbefore, bind_eq_ok.2 ⟨_, hagent', bind_eq_ok.2 ⟨_, hstatus',
        bind_eq_ok.2 ⟨_, hsince', bind_eq_ok.2 ⟨_, hbefore', rfl⟩⟩⟩⟩⟩⟩⟩⟩

theorem ofLog_eq_ok {json : Bool} :
    ofLog (.table origin entries) = .ok json ↔
      Key.logJson.read (entries.lookup Key.logJson.name) = .ok (.bool json) := by
  rw [← Key.need_iff origin entries bool_injective (fun place => rfl) (by decide), ofLog,
    bind_eq_ok]
  rfl

end

/-! ## Trees -/

theorem find_eq_ok {s : Section} {root tree : Tree} :
    s.find root = .ok tree ↔ root.at? s.key = some tree := by
  rw [Section.find, Tree.at?]
  cases root.entries.lookup s.key <;> simp

theorem Tree.at_of_table {root : Tree} {k : Key} {origin : Option String}
    {entries : List (String × Tree)} (h : root.at? k.group.key = some (.table origin entries)) :
    root.at k = entries.lookup k.name := by
  rw [Tree.at, Tree.under?, h]
  rfl

/-- A key that has to be set is read only in a section that is there. -/
theorem Sectioned.exists_of_read {root : Tree} (h : Sectioned root) {k : Key}
    (hk : k.group ≠ .filter) {v : Scalar} (hread : k.read (root.at k) = .ok v) :
    ∃ origin entries, root.at? k.group.key = some (.table origin entries) := by
  cases hsection : root.at? k.group.key with
  | none =>
    rw [Tree.at, Tree.under?, hsection, Option.bind_none, Key.read, if_neg hk] at hread
    cases hread
  | some tree =>
    obtain ⟨origin, entries, rfl⟩ := h k.group tree hsection
    exact ⟨origin, entries, rfl⟩

theorem Sectioned.exists_filter {root : Tree} (h : Sectioned root) :
    ∃ origin entries,
      (root.at? Section.filter.key).getD (.table none []) = .table origin entries ∧
        ∀ k : Key, k.group = .filter → root.at k = entries.lookup k.name := by
  cases hsection : root.at? Section.filter.key with
  | none =>
    refine ⟨none, [], rfl, fun k hk => ?_⟩
    rw [Tree.at, Tree.under?, hk, hsection]
    rfl
  | some tree =>
    obtain ⟨origin, entries, rfl⟩ := h .filter tree hsection
    refine ⟨origin, entries, rfl, fun k hk => ?_⟩
    have hat : root.at? k.group.key = some (.table origin entries) := by rw [hk, hsection]
    exact Tree.at_of_table hat

/-- Settings are decoded section by section. -/
theorem ofTree_eq_ok_iff {root : Tree} {s : Settings} :
    ofTree root = .ok s ↔
      ∃ server feed log, root.at? Section.server.key = some server ∧
        root.at? Section.feed.key = some feed ∧ root.at? Section.log.key = some log ∧
          ofServer server = .ok (s.baseUrl, s.runsPath, s.streamPath) ∧
            ofFeed feed = .ok (s.maxRuns, s.retryDelay) ∧
              ofFilter ((root.at? Section.filter.key).getD (.table none [])) =
                .ok (s.agentId, s.status, s.since, s.before) ∧
                ofLog log = .ok s.logJson := by
  unfold ofTree
  constructor
  · intro h
    obtain ⟨server, hserver, h⟩ := bind_eq_ok.1 h
    obtain ⟨⟨base, runs, stream⟩, hserved, h⟩ := bind_eq_ok.1 h
    obtain ⟨feed, hfeed, h⟩ := bind_eq_ok.1 h
    obtain ⟨⟨capacity, delay⟩, hfed, h⟩ := bind_eq_ok.1 h
    obtain ⟨⟨agent, status, since, before⟩, hfiltered, h⟩ := bind_eq_ok.1 h
    obtain ⟨log, hlog, h⟩ := bind_eq_ok.1 h
    obtain ⟨json, hlogged, h⟩ := bind_eq_ok.1 h
    cases h
    exact ⟨server, feed, log, find_eq_ok.1 hserver, find_eq_ok.1 hfeed, find_eq_ok.1 hlog, hserved,
      hfed, hfiltered, hlogged⟩
  · rintro ⟨server, feed, log, hserver, hfeed, hlog, hserved, hfed, hfiltered, hlogged⟩
    exact bind_eq_ok.2 ⟨_, find_eq_ok.2 hserver, bind_eq_ok.2 ⟨_, hserved,
      bind_eq_ok.2 ⟨_, find_eq_ok.2 hfeed, bind_eq_ok.2 ⟨_, hfed, bind_eq_ok.2 ⟨_, hfiltered,
        bind_eq_ok.2 ⟨_, find_eq_ok.2 hlog, bind_eq_ok.2 ⟨_, hlogged, rfl⟩⟩⟩⟩⟩⟩⟩

/-- Where the sections are tables, the settings of a tree are those whose values are read key by
key. -/
theorem ofTree_eq_ok {root : Tree} (h : Sectioned root) {settings : Settings} :
    ofTree root = .ok settings ↔ ∀ k : Key, k.read (root.at k) = .ok (settings.value k) := by
  obtain ⟨_, _, hfilter, hfilterAt⟩ := h.exists_filter
  rw [ofTree_eq_ok_iff, hfilter]
  constructor
  · rintro ⟨server, feed, log, hserver, hfeed, hlog, hserved, hfed, hfiltered, hlogged⟩
    obtain ⟨_, _, rfl⟩ := h .server server hserver
    obtain ⟨_, _, rfl⟩ := h .feed feed hfeed
    obtain ⟨_, _, rfl⟩ := h .log log hlog
    obtain ⟨hbase, hruns, hstream⟩ := (ofServer_eq_ok _ _).1 hserved
    obtain ⟨hcapacity, hdelay⟩ := (ofFeed_eq_ok _ _).1 hfed
    obtain ⟨hagent, hstatus, hsince, hbefore⟩ := (ofFilter_eq_ok _ _).1 hfiltered
    have hjson := (ofLog_eq_ok _ _).1 hlogged
    intro k
    cases k with
    | baseUrl => rwa [Tree.at_of_table (k := .baseUrl) hserver]
    | runsPath => rwa [Tree.at_of_table (k := .runsPath) hserver]
    | streamPath => rwa [Tree.at_of_table (k := .streamPath) hserver]
    | maxRuns => rwa [Tree.at_of_table (k := .maxRuns) hfeed]
    | retryDelay => rwa [Tree.at_of_table (k := .retryDelay) hfeed]
    | agentId => rwa [hfilterAt .agentId rfl]
    | status => rwa [hfilterAt .status rfl]
    | since => rwa [hfilterAt .since rfl]
    | before => rwa [hfilterAt .before rfl]
    | logJson => rwa [Tree.at_of_table (k := .logJson) hlog]
  · intro hread
    obtain ⟨_, _, hserver⟩ := h.exists_of_read (by decide) (hread .baseUrl)
    obtain ⟨_, _, hfeed⟩ := h.exists_of_read (by decide) (hread .maxRuns)
    obtain ⟨_, _, hlog⟩ := h.exists_of_read (by decide) (hread .logJson)
    have hkey (k : Key) {origin : Option String} {entries : List (String × Tree)}
        (hsection : root.at? k.group.key = some (.table origin entries)) :
        k.read (entries.lookup k.name) = .ok (settings.value k) := by
      rw [← Tree.at_of_table hsection]
      exact hread k
    have hfilterKey (k : Key) (hk : k.group = .filter) := hfilterAt k hk ▸ hread k
    exact ⟨_, _, _, hserver, hfeed, hlog,
      (ofServer_eq_ok _ _).2 ⟨hkey .baseUrl hserver, hkey .runsPath hserver, hkey .streamPath hserver⟩,
      (ofFeed_eq_ok _ _).2 ⟨hkey .maxRuns hfeed, hkey .retryDelay hfeed⟩,
      (ofFilter_eq_ok _ _).2 ⟨hfilterKey .agentId rfl, hfilterKey .status rfl,
        hfilterKey .since rfl, hfilterKey .before rfl⟩,
      (ofLog_eq_ok _ _).2 (hkey .logJson hlog)⟩

end LiveRuns.Settings
