import LiveRuns.Proofs.Run.Part

/-!
Runs as sets of members.

The text of an object is decoded as a run by its members alone: blanks do not matter, nor does the
order of the members if no name stands twice.  What has no field of its own is kept, and of a
repeated name the last member counts, `get?_foldlM`; a member that has a field must not come again,
and may be left out if it is `null`.
-/

namespace LiveRuns.Run

open LiveRuns.Json (Tree Literal Value Member ObjectText)

def IsLast (name : String) (member : Literal × Tree) (members : List (Literal × Tree)) : Prop :=
  ∃ front back, members = front ++ member :: back ∧ member.1.read = .ok name ∧
    ∀ later ∈ back, later.1.read ≠ .ok name

theorem isLast_cons_iff {name : String} {member first : Literal × Tree}
    {members : List (Literal × Tree)} :
    IsLast name member (first :: members) ↔
      (first = member ∧ member.1.read = .ok name ∧ ∀ later ∈ members, later.1.read ≠ .ok name) ∨
        IsLast name member members := by
  constructor
  · rintro ⟨front, back, heq, hread, hlater⟩
    cases front with
    | nil =>
      obtain ⟨rfl, rfl⟩ := List.cons.inj heq
      exact .inl ⟨rfl, hread, hlater⟩
    | cons _ front =>
      obtain ⟨rfl, rfl⟩ := List.cons.inj heq
      exact .inr ⟨front, back, rfl, hread, hlater⟩
  · rintro (⟨rfl, hread, hlater⟩ | ⟨front, back, rfl, hread, hlater⟩)
    · exact ⟨[], members, rfl, hread, hlater⟩
    · exact ⟨first :: front, back, rfl, hread, hlater⟩

namespace Draft

theorem get?_add {room : Nat} {draft draft' : Draft} {member : Literal × Tree} {name : String}
    (hname : name ∉ typedNames) (h : draft.add room member = .ok draft') (value : Value) :
    draft'.extra.get? name = some value ↔
      (member.1.read = .ok name ∧ member.2.value room = .ok value) ∨
        (member.1.read ≠ .ok name ∧ draft.extra.get? name = some value) := by
  obtain ⟨part, hread, -, hpart, rfl⟩ := add_eq_ok.1 h
  by_cases heq : part.name = name
  · rw [heq] at hread hpart
    rw [Part.decoder_extra hname] at hpart
    obtain ⟨v, hv, rfl⟩ := map_eq_ok.1 hpart
    have hvalue : member.2.value room = .ok v := Wire.form_eq_ok.1 hv
    simp [put, hread, hvalue]
  · have hother : member.1.read ≠ .ok name := by
      rw [hread]
      exact fun h => heq (Except.ok.inj h)
    have hkept : (draft.put part).extra.get? name = draft.extra.get? name := by
      cases part with
      | extra other v => exact (Fields.get?_insert ..).trans (if_neg heq)
      | _ => rfl
    simp [hkept, hother]

/-- Under a name that has no field stands the value of the last member of the name, or else what
stood there before. -/
theorem get?_foldlM {room : Nat} {members : List (Literal × Tree)} {draft draft' : Draft}
    {name : String} (hname : name ∉ typedNames)
    (h : members.foldlM (add room) draft = .ok draft') (value : Value) :
    draft'.extra.get? name = some value ↔
      (∃ m, IsLast name m members ∧ m.2.value room = .ok value) ∨
        ((∀ m ∈ members, m.1.read ≠ .ok name) ∧ draft.extra.get? name = some value) := by
  induction members generalizing draft with
  | nil =>
    cases h
    simp [IsLast]
  | cons first members ih =>
    rw [List.foldlM_cons] at h
    obtain ⟨next, hadd, h⟩ := bind_eq_ok.1 h
    -- The first member is the last of its name just if none of the others has it.
    simp only [ih h, get?_add hname hadd value, isLast_cons_iff, List.forall_mem_cons, or_and_right,
      exists_or]
    constructor
    · rintro (⟨m, hlast, hvalue⟩ | ⟨hlater, ⟨hread, hvalue⟩ | ⟨hread, hvalue⟩⟩)
      · exact .inl (.inr ⟨m, hlast, hvalue⟩)
      · exact .inl (.inl ⟨first, ⟨rfl, hread, hlater⟩, hvalue⟩)
      · exact .inr ⟨⟨hread, hlater⟩, hvalue⟩
    · rintro ((⟨_, ⟨rfl, hread, hlater⟩, hvalue⟩ | ⟨m, hlast, hvalue⟩) | ⟨⟨hread, hlater⟩, hvalue⟩)
      · exact .inr ⟨hlater, .inl ⟨hread, hvalue⟩⟩
      · exact .inl ⟨m, hlast, hvalue⟩
      · exact .inr ⟨hlater, .inr ⟨hread, hvalue⟩⟩

end Draft

/-- The extra members of a run are the last members of the names that have no field. -/
theorem mem_extra_of_decoder {room : Nat} {members : List (Literal × Tree)} {run : Run}
    (h : decoder (room + 1) (.object members .closed) = .ok run) (name : String) (value : Value) :
    (name, value) ∈ run.extra.entries ↔
      name ∉ typedNames ∧ ∃ m, IsLast name m members ∧ m.2.value room = .ok value := by
  obtain ⟨_, _, draft, ⟨⟩, ⟨⟩, hgathered, hfinish⟩ := decoder_eq_ok.1 h
  have hmem : (name, value) ∈ run.extra.entries ↔ draft.extra.get? name = some value := by
    rw [← lookup_eq_some_iff_mem run.extra.ascending.nodup_names, Draft.extra_finish hfinish]
    rfl
  have hempty : (Fields.empty : Fields Value).get? name = none := rfl
  by_cases hname : name ∈ typedNames
  · -- A decoded run keeps nothing under such a name.
    obtain ⟨_, ⟨⟩, hsound⟩ := soundExtra_of_decoder h
    exact iff_of_false (fun hmem => (hsound _ hmem).1 hname) fun hlast => hlast.1 hname
  · rw [hmem, Draft.get?_foldlM hname hgathered]
    simp [hname, hempty]

/-! ## Texts -/

theorem ofText_objectText {members : List Member} {text : String}
    (h : ObjectText members text.toList) :
    ofText text = decoder Json.maxDepth (.object (members.map Member.entry) .closed) :=
  Wire.decode_objectText decoder h

/-- A text that is decoded as a run is that of an object. -/
theorem exists_objectText {text : String} {run : Run} (h : ofText text = .ok run) :
    ∃ members, ObjectText members text.toList := by
  obtain ⟨i, hsound, hchars, hok⟩ := (Wire.decode_eq_ok lawful_decoder).1 h
  obtain ⟨_, entries, _, -, htree, -⟩ := decoder_eq_ok.1 hok
  obtain ⟨-, members, -, hobject⟩ := hsound.objectText htree
  exact ⟨members, hchars ▸ hobject⟩

theorem exists_isLast_iff {name : String} {members : List Member} {P : Tree → Prop} :
    (∃ m, IsLast name m (members.map Member.entry) ∧ P m.2) ↔
      ∃ (front back : List Member) (m : Member), members = front ++ m :: back ∧
        m.key.read = .ok name ∧ P m.value.tree ∧ ∀ later ∈ back, later.key.read ≠ .ok name := by
  constructor
  · rintro ⟨_, ⟨_, _, heq, hread, hlater⟩, hP⟩
    obtain ⟨front, rest, rfl, rfl, hrest⟩ := List.map_eq_append_iff.1 heq
    obtain ⟨m, back, rfl, rfl, rfl⟩ := List.map_eq_cons_iff.1 hrest
    exact ⟨front, back, m, rfl, hread, hP, fun later hm =>
      hlater later.entry (List.mem_map_of_mem hm)⟩
  · rintro ⟨front, back, m, rfl, hread, hP, hlater⟩
    refine ⟨m.entry, ⟨front.map Member.entry, back.map Member.entry, ?_, hread, ?_⟩, hP⟩
    · rw [List.map_append, List.map_cons]
    · exact List.forall_mem_map.2 hlater

/-- A value that was decoded as a member is the same read by itself. -/
theorem ofText_value {room : Nat} (hroom : room ≤ Json.maxDepth) {members : List Member}
    {text : String} (h : ObjectText members text.toList) {draft draft' : Draft}
    (hgathered : (members.map Member.entry).foldlM (Draft.add room) draft = .ok draft')
    {name : String} (hname : name ∉ typedNames) {m : Member} (hm : m ∈ members)
    (hread : m.key.read = .ok name) :
    Value.ofText (String.ofList m.value.chars) = m.value.tree.value room := by
  obtain ⟨part, hpart, hdecoded⟩ :=
    Draft.forall_of_foldlM hgathered m.entry (List.mem_map_of_mem hm)
  obtain rfl : part.name = name := Except.ok.inj (hpart.symm.trans hread)
  have hdepth : m.value.tree.depth ≤ room := (Part.lawful_decoder part.name).depth hdecoded
  rw [Value.ofText_chars (h.sound m hm).value]
  exact Json.value_eq_of_depth_le _ (hdepth.trans hroom) hdepth

theorem mem_extra_of_ofText {members : List Member} {text : String} {run : Run}
    (h : ObjectText members text.toList) (hrun : ofText text = .ok run) (name : String)
    (value : Value) :
    (name, value) ∈ run.extra.entries ↔
      name ∉ typedNames ∧ ∃ (front back : List Member) (m : Member),
        members = front ++ m :: back ∧ m.key.read = .ok name ∧
          Value.ofText (String.ofList m.value.chars) = .ok value ∧
            ∀ later ∈ back, later.key.read ≠ .ok name := by
  rw [ofText_objectText h] at hrun
  obtain ⟨_, _, _, ⟨⟩, ⟨⟩, hgathered, -⟩ := decoder_eq_ok.1 hrun
  rw [mem_extra_of_decoder hrun, exists_isLast_iff (P := fun t => t.value 126 = .ok value)]
  refine and_congr_right fun hname => ?_
  have hvalue {front back : List Member} {m : Member} (heq : members = front ++ m :: back)
      (hread : m.key.read = .ok name) :
      Value.ofText (String.ofList m.value.chars) = m.value.tree.value 126 :=
    ofText_value (by decide) h hgathered hname (by simp [heq]) hread
  constructor
  · rintro ⟨front, back, m, heq, hread, hok, hlater⟩
    exact ⟨front, back, m, heq, hread, (hvalue heq hread).trans hok, hlater⟩
  · rintro ⟨front, back, m, heq, hread, hok, hlater⟩
    exact ⟨front, back, m, heq, hread, (hvalue heq hread).symm.trans hok, hlater⟩

/-- No member that has a field comes twice in the text of a run. -/
theorem ofText_ne_ok_of_twice {front middle back : List Member} {a b : Member} {text name : String}
    (h : ObjectText (front ++ a :: (middle ++ b :: back)) text.toList) (hname : name ∈ typedNames)
    (ha : a.key.read = .ok name) (hb : b.key.read = .ok name) (run : Run) :
    ofText text ≠ .ok run := by
  intro hrun
  rw [ofText_objectText h] at hrun
  obtain ⟨_, _, _, ⟨⟩, ⟨⟩, hgathered, -⟩ := decoder_eq_ok.1 hrun
  have honce := (pairwise_of_foldlM hgathered).1
  rw [List.map_append, List.map_cons, List.map_append, List.map_cons] at honce
  have hlater := (List.pairwise_cons.1 (List.pairwise_append.1 honce).2.1).1
  exact hlater b.entry (List.mem_append_right _ List.mem_cons_self) name hname ha hb

/-- A text is decoded as a run by the set of its members. -/
theorem ofText_members :
    (∀ (text : String) (run : Run), ofText text = .ok run →
      ∃ members, ObjectText members text.toList) ∧
      (∀ (members members' : List Member) (text text' : String),
        ObjectText members text.toList → ObjectText members' text'.toList →
          Draft.Distinct (members.map Member.entry) →
            (members.map Member.entry).Perm (members'.map Member.entry) →
              ∀ run, ofText text = .ok run ↔ ofText text' = .ok run) ∧
      (∀ (members : List Member) (text : String) (run : Run), ObjectText members text.toList →
        ofText text = .ok run → ∀ (name : String) (value : Value),
          (name, value) ∈ run.extra.entries ↔
            name ∉ typedNames ∧ ∃ (front back : List Member) (m : Member),
              members = front ++ m :: back ∧ m.key.read = .ok name ∧
                Value.ofText (String.ofList m.value.chars) = .ok value ∧
                  ∀ later ∈ back, later.key.read ≠ .ok name) ∧
      (∀ (front middle back : List Member) (a b : Member) (text name : String),
        ObjectText (front ++ a :: (middle ++ b :: back)) text.toList → name ∈ typedNames →
          a.key.read = .ok name → b.key.read = .ok name → ∃ e, ofText text = .error e) ∧
      ∀ (front back : List Member) (m : Member) (text text' name : String),
        ObjectText (front ++ m :: back) text.toList → ObjectText (front ++ back) text'.toList →
          name ∈ optionalNames → m.key.read = .ok name → m.value.tree = .null →
            (∀ run, ofText text = .ok run → ofText text' = .ok run) ∧
              ((∀ other ∈ front ++ back, other.key.read ≠ .ok name) →
                ofText text = ofText text') := by
  refine ⟨fun text run => exists_objectText, ?_, fun members text run h hrun =>
    mem_extra_of_ofText h hrun, ?_, ?_⟩
  · intro members members' text text' h h' hdistinct hperm run
    rw [ofText_objectText h, ofText_objectText h']
    exact ⟨decoder_perm hperm hdistinct, decoder_perm hperm.symm (hdistinct.perm hperm)⟩
  · intro front middle back a b text name h hname ha hb
    cases hrun : ofText text with
    | error e => exact ⟨e, rfl⟩
    | ok run => exact absurd hrun (ofText_ne_ok_of_twice h hname ha hb run)
  · intro front back m text text' name h h' hname hread hnull
    have hsame (hother : ∀ other ∈ front ++ back, other.key.read ≠ .ok name) :
        ofText text = ofText text' := by
      have hentry : m.entry = (m.key, .null) := by rw [Member.entry, hnull]
      rw [ofText_objectText h, ofText_objectText h', List.map_append, List.map_append,
        List.map_cons, hentry]
      refine decoder_of_blank hname hread ?_ .closed
      rw [← List.map_append]
      exact List.forall_mem_map.2 hother
    refine ⟨fun run hrun => ?_, hsame⟩
    rw [← hsame ?_]
    · exact hrun
    · -- In what is decoded no other member has the name.
      intro other hmem heq
      have htyped : name ∈ typedNames := List.mem_cons_of_mem _ hname
      rcases List.mem_append.1 hmem with hfront | hback
      · obtain ⟨before, between, rfl⟩ := List.append_of_mem hfront
        rw [List.append_assoc] at h
        exact ofText_ne_ok_of_twice h htyped heq hread run hrun
      · obtain ⟨between, after, rfl⟩ := List.append_of_mem hback
        exact ofText_ne_ok_of_twice h htyped hread heq run hrun

def written (members : List (String × Value)) : String := (Value.object members).toText

theorem objectText_written {members : List (String × Value)}
    (free : ∀ m ∈ members, m.2.FloatFree) :
    ObjectText (members.map Member.ofField) (written members).toList := by
  rw [written, Value.toText, String.toList_ofList]
  exact Json.objectText_chars free

theorem distinct_written {members : List (String × Value)} (h : (members.map Prod.fst).Nodup) :
    Draft.Distinct ((members.map Member.ofField).map Member.entry) := by
  refine List.pairwise_map.2 (List.pairwise_map.2 ((List.pairwise_map.1 h).imp ?_))
  intro a b hne name ha hb
  have hname : a.1 = name := Except.ok.inj ((Literal.read_ofText a.1).symm.trans ha)
  have hname' : b.1 = name := Except.ok.inj ((Literal.read_ofText b.1).symm.trans hb)
  exact hne (hname.trans hname'.symm)

/-- A run of a known agent with a note that is `null`. -/
def ofNullNote : Run := ⟨"r", some "a", none, none, none, .ofList [("note", .null)]⟩

/-- Members of that run, in which the note comes twice and the status is `null`. -/
def noted : List (String × Value) :=
  [("note", .bool true), ("id", .text "r"), ("note", .null), ("status", .null),
    ("agentId", .text "a")]

theorem ofText_members_noted :
    ofText (written [("note", .null), ("agentId", .text "a"), ("id", .text "r")]) =
        .ok ofNullNote ∧
      ofText (written [("id", .text "r"), ("note", .null), ("agentId", .text "a")]) =
        .ok ofNullNote ∧
      ofText (written noted) = .ok ofNullNote ∧
      (∃ members, ObjectText members (written noted).toList) ∧
      ("note", .null) ∈ ofNullNote.extra.entries ∧
      ofText (written (noted.eraseIdx 3)) = .ok ofNullNote ∧
      ∃ e, ofText (written (noted ++ [("id", .text "r")])) = .error e := by
  have hfree (members : List (String × Value)) (h : ∀ m ∈ members,
      m.2 = .null ∨ m.2 = .bool true ∨ m.2 = .text "r" ∨ m.2 = .text "a") :
      ∀ m ∈ members, m.2.FloatFree := by
    intro m hm
    rcases h m hm with heq | heq | heq | heq <;> rw [heq]
    · exact .null
    · exact .bool true
    · exact .text "r"
    · exact .text "a"
  have hfirst := objectText_written
    (hfree [("note", .null), ("agentId", .text "a"), ("id", .text "r")] (by simp))
  have hsecond := objectText_written
    (hfree [("id", .text "r"), ("note", .null), ("agentId", .text "a")] (by simp))
  have hnoted := objectText_written (hfree noted (by simp [noted]))
  have herased := objectText_written (hfree (noted.eraseIdx 3) (by simp [noted]))
  have hrepeated :=
    objectText_written (hfree (noted ++ [("id", .text "r")]) (by simp [noted]))
  have hrun : ofText (written [("note", .null), ("agentId", .text "a"), ("id", .text "r")]) =
      .ok ofNullNote := by
    rw [ofText_objectText hfirst]
    cbv
  have hnotedRun : ofText (written noted) = .ok ofNullNote := by
    rw [ofText_objectText hnoted]
    cbv
  obtain ⟨hobject, hperm, hextra, htwice, hnull⟩ := ofText_members
  have hreordered := (hperm _ _ _ _ hfirst hsecond (distinct_written (by decide))
    (((@List.perm_append_comm _ [_, _] [_]).map Member.ofField).map Member.entry)
      ofNullNote).1 hrun
  have hnote := (hextra _ _ _ hnoted hnotedRun "note" .null).2
    ⟨by decide, (noted.take 2).map .ofField, (noted.drop 3).map .ofField, .ofField ("note", .null),
      rfl, rfl, by cbv, by simp [noted, Member.ofField]⟩
  have hdropped := (hnull ((noted.take 3).map .ofField) [.ofField ("agentId", .text "a")]
    (.ofField ("status", .null)) _ _ "status" hnoted herased (by decide) (by cbv) rfl).1
      ofNullNote hnotedRun
  exact ⟨hrun, hreordered, hnotedRun, hobject _ _ hnotedRun, hnote, hdropped,
    htwice [.ofField ("note", .bool true)] ((noted.drop 2).map .ofField) []
      (.ofField ("id", .text "r")) (.ofField ("id", .text "r")) _ "id" hrepeated (by decide)
        (by cbv) (by cbv)⟩

end LiveRuns.Run
