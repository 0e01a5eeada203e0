import LiveRuns.Proofs.Run.Part
import LiveRuns.Proofs.Utf8.Encode
import LiveRuns.Snapshot

/-!
Snapshots are had whole.

A body lists runs just if it is the UTF-8 form of a list of which each item, taken by itself, is the
text of a run, `runsOfBody?_eq_some`.  An item stands one list deeper than a text of its own, so it
may be nested one level less.  Whatever else a request brings is an error, which tells the status
where the other side answered and did not agree.
-/

namespace LiveRuns

namespace Run

open LiveRuns.Json (Item ListText)

/-- An item of a list is decoded just if it is decoded by itself and is not too deep. -/
theorem decoder_item_iff {i : Item} (h : i.Sound) {run : Run} :
    decoder 126 i.tree = .ok run ↔
      i.tree.depth ≤ 126 ∧ ofText (String.ofList i.chars) = .ok run := by
  have hchars : i.chars = (String.ofList i.chars).toList := String.toList_ofList.symm
  have halone : ofText (String.ofList i.chars) = decoder 127 i.tree :=
    Wire.decode_chars decoder h hchars
  rw [halone]
  constructor
  · intro hok
    have hdepth := lawful_decoder.depth hok
    have hroom := lawful_decoder.room hdepth (hdepth.trans (Nat.le_succ 126))
    exact ⟨hdepth, hroom ▸ hok⟩
  · rintro ⟨hdepth, hok⟩
    have hroom := lawful_decoder.room hdepth (hdepth.trans (Nat.le_succ 126))
    exact hroom ▸ hok

theorem decoder_items_iff {items : List Item} (hsound : ∀ i ∈ items, i.Sound) {runs : List Run} :
    List.Forall₂ (fun tree run => decoder 126 tree = .ok run) (items.map Item.tree) runs ↔
      List.Forall₂ (fun i run => i.tree.depth ≤ 126 ∧ ofText (String.ofList i.chars) = .ok run)
        items runs := by
  rw [List.forall₂_map_left_iff]
  constructor
  · intro h
    refine (List.forall₂_and_left _ _).2 ⟨hsound, h⟩ |>.imp fun i run hi => ?_
    exact (decoder_item_iff hi.1).1 hi.2
  · intro h
    refine (List.forall₂_and_left _ _).2 ⟨hsound, h⟩ |>.imp fun i run hi => ?_
    exact (decoder_item_iff hi.1).2 hi.2

/-- A list is decoded just if its items are, each by itself. -/
theorem listOfText_iff {items : List Item} {text : String} (h : ListText items text.toList)
    {runs : List Run} :
    listOfText text = .ok runs ↔
      List.Forall₂ (fun i run => i.tree.depth ≤ 126 ∧ ofText (String.ofList i.chars) = .ok run)
        items runs := by
  obtain ⟨i, hsound, hchars, htree⟩ := h.exists_item
  rw [listOfText, Wire.decode_chars _ hsound hchars, htree, ← decoder_items_iff h.sound,
    Wire.list_eq_ok]
  constructor
  · rintro ⟨_, _, ⟨⟩, ⟨⟩, hruns⟩
    exact hruns
  · intro hruns
    exact ⟨126, _, rfl, rfl, hruns⟩

theorem exists_listText {text : String} {runs : List Run} (h : listOfText text = .ok runs) :
    ∃ items, ListText items text.toList := by
  obtain ⟨i, hsound, hchars, hok⟩ := (Wire.decode_eq_ok lawful_decoder.list).1 h
  obtain ⟨_, trees, -, htree, -⟩ := Wire.list_eq_ok.1 hok
  obtain ⟨-, items, -, hlist⟩ := hsound.listText htree
  exact ⟨items, hchars ▸ hlist⟩

end Run

namespace Snapshot

open LiveRuns.Json (Item ListText)

theorem decode?_eq_some {body : List UInt8} {s : List Char} :
    Utf8.decode? body = some s ↔ body = Utf8.encode s := by
  unfold Utf8.decode?
  constructor
  · intro h
    simp only at h
    split_ifs at h with hbody
    cases h
    exact hbody.symm
  · rintro rfl
    simp

theorem runsOfBody?_eq_some {body : List UInt8} {runs : List Run} :
    runsOfBody? body = some runs ↔
      ∃ text : String, body = Utf8.encode text.toList ∧ Run.listOfText text = .ok runs := by
  have hsome {text : String} :
      (Run.listOfText text).toOption = some runs ↔ Run.listOfText text = .ok runs := by
    cases Run.listOfText text with
    | error e => exact ⟨nofun, nofun⟩
    | ok found => exact ⟨fun h => by cases h; rfl, fun h => by cases h; rfl⟩
  simp only [runsOfBody?, Option.bind_eq_bind, Option.bind_eq_some_iff, decode?_eq_some, hsome]
  constructor
  · rintro ⟨s, rfl, hruns⟩
    exact ⟨String.ofList s, by rw [String.toList_ofList], hruns⟩
  · rintro ⟨text, rfl, hruns⟩
    exact ⟨text.toList, rfl, by rwa [String.ofList_toList]⟩

theorem fetch_answered (request : Http.Request) (response : Http.Response) :
    fetch request (.answered response) =
      if Http.isSuccess response.status then
        match (if response.ending = .complete then runsOfBody? response.body else none) with
        | some runs => .ok runs
        | none => .error (.fetch none Http.badBody)
      else .error (.fetch (some response.status) (response.text?.getD "Unknown error")) :=
  rfl

/-- A request brings runs just if it is answered with success and a whole body that lists them. -/
theorem fetch_eq_ok {request : Http.Request} {outcome : Http.Outcome} {runs : List Run} :
    fetch request outcome = .ok runs ↔
      ∃ response, outcome = .answered response ∧ response.ending = .complete ∧
        200 ≤ response.status ∧ response.status ≤ 299 ∧ runsOfBody? response.body = some runs := by
  cases outcome with
  | refused => exact ⟨nofun, nofun⟩
  | answered response =>
    rw [fetch_answered]
    constructor
    · intro h
      split_ifs at h with hstatus hending
      · split at h <;> cases h
        obtain ⟨hlow, hhigh⟩ := Http.isSuccess_iff.1 hstatus
        exact ⟨response, rfl, hending, hlow, hhigh, by assumption⟩
    · rintro ⟨_, ⟨⟩, hending, hlow, hhigh, hruns⟩
      rw [if_pos (Http.isSuccess_iff.2 ⟨hlow, hhigh⟩), if_pos hending, hruns]

/-- A snapshot is had whole or not at all, item by item. -/
theorem fetch_whole (request : Http.Request) :
    (∀ (outcome : Http.Outcome) (runs : List Run), fetch request outcome = .ok runs ↔
      ∃ (response : Http.Response) (text : String) (items : List Item),
        outcome = .answered response ∧ response.ending = .complete ∧ 200 ≤ response.status ∧
          response.status ≤ 299 ∧ response.body = Utf8.encode text.toList ∧
            ListText items text.toList ∧
              List.Forall₂ (fun i run => i.tree.depth ≤ 126 ∧
                Run.ofText (String.ofList i.chars) = .ok run) items runs) ∧
      (∀ (items : List Item) (text : String), ListText items text.toList →
        (∀ i ∈ items, i.tree.depth ≤ 126) → ∀ runs, Run.listOfText text = .ok runs ↔
          List.Forall₂ (fun i run => Run.ofText (String.ofList i.chars) = .ok run) items runs) ∧
      (∃ detail, fetch request .refused = .error (.fetch none detail)) ∧
      (∀ response : Http.Response, 200 ≤ response.status → response.status ≤ 299 →
        (∃ runs, fetch request (.answered response) = .ok runs) ∨
          ∃ detail, fetch request (.answered response) = .error (.fetch none detail)) ∧
      ∀ response : Http.Response, response.status < 200 ∨ 299 < response.status →
        ∃ detail, fetch request (.answered response) =
          .error (.fetch (some response.status) detail) := by
  refine ⟨fun outcome runs => ?_, fun items text h hdepth runs => ?_, ⟨_, rfl⟩,
    fun response hlow hhigh => ?_, fun response hother => ?_⟩
  · rw [fetch_eq_ok]
    constructor
    · rintro ⟨response, rfl, hending, hlow, hhigh, hruns⟩
      obtain ⟨text, hbody, hlist⟩ := runsOfBody?_eq_some.1 hruns
      obtain ⟨items, hitems⟩ := Run.exists_listText hlist
      exact ⟨response, text, items, rfl, hending, hlow, hhigh, hbody, hitems,
        (Run.listOfText_iff hitems).1 hlist⟩
    · rintro ⟨response, text, items, rfl, hending, hlow, hhigh, hbody, hitems, hruns⟩
      exact ⟨response, rfl, hending, hlow, hhigh, runsOfBody?_eq_some.2
        ⟨text, hbody, (Run.listOfText_iff hitems).2 hruns⟩⟩
  · rw [Run.listOfText_iff h, List.forall₂_and_left]
    exact and_iff_right hdepth
  · rw [fetch_answered, if_pos (Http.isSuccess_iff.2 ⟨hlow, hhigh⟩)]
    cases (if response.ending = .complete then runsOfBody? response.body else none) with
    | none => exact .inr ⟨_, rfl⟩
    | some runs => exact .inl ⟨runs, rfl⟩
  · rw [fetch_answered, if_neg]
    · exact ⟨_, rfl⟩
    · rw [Http.isSuccess_iff]
      omega

def listing : Http.Request :=
  .get ⟨"http", some { host := .name "h" }, .segments ["api", "runs"], none, none⟩ [] "*/*"

/-- A list in which one run stands twice. -/
def repeated : List Json.Value := [.object [("id", .text "r")], .object [("id", .text "r")]]

/-- An answer whose body comes in two pieces. -/
def answer (status : Nat) (ending : Http.BodyEnd) : Http.Response :=
  let body := Utf8.encode (Json.Value.list repeated).toText.toList
  ⟨status, [], [body.take 5, body.drop 5], ending⟩

theorem fetch_whole_repeated :
    fetch listing (.answered (answer 200 .complete)) = .ok [.ofId "r", .ofId "r"] ∧
      Run.listOfText (Json.Value.list repeated).toText = .ok [.ofId "r", .ofId "r"] ∧
      ((∃ runs, fetch listing (.answered (answer 299 .cut)) = .ok runs) ∨
        ∃ detail, fetch listing (.answered (answer 299 .cut)) = .error (.fetch none detail)) ∧
      ∃ detail, fetch listing (.answered (answer 500 .complete)) =
        .error (.fetch (some 500) detail) := by
  have hfree : ∀ v ∈ repeated, v.FloatFree := by
    have hrun : (Json.Value.object [("id", .text "r")]).FloatFree :=
      .object (List.forall_mem_cons.2 ⟨.text "r", nofun⟩)
    exact List.forall_mem_cons.2 ⟨hrun, List.forall_mem_cons.2 ⟨hrun, nofun⟩⟩
  have hlist : ListText (repeated.map Item.ofValue) (Json.Value.list repeated).toText.toList := by
    rw [Json.Value.toText, String.toList_ofList]
    exact Json.listText_chars hfree
  have hrun : Run.ofText (String.ofList (Item.ofValue (.object [("id", .text "r")])).chars) =
      .ok (.ofId "r") := by cbv
  have hdepth : ∀ i ∈ repeated.map Item.ofValue, i.tree.depth ≤ 126 := by decide
  obtain ⟨hok, halone, -, hsuccess, hother⟩ := fetch_whole listing
  refine ⟨(hok _ _).2 ⟨answer 200 .complete, _, _, rfl, rfl, by decide, by decide, ?_, hlist, ?_⟩,
    (halone _ _ hlist hdepth _).2 (.cons hrun (.cons hrun .nil)),
    hsuccess (answer 299 .cut) (by decide) (by decide),
    hother (answer 500 .complete) (.inr (by decide))⟩
  · simp [answer, Http.Response.body]
  · exact .cons ⟨by decide, hrun⟩ (.cons ⟨by decide, hrun⟩ .nil)

end Snapshot

end LiveRuns
