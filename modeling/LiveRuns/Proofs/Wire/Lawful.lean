import LiveRuns.Proofs.Json.Depth
import LiveRuns.Proofs.Wire.Member

/-!
Decoders on whole texts.

What a decoder accepts has no fault anywhere and fits into the room that is left, and where the room
is enough it does not matter how much there is: such a decoder is `Lawful`.  So a text is decoded
just if it is a value with blanks around it whose tree is decoded, `decode_eq_ok`.
-/

namespace LiveRuns.Wire

open LiveRuns.Json (Tree Literal Item)

variable {α β : Type}

/-- A decoder that accepts no fault and minds the room only where it is too small. -/
structure Lawful (d : Decoder α) : Prop where
  skim : ∀ {room tree a}, d room tree = .ok a → tree.skim = .ok ()
  depth : ∀ {room tree a}, d room tree = .ok a → tree.depth ≤ room
  room : ∀ {room more : Nat} {tree}, tree.depth ≤ room → tree.depth ≤ more →
    d room tree = d more tree

theorem lawful_value : Lawful value where
  skim h := Json.skim_of_value _ (form_eq_ok.1 h)
  depth h := Json.depth_le_of_value _ (form_eq_ok.1 h)
  room h h' := congrArg form (Json.value_eq_of_depth_le _ h h')

theorem lawful_text : Lawful text where
  skim {room tree s} h := by
    cases tree with
    | text l => exact Json.Literal.form_of_read (form_eq_ok.1 h)
    | _ => cases h
  depth {room tree s} h := by
    cases tree with
    | text l => exact Nat.zero_le room
    | _ => cases h
  room {room more tree} _ _ := by cases tree <;> rfl

theorem lawful_timestamp : Lawful timestamp where
  skim {room tree t} h := by
    cases tree with
    | text l =>
      obtain ⟨s, hread, -⟩ := bind_eq_ok.1 h
      exact Json.Literal.form_of_read (form_eq_ok.1 hread)
    | _ => cases h
  depth {room tree t} h := by
    cases tree with
    | text l => exact Nat.zero_le room
    | _ => cases h
  room {room more tree} _ _ := by cases tree <;> rfl

theorem Lawful.map {d : Decoder α} (hd : Lawful d) (f : α → β) :
    Lawful fun room tree => f <$> d room tree where
  skim h := by
    obtain ⟨a, hok, -⟩ := map_eq_ok.1 h
    exact hd.skim hok
  depth h := by
    obtain ⟨a, hok, -⟩ := map_eq_ok.1 h
    exact hd.depth hok
  room h h' := congrArg (f <$> ·) (hd.room h h')

theorem Lawful.optional {d : Decoder α} (hd : Lawful d) : Lawful (optional d) where
  skim {room tree a} h := by
    cases tree with
    | null => simp only [Tree.skim]
    | _ => exact (hd.map some).skim h
  depth {room tree a} h := by
    cases tree with
    | null => exact Nat.zero_le room
    | _ => exact (hd.map some).depth h
  room {room more tree} h h' := by
    cases tree with
    | null => rfl
    | _ => exact (hd.map some).room h h'

/-- A name is alone, or the key of the only member of an object, whose value is `null`. -/
theorem named_cases {choose : String → Except Error α} {room : Nat} {tree : Tree} {a : α}
    (h : named choose room tree = .ok a) :
    ∃ l : Literal, l.form = .ok () ∧
      (tree = .text l ∨ room ≠ 0 ∧ tree = .object [(l, .null)] .closed) := by
  cases tree with
  | text l =>
    obtain ⟨s, hread, -⟩ := bind_eq_ok.1 h
    exact ⟨l, Json.Literal.form_of_read (form_eq_ok.1 hread), .inl rfl⟩
  | object members ending =>
    cases room with
    | zero => cases h
    | succ room =>
      cases members with
      | nil => cases ending <;> cases h
      | cons m members =>
        obtain ⟨l, value⟩ := m
        obtain ⟨s, hread, h⟩ := bind_eq_ok.1 h
        obtain ⟨a, -, h⟩ := bind_eq_ok.1 h
        refine ⟨l, Json.Literal.form_of_read (form_eq_ok.1 hread), .inr ⟨Nat.succ_ne_zero room, ?_⟩⟩
        cases value with
        | null =>
          obtain ⟨_, honly, -⟩ := bind_eq_ok.1 h
          cases members with
          | nil =>
            cases ending with
            | closed => rfl
            | _ => cases honly
          | cons => cases honly
        | _ => cases h
  | broken why => cases why <;> cases h
  | _ => cases h

theorem lawful_named (choose : String → Except Error α) : Lawful (named choose) where
  skim h := by
    obtain ⟨l, hform, rfl | ⟨-, rfl⟩⟩ := named_cases h
    · exact hform
    · refine Tree.skim_object.2 ⟨Json.skimMembers_cons.2 ⟨hform, ?_, ?_⟩, rfl⟩
      · simp only [Tree.skim]
      · simp only [Json.skimMembers]
  depth {room tree a} h := by
    obtain ⟨l, -, rfl | ⟨hroom, rfl⟩⟩ := named_cases h
    · exact Nat.zero_le room
    · have hdepth : (Tree.object [(l, .null)] .closed).depth = 1 := by
        simp [Tree.depth, Json.depthOfMembers]
      omega
  room {room more tree} h h' := by
    cases tree with
    | object members ending =>
      rw [Tree.depth] at h h'
      obtain ⟨room, rfl⟩ := Nat.exists_eq_add_one_of_ne_zero (show room ≠ 0 by omega)
      obtain ⟨more, rfl⟩ := Nat.exists_eq_add_one_of_ne_zero (show more ≠ 0 by omega)
      rfl
    | broken why => cases why <;> rfl
    | _ => rfl

/-! ## Lists -/

theorem mapM_eq_ok {f : α → Except Error β} {xs : List α} {ys : List β} :
    xs.mapM f = .ok ys ↔ List.Forall₂ (fun x y => f x = .ok y) xs ys := by
  induction xs generalizing ys with
  | nil =>
    rw [List.mapM_nil, List.forall₂_nil_left_iff]
    exact ⟨fun h => by cases h; rfl, fun h => by rw [h]; rfl⟩
  | cons x xs ih =>
    rw [List.mapM_cons, List.forall₂_cons_left_iff, bind_eq_ok]
    constructor
    · rintro ⟨y, hfirst, h⟩
      obtain ⟨others, hothers, h⟩ := bind_eq_ok.1 h
      cases h
      exact ⟨y, others, hfirst, ih.1 hothers, rfl⟩
    · rintro ⟨y, others, hfirst, hothers, rfl⟩
      exact ⟨y, hfirst, bind_eq_ok.2 ⟨others, ih.2 hothers, rfl⟩⟩

/-- A list is decoded just if it is closed and each of its items is decoded. -/
theorem list_eq_ok {d : Decoder α} {room : Nat} {tree : Tree} {values : List α} :
    list d room tree = .ok values ↔
      ∃ below items, room = below + 1 ∧ tree = .list items .closed ∧
        List.Forall₂ (fun item a => d below item = .ok a) items values := by
  constructor
  · intro h
    cases tree with
    | list items ending =>
      cases room with
      | zero => cases h
      | succ below =>
        obtain ⟨read, hread, h⟩ := bind_eq_ok.1 h
        obtain ⟨_, hclose, h⟩ := bind_eq_ok.1 h
        cases h
        obtain rfl := Json.ListEnd.close_eq_ok.1 (form_eq_ok.1 hclose)
        exact ⟨below, items, rfl, rfl, mapM_eq_ok.1 hread⟩
    | _ => cases h
  · rintro ⟨below, items, rfl, rfl, hitems⟩
    exact bind_eq_ok.2 ⟨values, mapM_eq_ok.2 hitems, rfl⟩

theorem mapM_congr {f g : α → Except Error β} {xs : List α} (h : ∀ x ∈ xs, f x = g x) :
    xs.mapM f = xs.mapM g := by
  induction xs with
  | nil => rfl
  | cons x xs ih =>
    obtain ⟨hx, hxs⟩ := List.forall_mem_cons.1 h
    rw [List.mapM_cons, List.mapM_cons, hx, ih hxs]

theorem exists_of_forall₂ {R : α → β → Prop} {xs : List α} {ys : List β}
    (h : List.Forall₂ R xs ys) : ∀ x ∈ xs, ∃ y, R x y := by
  induction h with
  | nil => exact nofun
  | cons hxy _ ih => exact List.forall_mem_cons.2 ⟨⟨_, hxy⟩, ih⟩

theorem Lawful.list {d : Decoder α} (hd : Lawful d) : Lawful (list d) where
  skim h := by
    obtain ⟨below, items, rfl, rfl, hitems⟩ := list_eq_ok.1 h
    refine Tree.skim_list.2 ⟨Json.skimItems_eq_ok.2 fun t ht => ?_, rfl⟩
    obtain ⟨a, ha⟩ := exists_of_forall₂ hitems t ht
    exact hd.skim ha
  depth h := by
    obtain ⟨below, items, rfl, rfl, hitems⟩ := list_eq_ok.1 h
    rw [Tree.depth]
    refine Nat.succ_le_succ (Json.depthOfItems_le_iff.2 fun t ht => ?_)
    obtain ⟨a, ha⟩ := exists_of_forall₂ hitems t ht
    exact hd.depth ha
  room {room more tree} h h' := by
    cases tree with
    | list items ending =>
      rw [Tree.depth] at h h'
      obtain ⟨room, rfl⟩ := Nat.exists_eq_add_one_of_ne_zero (show room ≠ 0 by omega)
      obtain ⟨more, rfl⟩ := Nat.exists_eq_add_one_of_ne_zero (show more ≠ 0 by omega)
      have hsame : items.mapM (d room) = items.mapM (d more) := by
        have hle := Json.depthOfItems_le_iff.1 (Nat.le_of_succ_le_succ h)
        have hle' := Json.depthOfItems_le_iff.1 (Nat.le_of_succ_le_succ h')
        exact mapM_congr fun t ht => hd.room (hle t ht) (hle' t ht)
      show (items.mapM (d room) >>= _) = (items.mapM (d more) >>= _)
      rw [hsame]
    | _ => rfl

/-! ## Whole texts -/

/-- A text is decoded just if it is a value with blanks around it whose tree is decoded. -/
theorem decode_eq_ok {d : Decoder α} (hd : Lawful d) {text : String} {a : α} :
    decode d text = .ok a ↔
      ∃ i : Item, i.Sound ∧ i.chars = text.toList ∧ d Json.maxDepth i.tree = .ok a := by
  constructor
  · intro h
    rcases hread : Tree.read text.toList with ⟨tree, rest⟩
    rw [decode, hread] at h
    obtain ⟨b, hok, h⟩ := bind_eq_ok.1 h
    obtain ⟨_, hend, h⟩ := bind_eq_ok.1 h
    cases h
    obtain ⟨i, hsound, hchars, rfl⟩ :=
      Tree.exists_item_of_read hread (hd.skim hok) (form_eq_ok.1 hend)
    exact ⟨i, hsound, hchars, hok⟩
  · rintro ⟨i, hsound, hchars, hok⟩
    rw [decode_chars d hsound hchars, hok]

end LiveRuns.Wire
