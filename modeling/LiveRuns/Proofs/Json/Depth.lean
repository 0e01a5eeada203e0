import LiveRuns.Proofs.Json.Recognition

/-!
Depth of nesting.

The value of a tree is read below a number of lists and objects that may still be opened.  That
number only matters where the tree is deeper: every room that holds it gives the same outcome,
`value_eq_of_depth_le`, and a tree that is too deep has no value, `depth_le_of_value`.  A tree that
has a value has no fault either, `skim_of_value`.
-/

namespace LiveRuns.Json

mutual

def Tree.depth : Tree → Nat
  | .list items _ => depthOfItems items + 1
  | .object members _ => depthOfMembers members + 1
  | .null | .bool _ | .number _ | .text _ | .broken _ => 0

def depthOfItems : List Tree → Nat
  | [] => 0
  | item :: items => max item.depth (depthOfItems items)

def depthOfMembers : List (Literal × Tree) → Nat
  | [] => 0
  | (_, value) :: members => max value.depth (depthOfMembers members)

end

theorem depthOfItems_le_iff {items : List Tree} {n : Nat} :
    depthOfItems items ≤ n ↔ ∀ t ∈ items, t.depth ≤ n := by
  induction items with
  | nil => simp [depthOfItems]
  | cons t items ih => rw [depthOfItems, Nat.max_le, ih, List.forall_mem_cons]

theorem depthOfMembers_le_iff {members : List (Literal × Tree)} {n : Nat} :
    depthOfMembers members ≤ n ↔ ∀ m ∈ members, m.2.depth ≤ n := by
  induction members with
  | nil => simp [depthOfMembers]
  | cons m members ih => rw [depthOfMembers, Nat.max_le, ih, List.forall_mem_cons]

/-! ## Room -/

-- By recursion on the tree, as its value is defined.
mutual

theorem value_eq_of_depth_le : ∀ (t : Tree) {room more : Nat}, t.depth ≤ room → t.depth ≤ more →
    t.value room = t.value more
  | .null, _, _, _, _ => by simp only [Tree.value]
  | .bool _, _, _, _, _ => by simp only [Tree.value]
  | .number _, _, _, _, _ => by simp only [Tree.value]
  | .text _, _, _, _, _ => by simp only [Tree.value]
  | .broken _, _, _, _, _ => by simp only [Tree.value]
  | .list items ending, room, more, h, h' => by
    rw [Tree.depth] at h h'
    obtain ⟨room, rfl⟩ := Nat.exists_eq_add_one_of_ne_zero (show room ≠ 0 by omega)
    obtain ⟨more, rfl⟩ := Nat.exists_eq_add_one_of_ne_zero (show more ≠ 0 by omega)
    have hitems : valueItems room items = valueItems more items :=
      valueItems_eq_of_depth_le items (by omega) (by omega)
    rw [Tree.value, Tree.value, hitems]
  | .object members ending, room, more, h, h' => by
    rw [Tree.depth] at h h'
    obtain ⟨room, rfl⟩ := Nat.exists_eq_add_one_of_ne_zero (show room ≠ 0 by omega)
    obtain ⟨more, rfl⟩ := Nat.exists_eq_add_one_of_ne_zero (show more ≠ 0 by omega)
    have hmembers : valueMembers room [] members = valueMembers more [] members :=
      valueMembers_eq_of_depth_le members [] (by omega) (by omega)
    rw [Tree.value, Tree.value, hmembers]

theorem valueItems_eq_of_depth_le : ∀ (items : List Tree) {room more : Nat},
    depthOfItems items ≤ room → depthOfItems items ≤ more →
      valueItems room items = valueItems more items
  | [], _, _, _, _ => by simp only [valueItems]
  | item :: items, room, more, h, h' => by
    obtain ⟨hfirst, hothers⟩ := Nat.max_le.1 h
    obtain ⟨hfirst', hothers'⟩ := Nat.max_le.1 h'
    rw [valueItems, valueItems, value_eq_of_depth_le item hfirst hfirst',
      valueItems_eq_of_depth_le items hothers hothers']

theorem valueMembers_eq_of_depth_le : ∀ (members : List (Literal × Tree))
    (seen : List (String × Value)) {room more : Nat},
    depthOfMembers members ≤ room → depthOfMembers members ≤ more →
      valueMembers room seen members = valueMembers more seen members
  | [], _, _, _, _, _ => by simp only [valueMembers]
  | (key, value) :: members, seen, room, more, h, h' => by
    obtain ⟨hfirst, hothers⟩ := Nat.max_le.1 h
    obtain ⟨hfirst', hothers'⟩ := Nat.max_le.1 h'
    have hlater (seen : List (String × Value)) :=
      valueMembers_eq_of_depth_le members seen hothers hothers'
    simp only [valueMembers, value_eq_of_depth_le value hfirst hfirst', hlater]

end

mutual

theorem depth_le_of_value : ∀ (t : Tree) {room : Nat} {v : Value}, t.value room = .ok v →
    t.depth ≤ room
  | .null, _, _, _ => by simp [Tree.depth]
  | .bool _, _, _, _ => by simp [Tree.depth]
  | .number _, _, _, _ => by simp [Tree.depth]
  | .text _, _, _, _ => by simp [Tree.depth]
  | .broken _, _, _, _ => by simp [Tree.depth]
  | .list items ending, room, v, h => by
    cases room with
    | zero => rw [Tree.value] at h; cases h
    | succ room =>
      rw [Tree.value] at h
      obtain ⟨values, hread, -⟩ := bind_eq_ok.1 h
      rw [Tree.depth]
      exact Nat.succ_le_succ (depthOfItems_le_of_valueItems items hread)
  | .object members ending, room, v, h => by
    cases room with
    | zero => rw [Tree.value] at h; cases h
    | succ room =>
      rw [Tree.value] at h
      obtain ⟨values, hread, -⟩ := bind_eq_ok.1 h
      rw [Tree.depth]
      exact Nat.succ_le_succ (depthOfMembers_le_of_valueMembers members hread)

theorem depthOfItems_le_of_valueItems : ∀ (items : List Tree) {room : Nat} {values : List Value},
    valueItems room items = .ok values → depthOfItems items ≤ room
  | [], _, _, _ => by simp [depthOfItems]
  | item :: items, room, values, h => by
    rw [valueItems] at h
    obtain ⟨v, hfirst, h⟩ := bind_eq_ok.1 h
    obtain ⟨others, hothers, -⟩ := bind_eq_ok.1 h
    rw [depthOfItems, Nat.max_le]
    exact ⟨depth_le_of_value item hfirst, depthOfItems_le_of_valueItems items hothers⟩

theorem depthOfMembers_le_of_valueMembers : ∀ (members : List (Literal × Tree)) {room : Nat}
    {seen values : List (String × Value)}, valueMembers room seen members = .ok values →
      depthOfMembers members ≤ room
  | [], _, _, _, _ => by simp [depthOfMembers]
  | (key, value) :: members, room, seen, values, h => by
    rw [valueMembers] at h
    obtain ⟨name, -, h⟩ := bind_eq_ok.1 h
    obtain ⟨v, hfirst, h⟩ := bind_eq_ok.1 h
    rw [depthOfMembers, Nat.max_le]
    exact ⟨depth_le_of_value value hfirst, depthOfMembers_le_of_valueMembers members h⟩

end

/-! ## Values have no fault -/

theorem Literal.form_of_join {seen : List Char} {pieces : List Piece} {ending : Ending}
    {cs : List Char} (h : join seen pieces ending = .ok cs) : ending.form = .ok () := by
  fun_induction join seen pieces ending with
  | case1 seen ending =>
    obtain ⟨_, hform, -⟩ := bind_eq_ok.1 h
    exact hform
  | case2 seen c rest ending ih => exact ih h
  | case4 seen code hlow hhigh low rest ending hpair ih => exact ih h
  | case8 seen code rest ending hlow hhigh ih => exact ih h
  | _ => cases h

theorem Literal.form_of_read {l : Literal} {s : String} (h : l.read = .ok s) : l.form = .ok () := by
  obtain ⟨cs, hjoin, -⟩ := map_eq_ok.1 h
  exact form_of_join hjoin

theorem ListEnd.close_eq_ok {ending : ListEnd} : ending.close = .ok () ↔ ending = .closed := by
  cases ending <;> simp [ListEnd.close]

theorem ObjectEnd.close_eq_ok {ending : ObjectEnd} : ending.close = .ok () ↔ ending = .closed := by
  cases ending <;> simp [ObjectEnd.close]

theorem skimItems_eq_ok {items : List Tree} :
    skimItems items = .ok () ↔ ∀ t ∈ items, t.skim = .ok () := by
  induction items with
  | nil => simp [skimItems]
  | cons t items ih => rw [skimItems_cons, ih, List.forall_mem_cons]

theorem skimMembers_eq_ok {members : List (Literal × Tree)} :
    skimMembers members = .ok () ↔ ∀ m ∈ members, m.1.form = .ok () ∧ m.2.skim = .ok () := by
  induction members with
  | nil => simp [skimMembers]
  | cons m members ih => rw [skimMembers_cons, ih, List.forall_mem_cons, and_assoc]

mutual

theorem skim_of_value : ∀ (t : Tree) {room : Nat} {v : Value}, t.value room = .ok v →
    t.skim = .ok ()
  | .null, _, _, _ => by simp only [Tree.skim]
  | .bool _, _, _, _ => by simp only [Tree.skim]
  | .number _, _, _, _ => by simp only [Tree.skim]
  | .text l, _, v, h => by
    rw [Tree.value] at h
    obtain ⟨s, hread, -⟩ := map_eq_ok.1 h
    exact Literal.form_of_read hread
  | .list items ending, room, v, h => by
    cases room with
    | zero => rw [Tree.value] at h; cases h
    | succ room =>
      rw [Tree.value] at h
      obtain ⟨values, hread, h⟩ := bind_eq_ok.1 h
      obtain ⟨_, hclose, -⟩ := bind_eq_ok.1 h
      exact Tree.skim_list.2 ⟨skimItems_of_valueItems items hread, ListEnd.close_eq_ok.1 hclose⟩
  | .object members ending, room, v, h => by
    cases room with
    | zero => rw [Tree.value] at h; cases h
    | succ room =>
      rw [Tree.value] at h
      obtain ⟨values, hread, h⟩ := bind_eq_ok.1 h
      obtain ⟨_, hclose, -⟩ := bind_eq_ok.1 h
      exact Tree.skim_object.2
        ⟨skimMembers_of_valueMembers members hread, ObjectEnd.close_eq_ok.1 hclose⟩
  | .broken _, _, v, h => by rw [Tree.value] at h; cases h

theorem skimItems_of_valueItems : ∀ (items : List Tree) {room : Nat} {values : List Value},
    valueItems room items = .ok values → skimItems items = .ok ()
  | [], _, _, _ => by simp only [skimItems]
  | item :: items, room, values, h => by
    rw [valueItems] at h
    obtain ⟨v, hfirst, h⟩ := bind_eq_ok.1 h
    obtain ⟨others, hothers, -⟩ := bind_eq_ok.1 h
    exact skimItems_cons.2 ⟨skim_of_value item hfirst, skimItems_of_valueItems items hothers⟩

theorem skimMembers_of_valueMembers : ∀ (members : List (Literal × Tree)) {room : Nat}
    {seen values : List (String × Value)}, valueMembers room seen members = .ok values →
      skimMembers members = .ok ()
  | [], _, _, _, _ => by simp only [skimMembers]
  | (key, value) :: members, room, seen, values, h => by
    rw [valueMembers] at h
    obtain ⟨name, hname, h⟩ := bind_eq_ok.1 h
    obtain ⟨v, hfirst, h⟩ := bind_eq_ok.1 h
    exact skimMembers_cons.2 ⟨Literal.form_of_read hname, skim_of_value value hfirst,
      skimMembers_of_valueMembers members h⟩

end

end LiveRuns.Json
