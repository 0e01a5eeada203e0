import LiveRuns.Proofs.Except
import LiveRuns.Proofs.Json.Tree

/-!
Reading gives sound values, and gives a sound value back from its tree.

A value is sound below a number of open lists and objects if its integers fit 64 bits, the members
of its objects ascend by name, and what it nests fits into the room that is left.  Everything that
`Tree.value` returns is sound (`sound_of_value`), and from the tree of a sound value without
floating-point numbers it returns just that value (`value_tree`).  So a text that has been read can
be written anew and read again (`ofText_toText`).
-/

namespace LiveRuns

theorem putField_of_forall_lt {α : Type} {name : String} {value : α}
    {entries : List (String × α)} (h : ∀ e ∈ entries, e.1 < name) :
    putField name value entries = entries ++ [(name, value)] := by
  induction entries with
  | nil => rfl
  | cons e rest ih =>
    obtain ⟨first, others⟩ := List.forall_mem_cons.1 h
    have after : ¬ name < e.1 := String.lt_asymm first
    have ne : name ≠ e.1 := by
      rintro rfl
      exact after first
    rw [putField, if_neg after, if_neg ne, ih others]
    rfl

theorem Ascending.lt_of_append {α : Type} {entries others : List (String × α)}
    {name : String} {value : α} (h : Ascending (entries ++ (name, value) :: others)) :
    ∀ e ∈ entries, e.1 < name :=
  fun e he => (List.pairwise_append.1 h).2.2 e he _ (List.mem_cons_self ..)

/-- A field with a property joins others with that property. -/
theorem forall_mem_putField {α : Type} {P : String × α → Prop} {name : String} {value : α}
    {entries : List (String × α)} (new : P (name, value)) (old : ∀ e ∈ entries, P e) :
    ∀ e ∈ putField name value entries, P e := by
  induction entries with
  | nil => simpa [putField] using new
  | cons f rest ih =>
    obtain ⟨first, others⟩ := List.forall_mem_cons.1 old
    unfold putField
    split_ifs
    · exact List.forall_mem_cons.2 ⟨new, old⟩
    · exact List.forall_mem_cons.2 ⟨new, others⟩
    · exact List.forall_mem_cons.2 ⟨first, ih others⟩

namespace Json

/-- The values that can be read below a number of lists and objects still to be opened. -/
inductive Value.Sound : Nat → Value → Prop where
  | null {room : Nat} : Sound room .null
  | bool {room : Nat} (b : Bool) : Sound room (.bool b)
  | number {room : Nat} {n : Number} (range : n.InRange) : Sound room (.number n)
  | text {room : Nat} (s : String) : Sound room (.text s)
  | list {room : Nat} {items : List Value} (sound : ∀ item ∈ items, Sound room item) :
      Sound (room + 1) (.list items)
  | object {room : Nat} {members : List (String × Value)} (order : Ascending members)
      (sound : ∀ m ∈ members, Sound room m.2) : Sound (room + 1) (.object members)

theorem Value.Sound.mono {room more : Nat} {v : Value} (h : v.Sound room) (le : room ≤ more) :
    v.Sound more := by
  induction h generalizing more with
  | null => exact .null
  | bool b => exact .bool b
  | number range => exact .number range
  | text s => exact .text s
  | list sound ih =>
    obtain ⟨more, rfl⟩ := Nat.exists_eq_add_one_of_ne_zero (show more ≠ 0 by omega)
    exact .list fun item mem => ih item mem (by omega)
  | object order sound ih =>
    obtain ⟨more, rfl⟩ := Nat.exists_eq_add_one_of_ne_zero (show more ≠ 0 by omega)
    exact .object order fun m mem => ih m mem (by omega)

/-! ## What is read is sound -/

mutual

theorem sound_of_value {room : Nat} : ∀ (t : Tree) {v : Value}, t.value room = .ok v → v.Sound room
  | .null, v, h => by cases h; exact .null
  | .bool b, v, h => by cases h; exact .bool b
  | .number n, v, h => by
    rw [Tree.value] at h
    obtain ⟨number, read, rfl⟩ := map_eq_ok.1 h
    exact .number (NumberText.inRange_of_value read)
  | .text literal, v, h => by
    rw [Tree.value] at h
    obtain ⟨s, -, rfl⟩ := map_eq_ok.1 h
    exact .text s
  | .list items ending, v, h => by
    cases room with
    | zero => rw [Tree.value] at h; cases h
    | succ room =>
      rw [Tree.value] at h
      obtain ⟨values, read, h⟩ := bind_eq_ok.1 h
      obtain ⟨-, -, h⟩ := bind_eq_ok.1 h
      cases h
      exact .list (sound_of_valueItems items read)
  | .object members ending, v, h => by
    cases room with
    | zero => rw [Tree.value] at h; cases h
    | succ room =>
      rw [Tree.value] at h
      obtain ⟨values, read, h⟩ := bind_eq_ok.1 h
      obtain ⟨-, -, h⟩ := bind_eq_ok.1 h
      cases h
      obtain ⟨order, sound⟩ := sound_of_valueMembers members read .nil (by simp)
      exact .object order sound
  | .broken why, v, h => by rw [Tree.value] at h; cases h

theorem sound_of_valueItems {room : Nat} : ∀ (items : List Tree) {values : List Value},
    valueItems room items = .ok values → ∀ v ∈ values, v.Sound room
  | [], values, h => by cases h; simp
  | item :: items, values, h => by
    rw [valueItems] at h
    obtain ⟨v, first, h⟩ := bind_eq_ok.1 h
    obtain ⟨others, more, h⟩ := bind_eq_ok.1 h
    cases h
    exact List.forall_mem_cons.2 ⟨sound_of_value item first, sound_of_valueItems items more⟩

theorem sound_of_valueMembers {room : Nat} : ∀ (members : List (Literal × Tree))
    {seen values : List (String × Value)}, valueMembers room seen members = .ok values →
    Ascending seen → (∀ m ∈ seen, m.2.Sound room) →
    Ascending values ∧ ∀ m ∈ values, m.2.Sound room
  | [], seen, values, h, order, sound => by
    cases h
    exact ⟨order, sound⟩
  | (key, value) :: members, seen, values, h, order, sound => by
    rw [valueMembers] at h
    obtain ⟨name, -, h⟩ := bind_eq_ok.1 h
    obtain ⟨v, read, h⟩ := bind_eq_ok.1 h
    exact sound_of_valueMembers members h (ascending_putField name v order)
      (forall_mem_putField (sound_of_value value read) sound)

end

/-! ## Sound values are read back -/

theorem valueItems_trees {room : Nat} {items : List Value}
    (back : ∀ v ∈ items, v.tree.value room = .ok v) :
    valueItems room (treesOfItems items) = .ok items := by
  induction items with
  | nil => rfl
  | cons item items ih =>
    obtain ⟨first, others⟩ := List.forall_mem_cons.1 back
    rw [treesOfItems, valueItems, first, ih others]
    rfl

theorem valueMembers_trees {room : Nat} {seen members : List (String × Value)}
    (order : Ascending (seen ++ members)) (back : ∀ m ∈ members, m.2.tree.value room = .ok m.2) :
    valueMembers room seen (treesOfMembers members) = .ok (seen ++ members) := by
  induction members generalizing seen with
  | nil => rw [List.append_nil]; rfl
  | cons member members ih =>
    obtain ⟨key, value⟩ := member
    obtain ⟨first, others⟩ := List.forall_mem_cons.1 back
    have last : putField key value seen = seen ++ [(key, value)] :=
      putField_of_forall_lt order.lt_of_append
    rw [List.append_cons] at order ⊢
    rw [treesOfMembers, valueMembers, Literal.read_ofText, first]
    show valueMembers room (putField key value seen) _ = _
    rw [last, ih order others]

/-- The tree of a sound value without floating-point numbers has that value. -/
theorem value_tree {room : Nat} {v : Value} (sound : v.Sound room) (free : v.FloatFree) :
    v.tree.value room = .ok v := by
  induction sound with
  | null => rfl
  | bool b => rfl
  | number range =>
    cases free with
    | integer i => rw [Tree.tree_integer, Tree.value, NumberText.value_ofInteger range]; rfl
  | text s => rw [Value.tree, Tree.value, Literal.read_ofText]; rfl
  | list sound ih =>
    cases free with
    | list free =>
      rw [Value.tree, Tree.value, valueItems_trees fun v mem => ih v mem (free v mem)]
      rfl
  | object order sound ih =>
    cases free with
    | object free =>
      have back := valueMembers_trees (show Ascending ([] ++ _) from order) fun m mem => ih m mem (free m mem)
      rw [Value.tree, Tree.value, back]
      rfl

/-- A sound value that is written is read again as the same value. -/
theorem ofText_toText_of_sound {v : Value} (sound : v.Sound maxDepth) (free : v.FloatFree) :
    Value.ofText v.toText = .ok v := by
  have hwritten := Value.ofText_chars (Item.Sound.ofValue free)
  rw [chars_ofValue, String.ofList_toList] at hwritten
  exact hwritten.trans (value_tree sound free)

/-- A value that was read from a text, written and read again is the same value. -/
theorem ofText_toText {text : String} {v : Value} (h : Value.ofText text = .ok v)
    (free : v.FloatFree) : Value.ofText v.toText = .ok v := by
  obtain ⟨value, read, h⟩ := bind_eq_ok.1 h
  obtain ⟨-, -, h⟩ := bind_eq_ok.1 h
  cases h
  exact ofText_toText_of_sound (sound_of_value _ read) free

end Json

end LiveRuns
