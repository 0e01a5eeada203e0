import LiveRuns.Proofs.Json.Literal
import LiveRuns.Proofs.Json.Number
import LiveRuns.Proofs.Json.Recognition

/-!
A value written as JSON text is read back as a tree.

`Value.tree` is the tree of the text of a value.  What the library writes for a value is a text of
this tree, `spelt_tree`, and the reader gives it back.  Both are for values without
floating-point numbers, whose digits the library only approximates; such a value may stand nowhere
inside.
-/

namespace LiveRuns.Json

inductive Value.FloatFree : Value → Prop where
  | null : FloatFree .null
  | bool (b : Bool) : FloatFree (.bool b)
  | integer (i : Int) : FloatFree (.number (.integer i))
  | text (s : String) : FloatFree (.text s)
  | list {items : List Value} (free : ∀ item ∈ items, FloatFree item) : FloatFree (.list items)
  | object {members : List (String × Value)} (free : ∀ m ∈ members, FloatFree m.2) :
      FloatFree (.object members)

mutual

def Value.tree : Value → Tree
  | .null => .null
  | .bool b => .bool b
  | .number n => (Tree.readNumber n.text).1
  | .text s => .text (.ofText s)
  | .list items => .list (treesOfItems items) .closed
  | .object members => .object (treesOfMembers members) .closed

def treesOfItems : List Value → List Tree
  | [] => []
  | item :: items => item.tree :: treesOfItems items

def treesOfMembers : List (String × Value) → List (Literal × Tree)
  | [] => []
  | (key, value) :: members => (.ofText key, value.tree) :: treesOfMembers members

end

namespace Tree

theorem tree_integer (i : Int) : (Value.number (.integer i)).tree = .number (.ofInteger i) := by
  have scanned := (NumberText.spelt_ofInteger i).scan ends_nil
  rw [List.append_nil] at scanned
  rw [Value.tree, Number.text, readNumber, scanned]

end Tree

def Item.ofValue (v : Value) : Item := ⟨[], v.chars, [], v.tree⟩

def Member.ofField (field : String × Value) : Member where
  front := []
  name := field.1.toList.flatMap escapedChar
  gap := []
  key := .ofText field.1
  value := .ofValue field.2

namespace Tree

/-! ## Lists and objects -/

theorem joined_charsOfItems (items : List Value) :
    Joined ((items.map Item.ofValue).map Item.chars) (charsOfItems items) := by
  cases items with
  | nil => exact List.forall_mem_nil _
  | cons item items =>
    show charsOfItems (item :: items) = _
    induction items generalizing item with
    | nil => simp [charsOfItems, Item.ofValue, Item.chars]
    | cons second items ih =>
      rw [charsOfItems, ih second]
      · simp [Item.ofValue, Item.chars]
      · simp

theorem joined_charsOfMembers (members : List (String × Value)) :
    Joined ((members.map Member.ofField).map Member.chars) (charsOfMembers members) := by
  cases members with
  | nil => exact List.forall_mem_nil _
  | cons member members =>
    show charsOfMembers (member :: members) = _
    induction members generalizing member with
    | nil =>
      simp [charsOfMembers, Member.ofField, Member.chars, Item.ofValue, Item.chars, textLiteral]
    | cons second members ih =>
      obtain ⟨name, value⟩ := member
      rw [charsOfMembers, ih second]
      · simp [Member.ofField, Member.chars, Item.ofValue, Item.chars, textLiteral]
      · simp

theorem map_tree_ofValue (items : List Value) :
    (items.map Item.ofValue).map Item.tree = treesOfItems items := by
  induction items with
  | nil => rfl
  | cons item items ih =>
    rw [treesOfItems, ← ih]
    rfl

theorem map_entry_ofField (members : List (String × Value)) :
    (members.map Member.ofField).map Member.entry = treesOfMembers members := by
  induction members with
  | nil => rfl
  | cons member members ih =>
    rw [treesOfMembers, ← ih]
    rfl

/-! ## Values -/

theorem sound_ofValue {items : List Value} (h : ∀ v ∈ items, v.tree.Spelt v.chars) :
    ∀ i ∈ items.map Item.ofValue, i.Sound :=
  List.forall_mem_map.2 fun v hv => ⟨nofun, h v hv, nofun⟩

theorem sound_ofField {members : List (String × Value)}
    (h : ∀ m ∈ members, m.2.tree.Spelt m.2.chars) : ∀ m ∈ members.map Member.ofField, m.Sound :=
  List.forall_mem_map.2 fun m hm =>
    ⟨nofun, Literal.spelt_ofText m.1, nofun, nofun, h m hm, nofun⟩

/-- What is written for a value without floating-point numbers is a text of its tree. -/
theorem spelt_tree {v : Value} (free : v.FloatFree) : v.tree.Spelt v.chars := by
  induction free with
  | null => exact .null
  | bool b => cases b <;> exact .bool _
  | integer i =>
    rw [tree_integer]
    exact .number (NumberText.spelt_ofInteger i)
  | text s => exact .text (Literal.spelt_ofText s)
  | @list items free spelt =>
    rw [Value.tree, Value.chars, ← map_tree_ofValue]
    exact spelt_list (sound_ofValue spelt) (joined_charsOfItems items)
  | @object members free spelt =>
    rw [Value.tree, Value.chars, ← map_entry_ofField]
    exact spelt_object (sound_ofField spelt) (joined_charsOfMembers members)

end Tree

theorem Item.Sound.ofValue {v : Value} (free : v.FloatFree) : (Item.ofValue v).Sound :=
  ⟨nofun, Tree.spelt_tree free, nofun⟩

theorem chars_ofValue (v : Value) : (Item.ofValue v).chars = v.toText.toList := by
  simp [Item.ofValue, Item.chars, Value.toText]

theorem listText_chars {items : List Value} (free : ∀ v ∈ items, v.FloatFree) :
    ListText (items.map Item.ofValue) (Value.list items).chars :=
  ⟨[], charsOfItems items, [], nofun, nofun,
    Tree.sound_ofValue fun v hv => Tree.spelt_tree (free v hv), Tree.joined_charsOfItems items,
    by simp [Value.chars]⟩

theorem objectText_chars {members : List (String × Value)} (free : ∀ m ∈ members, m.2.FloatFree) :
    ObjectText (members.map Member.ofField) (Value.object members).chars :=
  ⟨[], charsOfMembers members, [], nofun, nofun,
    Tree.sound_ofField fun m hm => Tree.spelt_tree (free m hm), Tree.joined_charsOfMembers members,
    by simp [Value.chars]⟩

end LiveRuns.Json
