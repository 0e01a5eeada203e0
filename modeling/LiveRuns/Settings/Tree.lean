import LiveRuns.Fields
import LiveRuns.Settings.Datum
import LiveRuns.Settings.Path

/-!
Settings as a tree.

A tree is a value with, at every node, the name of the source that wrote it.  Sources are laid one
over the other: where both have a table the tables merge, key by key, and a merged table has no
source; anything else in the upper tree replaces what is below it.
-/

namespace LiveRuns.Settings

/-- A value and where each part of it comes from. -/
inductive Tree where
  | leaf (origin : Option String) (value : Scalar)
  | list (origin : Option String) (items : List Tree)
  | table (origin : Option String) (entries : List (String × Tree))

namespace Tree

def absent : Tree := .leaf none .nothing

instance : Inhabited Tree := ⟨absent⟩

def origin : Tree → Option String
  | .leaf origin _ | .list origin _ | .table origin _ => origin

/-- The entries of a table; no other node has any. -/
def entries : Tree → List (String × Tree)
  | .table _ entries => entries
  | _ => []

def items : Tree → List Tree
  | .list _ items => items
  | _ => []

/-- A node as a table.  What is none becomes an empty one. -/
def asTable : Tree → Tree
  | .table origin entries => .table origin entries
  | _ => .table none []

def asList : Tree → Tree
  | .list origin items => .list origin items
  | _ => .list none []

mutual

def ofDatum (origin : Option String) : Datum → Tree
  | .scalar value => .leaf origin value
  | .list items => .list origin (ofItems origin items)
  | .table entries => .table origin (ofEntries origin entries)

def ofItems (origin : Option String) : List Datum → List Tree
  | [] => []
  | item :: items => ofDatum origin item :: ofItems origin items

def ofEntries (origin : Option String) : List (String × Datum) → List (String × Tree)
  | [] => []
  | (key, datum) :: entries => putField key (ofDatum origin datum) (ofEntries origin entries)

end

def alterKey (key : String) (f : Tree → Tree) (t : Tree) : Tree :=
  let entries := t.asTable.entries
  .table t.asTable.origin (putField key (f ((entries.lookup key).getD absent)) entries)

/-- Change an item of a list, which grows at the end or in front until it has the item. -/
def alterItem (index : Int) (f : Tree → Tree) (t : Tree) : Tree :=
  let items := t.asList.items
  let size := items.length
  .list t.asList.origin <|
    if 0 ≤ index then
      (items ++ List.replicate (index.toNat + 1 - size) absent).modify index.toNat f
    else if index.natAbs ≤ size then items.modify (size - index.natAbs) f
    else (List.replicate (index.natAbs - size) absent ++ items).modify 0 f

def alter (f : Tree → Tree) : Path → Tree → Tree
  | [], t => f t
  | .key key :: path, t => t.alterKey key (alter f path)
  | .item index :: path, t => t.alterItem index (alter f path)

mutual

def laidOver : Tree → Tree → Tree
  | .table _ entries, lower => entriesOver entries lower.asTable
  | upper, _ => upper

def entriesOver : List (String × Tree) → Tree → Tree
  | [], lower => lower
  | (key, upper) :: entries, lower => entriesOver entries (lower.alterKey key (laidOver upper))

end

def set (t : Tree) (path : Path) (value : Tree) : Tree := t.alter (laidOver value) path

end Tree

abbrev Layer := List (Path × Tree)

/-- The tree of some layers, of which later ones lie over earlier ones. -/
def Tree.ofLayers (layers : List Layer) : Tree :=
  layers.flatten.foldl (fun tree setting => tree.set setting.1 setting.2) (.table none [])

end LiveRuns.Settings
