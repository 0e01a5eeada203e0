import LiveRuns.Settings.Toml
import LiveRuns.Settings.Tree
import LiveRuns.Settings.Yaml

/-!
Settings files.

A file is named with or without its extension; without one, the extensions are tried in order.  The
extension tells the format.  Every key of the root table is a path.
-/

namespace LiveRuns.Settings

/-- The files in the directory of a process: their names and contents. -/
abbrev Files := List (String × String)

inductive Format where
  | toml
  | json
  | yaml
deriving DecidableEq, Repr

namespace Format

/-- The extensions and their formats, in the order in which they are tried. -/
def extensions : List (String × Format) :=
  [("toml", .toml), ("json", .json), ("yaml", .yaml), ("yml", .yaml)]

def read? (format : Format) (text : String) : Option Datum :=
  match format with
  | .toml => Toml.read? text
  | .json => (Json.Value.ofText text).toOption.map .ofJson
  | .yaml => Yaml.read? text

end Format

namespace File

inductive Fault where
  | notFound (name : String)
  | noFormat (name : String)
  /-- The file is not in its format, or is no table. -/
  | unreadable
deriving DecidableEq, Repr

/-- A name without the parts that lead nowhere. -/
def plainName (name : String) : String :=
  let root := name.toList.takeWhile (· = '/')
  let parts := (Text.split '/' name.toList).filter fun part => !part.isEmpty && part ≠ ['.']
  String.ofList (root.take 1 ++ ['/'].intercalate parts)

/-- The extension of a name: what follows the last dot, unless that is its first character. -/
def extension? (name : String) : Option String :=
  let last := ((Text.split '/' name.toList).getLast?.getD []).reverse
  let extension := last.takeWhile (· ≠ '.')
  if extension.length + 1 < last.length then some (String.ofList extension.reverse) else none

structure Found where
  name : String
  format : Format
  content : String
deriving DecidableEq, Repr

def content? (files : Files) (name : String) : Option String :=
  (files.find? fun file => plainName file.1 = name).map (·.2)

/-- The names under which a file is looked for, in order. -/
def candidates (name : String) : List String :=
  name :: Format.extensions.map fun (extension, _) => name ++ "." ++ extension

/-- Find a file by its name, or by its name without extension. -/
def find (files : Files) (given : String) : Except Fault Found :=
  let name := plainName given
  if name = "" ∨ name = "/" then .error (.notFound given)
  else
    match content? files name with
    | some content =>
      match (extension? name).bind fun extension => Format.extensions.lookup extension with
      | some format => .ok ⟨name, format, content⟩
      | none => .error (.noFormat given)
    | none =>
      let found? := Format.extensions.findSome? fun (extension, format) =>
        let name := name ++ "." ++ extension
        (content? files name).map (⟨name, format, ·⟩)
      match found? with
      | some found => .ok found
      | none => .error (.notFound given)

def withoutMark (text : String) : String :=
  match text.toList with
  | '\uFEFF' :: rest => String.ofList rest
  | _ => text

def Found.layer (found : Found) : Except Fault Layer :=
  match (found.format.read? (withoutMark found.content)).bind Datum.entries? with
  | some entries =>
    .ok (entries.map fun (key, datum) => (Path.ofText key, .ofDatum (some found.name) datum))
  | none => .error .unreadable

end File

namespace Files

/-- The name of the file that is read, if it is there, when none is given. -/
def defaultName : String := "run-sync"

def layer (files : Files) : Option String → Except File.Fault Layer
  | some name => do (← File.find files name).layer
  | none =>
    match File.find files defaultName with
    | .ok found => found.layer
    | .error _ => .ok []

end Files

end LiveRuns.Settings
