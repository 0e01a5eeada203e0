import LiveRuns.Proofs.Json.Value
import LiveRuns.Settings.File

/-!
A settings file in JSON.

The file of the default name sets, at the path that each key of its object spells, what the object
says there, `layer_jsonFile`.
-/

namespace LiveRuns.Settings

open LiveRuns.Json (Value)

def jsonFile (members : List (String × Value)) : Files :=
  [("run-sync.json", (Value.object members).toText)]

theorem withoutMark_object (members : List (String × Value)) :
    File.withoutMark (Value.object members).toText = (Value.object members).toText := by
  have htext : (Value.object members).toText.toList =
      '{' :: (Json.charsOfMembers members ++ ['}']) := by
    simp [Value.toText, Value.chars]
  rw [File.withoutMark, htext]
  rfl

theorem find_default (content : String) :
    File.find [("run-sync.json", content)] Files.defaultName =
      .ok ⟨"run-sync.json", .json, content⟩ := by
  have hdefault : File.plainName "run-sync" = "run-sync" := by decide
  have hname : File.plainName "run-sync.json" = "run-sync.json" := by decide
  simp [File.find, File.content?, Files.defaultName, Format.extensions, hdefault, hname]

theorem layer_jsonFile (members : List (String × Value)) (order : Ascending members)
    (sound : ∀ m ∈ members, m.2.Sound 126) (free : ∀ m ∈ members, m.2.FloatFree) :
    (jsonFile members).layer none =
      .ok ((entriesOfJson members).map fun entry =>
        (Path.ofText entry.1, .ofDatum (some "run-sync.json") entry.2)) := by
  have hread : Value.ofText (Value.object members).toText = .ok (.object members) :=
    Json.ofText_toText_of_sound (.object order sound) (.object free)
  rw [Files.layer, jsonFile, find_default]
  show File.Found.layer _ = _
  rw [File.Found.layer, withoutMark_object, Format.read?, hread]
  rfl

end LiveRuns.Settings
