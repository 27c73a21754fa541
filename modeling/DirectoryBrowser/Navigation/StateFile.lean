import DirectoryBrowser.Disk.Files
import DirectoryBrowser.Navigation.SavedState
import DirectoryBrowser.Toml.Document
import DirectoryBrowser.Toml.Record

/-!
# State files

The saved location as a TOML document, one line per field. A field that is
missing reads as empty, and a file that is missing or cannot be read holds
no location. Saving makes the directories that lead to the file.
-/

namespace DirectoryBrowser

namespace NavState

def parse (text : String) : Option NavState := do
  let fields := Toml.Fields.named (← Toml.parse text)
  return {
    rootUrl := ← fields.field 0 "backend_root_url" Toml.string? ""
    directory := ← fields.field 1 "current_dir_path" Toml.string? ""
    treeDirectory := ← fields.field 2 "selected_tree_dir" Toml.string? ""
    entry := ← fields.field 3 "current_entry_name" (fun toml ↦ toml.string?.map some) none }

def writeField (key value : String) : String :=
  key ++ " = " ++ String.ofList (Toml.writeText value.toList) ++ "\n"

def toText (state : NavState) : String :=
  writeField "backend_root_url" state.rootUrl ++
  writeField "current_dir_path" state.directory ++
  writeField "selected_tree_dir" state.treeDirectory ++
  (state.entry.map (writeField "current_entry_name")).getD ""

end NavState

namespace StateFile

def load (disk : Disk) (path : String) : Option NavState :=
  match disk.readText path with
  | .ok text => NavState.parse text
  | .error _ => none

def save (disk : Disk) (path : String) (state : NavState) : Except AppError Disk :=
  Except.mapError AppError.io do
    let disk ←
      match Disk.parentPath? path.toList with
      | some directory => disk.ensureDirectory (String.ofList directory)
      | none => pure disk
    disk.write path (Text.bytesOf state.toText)

end StateFile

end DirectoryBrowser
