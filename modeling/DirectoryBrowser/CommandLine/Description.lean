import DirectoryBrowser.CommandLine.Machine
import DirectoryBrowser.Toml.Document
import DirectoryBrowser.Toml.Record

/-!
# Machine descriptions

A machine can be described in a TOML document: its directories, the files
and links on its disk, and what its git tool answers. A tool without
answers is installed but fails, and no mention of it means that it is not
there. What lies on the way to a file need not be listed.
-/

namespace DirectoryBrowser.MachineDescription

open Toml

def optional (fields : Fields) (name : String) : Option (Option String) :=
  fields.field 0 name (fun toml ↦ (string? toml).map some) none

def records {α : Type} (fields : Fields) (name : String) (read : Fields → Option α) :
    Option (List α) :=
  fields.field 0 name (fun toml ↦ do (← items? toml).mapM fun item ↦ do read (← fields? item)) []

def pair (first second : String) (fields : Fields) : Option (String × String) := do
  return (← fields.required 0 first string?, ← fields.required 1 second string?)

def gitAnswer (fields : Fields) : Option GitAnswer := do
  return {
    arguments := ← fields.required 0 "arguments" string?
    directory := ← optional fields "directory"
    output := ← fields.required 2 "output" string?
    code := ← fields.field 3 "code" count? 0 }

def gitTool (fields : Fields) : Option GitTool :=
  match fields.get? 0 "git" with
  | none => some none
  | some _ => (records fields "git" gitAnswer).map some

/-- Adds something at a path, after the directories that lead to it. -/
def addBelow (add : Disk → String → Except SystemError Disk) (disk : Disk) (path : String) :
    Option Disk :=
  Except.toOption do
    let disk ←
      match Disk.parentPath? path.toList with
      | some directory => disk.ensureDirectory (String.ofList directory)
      | none => pure disk
    add disk path

def diskOf (fields : Fields) : Option Disk := do
  let directories ← fields.field 0 "directories" (fun toml ↦ do (← items? toml).mapM string?) []
  let files ← records fields "files" (pair "path" "text")
  let links ← records fields "links" (pair "path" "target")
  let workingDir ← fields.field 0 "working_dir" string? "/"
  let disk ← directories.foldlM (fun disk path ↦ (disk.ensureDirectory path).toOption) Disk.empty
  let disk ← files.foldlM (fun disk (path, content) ↦
    addBelow (fun disk path ↦ disk.write path (Text.bytesOf content)) disk path) disk
  let disk ← links.foldlM (fun disk (path, target) ↦
    addBelow (fun disk path ↦ disk.makeLink path target) disk path) disk
  let disk ← (disk.ensureDirectory workingDir).toOption
  return { disk with workingDir := ← (disk.directoryAt workingDir).toOption }

def parse (text : String) : Option Machine := do
  let fields := Fields.named (← Toml.parse text)
  return {
    disk := ← diskOf fields
    home := ← optional fields "home"
    settingsHome := ← optional fields "settings_home"
    git := ← gitTool fields }

end DirectoryBrowser.MachineDescription
