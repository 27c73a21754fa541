import DirectoryBrowser.Disk.Files
import DirectoryBrowser.Settings

/-!
# Settings files

A file that was asked for must be readable. The usual file need not even be
there: it is written with the defaults where it is missing, and whatever
goes wrong with it, the defaults take its place.
-/

namespace DirectoryBrowser.SettingsFile

def cannotRead (path : String) (reason : SystemError) : AppError :=
  .config ("cannot read " ++ path ++ ": " ++ reason.message)

def cannotParse (path : String) : AppError :=
  .config ("cannot parse " ++ path)

def load (disk : Disk) (path : String) : Except AppError Settings :=
  match disk.readText path with
  | .error reason => .error (cannotRead path reason)
  | .ok text =>
    match Settings.parse text with
    | some settings => .ok settings
    | none => .error (cannotParse path)

/-- A disk on which the directory of the settings, and the file in it, have been made if missing. -/
def prepared (disk : Disk) (directory path : String) : Except SystemError Disk := do
  let disk ← if disk.contains directory then pure disk else disk.ensureDirectory directory
  if disk.contains path then pure disk
  else disk.write path (Text.bytesOf Settings.defaultText)

def loadUsual (disk : Disk) (directory path : String) : Settings × Disk :=
  match prepared disk directory path with
  | .ok disk => ((load disk path).toOption.getD Settings.default, disk)
  | .error _ => (Settings.default, disk)

end DirectoryBrowser.SettingsFile
