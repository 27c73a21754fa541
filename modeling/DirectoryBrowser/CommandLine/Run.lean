import DirectoryBrowser.CommandLine.Arguments
import DirectoryBrowser.CommandLine.Browse
import DirectoryBrowser.Operation.Delete
import DirectoryBrowser.Operation.Generate
import DirectoryBrowser.SettingsFile

/-!
# Running a command

Every command resolves its location in the same way: the name of a saved
connection stands for its URL, and everything else is a location itself.
What a command prints comes at its end, so that one that fails prints
nothing but its error.
-/

namespace DirectoryBrowser.CommandLine

/-- What a run leaves behind for whoever started it. -/
structure Report where
  code : Nat
  output : String
  message : Option String
  deriving DecidableEq, Repr

def locate (settings : Settings) (workingDir location : String) : Except AppError Location :=
  Location.resolve settings.ftpPassive workingDir
    ((settings.connection? location).getD location)

/-! ### Operations -/

/-- Paths that a removal is handed, in the order of their names. -/
def removalPaths (place : Location) (names : List String) : List String :=
  names.map (Path.join place.path)

def resultOf : BackendReply → Option (Except BackendError Unit)
  | .failed error => some (.error error)
  | .panicked _ => none
  | _ => some (.ok ())

/-- A storage as the workplace of an operation that nobody cancels. -/
def workplace (storage : Storage) (callFor : String → BackendCall) : Workplace Machine where
  act path machine :=
    let (reply, machine) := machine.call storage (callFor path)
    (resultOf reply, machine)
  poll machine := (false, machine)

def finish (ending : Ending) (output : String) : Except AppError String :=
  match Outcome.ofEnding ending with
  | .completed => .ok output
  | .failed error => .error (.operation error)
  | .cancelled => .error (.operation .cancelled)

def remove (machine : Machine) (place : Location) (names : List String) :
    Except AppError String × Machine :=
  let paths := removalPaths place names
  let (ending, running) := Delete.run (workplace place.storage .delete) machine paths
  (finish ending ("deleted " ++ toString paths.length ++ " entries\n"), running.world)

def makeTree (machine : Machine) (place : Location) (layout : TreeLayout) :
    Except AppError String × Machine :=
  let (ending, running) :=
    Generate.run (workplace place.storage .createDirectory) machine place.path layout
  (finish ending ("created " ++ toString layout.total ++ " directories\n"), running.world)

/-! ### Commands -/

def run (machine : Machine) (settings : Settings) (command : Command) :
    Except AppError String × Machine :=
  let located (location : String)
      (act : Location → Except AppError String × Machine) : Except AppError String × Machine :=
    match locate settings machine.workingDir location with
    | .ok place => act place
    | .error error => (.error error, machine)
  match command with
  | .list none all => Browse.run machine settings none all
  | .list (some location) all =>
    located location fun place ↦ Browse.run machine settings (some place) all
  | .remove location names => located location fun place ↦ remove machine place names
  | .makeTree location layout => located location fun place ↦ makeTree machine place layout

/-- Settings from the file that was asked for, or the usual ones. -/
def settingsFor (machine : Machine) : Option String → Except AppError Settings × Machine
  | some path => (SettingsFile.load machine.disk path, machine)
  | none =>
    match machine.settingsDirectory?, machine.settingsFile? with
    | some directory, some path =>
      let (settings, disk) := SettingsFile.loadUsual machine.disk directory path
      (.ok settings, { machine with disk })
    | _, _ => (.ok Settings.default, machine)

def failing (error : AppError) : Report := ⟨1, "", some ("bw: " ++ error.message)⟩

def invoke (machine : Machine) (invocation : Invocation) : Report × Machine :=
  match settingsFor machine invocation.settingsPath with
  | (.error error, machine) => (failing error, machine)
  | (.ok settings, machine) =>
    match run machine settings invocation.command with
    | (.error error, machine) => (failing error, machine)
    | (.ok output, machine) => (⟨0, output, none⟩, machine)

def helpText : String :=
  "Browse local, FTP and HTTP index directories\n\n" ++
  "Usage: bw [OPTIONS] <COMMAND>\n\n" ++
  "Commands:\n" ++
  "  ls          List a directory (the last visited one when LOCATION is omitted)\n" ++
  "  rm          Delete entries of a directory, stopping at the first failure\n" ++
  "  mkdir-tree  Create a nested tree of directories\n" ++
  "  help        Print this message\n"

/-- Runs the program. Wrong usage touches nothing, not even the settings. -/
def execute (machine : Machine) (arguments : List String) : Report × Machine :=
  match Invocation.parse arguments with
  | .ok invocation => invoke machine invocation
  | .error .help => (⟨0, helpText, none⟩, machine)
  | .error .version => (⟨0, "bw 0.1.0\n", none⟩, machine)
  | .error (.usage error) => (⟨2, "", some ("error: " ++ error.message)⟩, machine)

end DirectoryBrowser.CommandLine
