import DirectoryBrowser.CommandLine.Machine
import DirectoryBrowser.Navigation.Session
import DirectoryBrowser.Navigation.StateFile
import DirectoryBrowser.Settings

/-!
# Listing a directory

A listing is a session that is left to settle. Without a location it goes
back to the saved one, on the storage with the saved root if there is one
among the disk, the saved connections and the saved location itself; and to
the home directory if nothing has been saved. Whatever the session saves is
written to the state file, and a file that cannot be written is no error.
-/

namespace DirectoryBrowser.Browse

/-- Storage that a session is on. -/
def storageOf (storages : List Storage) (backend : Backend) : Storage :=
  (storages[backend.id]?).getD .disk

/-- Lets listings return in the order of their loads, at most so many. -/
def settleLoads (machine : Machine) (storages : List Storage) : Nat → Session → Session
  | 0, session => session
  | rounds + 1, session =>
    match session.loads with
    | [] => session
    | load :: _ =>
      let result := machine.list (storageOf storages load.backend) load.path
      settleLoads machine storages rounds
        (session.respond load.generation result).processUpdates.2

/-- Answers status requests in their order. -/
def settleStatus (machine : Machine) : Nat → Session → Session
  | 0, session => session
  | count + 1, session =>
    match session.jobs with
    | [] => session
    | job :: _ =>
      let record := (Git.read machine.git machine.disk job.key job.isDir).1
      settleStatus machine count (session.settleStatus record).2

/-- A location loads once, and a saved one that is gone gives way to a root, which loads too. -/
def settle (machine : Machine) (storages : List Storage) (session : Session) : Session :=
  let session := settleLoads machine storages 2 session
  settleStatus machine session.jobs.length session

def saveAll (machine : Machine) (file : Option String) (events : List Event) : Machine :=
  match file with
  | none => machine
  | some file =>
    { machine with
      disk := events.foldl (fun disk event ↦
        match event with
        | .saved state => ((StateFile.save disk file state).toOption).getD disk
        | _ => disk) machine.disk }

/-! ### Where to start -/

def fresh (settings : Settings) (saved : Option NavState) : Session :=
  Session.start (if settings.statusEnabled then some StatusCache.empty else none)
    (if settings.rememberPath then .holding saved else .absent)

def startAt (machine : Machine) (place : Location) (session : Session) :
    List Storage × Session :=
  ([place.storage],
    (session.navigateTo (machine.backend 0 place.storage) place.path true).2)

/-- Storages on which a saved location may lie. -/
def candidates (machine : Machine) (settings : Settings) (saved : Option NavState) :
    List Storage :=
  let urls := settings.connections.map SavedConnection.url ++
    (saved.map NavState.rootUrl).toList
  .disk :: urls.filterMap fun url ↦
    (Location.resolve settings.ftpPassive machine.workingDir url).toOption.map Location.storage

def startAnywhere (machine : Machine) (settings : Settings) (saved : Option NavState)
    (session : Session) : List Storage × Session :=
  let storages := candidates machine settings saved
  let backends := storages.zipIdx.map fun (storage, id) ↦ machine.backend id storage
  let (restored, session) :=
    match saved with
    | some state => session.restore backends state
    | none => (false, session)
  (storages,
    if restored then session
    else (session.navigateTo (machine.backend 0 .disk) "~" true).2)

/-! ### What is printed -/

def trailLine (session : Session) : String :=
  " / ".intercalate (session.breadcrumbs.map Breadcrumb.label)

def entryLine (session : Session) (directory : String) (entry : Entry) : String :=
  let badge := session.statusText (Path.join directory entry.name)
  entry.name ++ (if entry.isDir then "/" else "") ++
    (if badge.isEmpty then "" else "  " ++ badge)

def report (session : Session) (all : Bool) : Except AppError String :=
  match session.failure, session.current with
  | some failure, _ => .error (.location failure.path failure.message)
  | none, none => .ok ""
  | none, some snapshot =>
    let shown := snapshot.children.filter fun entry ↦ all || !entry.isHidden
    let lines := trailLine session :: shown.map (entryLine session snapshot.path)
    .ok (String.join (lines.map (· ++ "\n")))

/-- Lists a location, or the last visited one. -/
def run (machine : Machine) (settings : Settings) (place : Option Location) (all : Bool) :
    Except AppError String × Machine :=
  let file := if settings.rememberPath then machine.stateFile? else none
  let saved := file.bind (StateFile.load machine.disk)
  let session := fresh settings saved
  let (storages, session) :=
    match place with
    | some place => startAt machine place session
    | none => startAnywhere machine settings saved session
  let session := settle machine storages session
  (report session all, saveAll machine file session.trace)

end DirectoryBrowser.Browse
