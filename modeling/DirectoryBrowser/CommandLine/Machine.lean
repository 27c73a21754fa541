import DirectoryBrowser.Disk.Backend
import DirectoryBrowser.Ftp.Client
import DirectoryBrowser.Http.Client
import DirectoryBrowser.Navigation.Snapshot
import DirectoryBrowser.Status.Git

/-!
# Machines

What the command line runs on: a disk, the directories of its user, and the
git tool. The machine has no network, so that servers cannot be reached.
-/

namespace DirectoryBrowser

structure Machine where
  disk : Disk
  home : Option String
  /-- Directory under which programs keep their settings. -/
  settingsHome : Option String
  git : GitTool

namespace Machine

def settingsDirectory? (machine : Machine) : Option String :=
  machine.settingsHome.map fun directory ↦ Path.join directory "burrow"

def settingsFile? (machine : Machine) : Option String :=
  machine.settingsDirectory?.map fun directory ↦ Path.join directory "config.toml"

def stateFile? (machine : Machine) : Option String :=
  machine.settingsDirectory?.map fun directory ↦ Path.join directory "state.toml"

def workingDir (machine : Machine) : String :=
  Disk.placeText machine.disk.workingDir

def downFtpServer : FtpServer :=
  { isDown := true, replies := Table.empty, listing := "", cancelOn := none }

def downHttpServer : HttpServer :=
  { isDown := true, pages := Table.empty, cancels := false, log := [], cancelled := false }

def call (machine : Machine) (storage : Storage) (call : BackendCall) : BackendReply × Machine :=
  match storage with
  | .disk =>
    let (reply, disk) := machine.disk.call machine.home false call
    (reply, { machine with disk })
  | .ftp config =>
    ((FtpClient.call config 0 .fresh (Conversation.start downFtpServer) call).1, machine)
  | .http index => ((HttpClient.call index false false downHttpServer call).1, machine)

/-- Listing of a storage. A reply that is no listing has nothing to show. -/
def list (machine : Machine) (storage : Storage) (path : String) :
    Except BackendError (List Entry) :=
  match (machine.call storage (.list path)).1 with
  | .entries found => .ok found
  | .failed error => .error error
  | _ => .ok []

/-- The backend that a session sees for a storage. -/
def backend (machine : Machine) (id : Nat) (storage : Storage) : Backend :=
  { id, root := storage.root, home := storage.home? machine.home
    localPath? := storage.localPath? }

end Machine

end DirectoryBrowser
