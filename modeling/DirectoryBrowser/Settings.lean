import DirectoryBrowser.Toml.Document
import DirectoryBrowser.Toml.Record

/-!
# Settings

Settings are read from a TOML file in which everything is optional. A file
that cannot be read as settings is an error as a whole; there are no
half-read settings.
-/

namespace DirectoryBrowser

structure SavedConnection where
  name : String
  url : String
  deriving DecidableEq, Repr

structure Settings where
  /-- Whether to reopen the last visited location. -/
  rememberPath : Bool
  statusEnabled : Bool
  statusWorkers : Nat
  httpTimeoutSecs : Nat
  ftpPassive : Bool
  connections : List SavedConnection
  deriving DecidableEq, Repr

namespace Settings

def default : Settings :=
  { rememberPath := true, statusEnabled := true, statusWorkers := 4, httpTimeoutSecs := 15
    ftpPassive := true, connections := [] }

/-- Settings file that is written where there is none. It says the defaults. -/
def defaultText : String :=
  "# burrow configuration\n\n" ++
  "[general]\n" ++
  "# Reopen the last visited location when started without one\n" ++
  "remember_path = true\n\n" ++
  "[status]\n" ++
  "# Show git status next to entries of local directories\n" ++
  "enabled = true\n" ++
  "# Worker threads computing status\n" ++
  "workers = 4\n\n" ++
  "[http]\n" ++
  "# Timeout for fetching a directory index, in seconds\n" ++
  "timeout_secs = 15\n\n" ++
  "[ftp]\n" ++
  "# Passive mode works behind most firewalls and NAT\n" ++
  "passive = true\n\n" ++
  "# Saved connections, usable by name on the command line\n" ++
  "# [[connections]]\n" ++
  "# name = \"mirror\"\n" ++
  "# url = \"https://mirror.example.org/pub/\"\n"

def connectionOf (toml : Toml) : Option SavedConnection := do
  let fields ← toml.fields?
  return ⟨← fields.required 0 "name" Toml.string?, ← fields.required 1 "url" Toml.string?⟩

def connectionsOf (toml : Toml) : Option (List SavedConnection) := do
  (← toml.items?).mapM connectionOf

/-- A section with its fields, all of which keep their defaults where there is no section. -/
def section? (rows : Toml.Rows) (name : String) : Option Toml.Fields :=
  match rows.lookup name with
  | some toml => toml.fields?
  | none => some (.named [])

def ofRows (rows : Toml.Rows) : Option Settings := do
  let general ← section? rows "general"
  let status ← section? rows "status"
  let http ← section? rows "http"
  let ftp ← section? rows "ftp"
  return {
    rememberPath := ← general.field 0 "remember_path" Toml.bool? default.rememberPath
    statusEnabled := ← status.field 0 "enabled" Toml.bool? default.statusEnabled
    statusWorkers := ← status.field 1 "workers" Toml.count? default.statusWorkers
    httpTimeoutSecs := ← http.field 0 "timeout_secs" Toml.count? default.httpTimeoutSecs
    ftpPassive := ← ftp.field 0 "passive" Toml.bool? default.ftpPassive
    connections := ← match rows.lookup "connections" with
      | some toml => connectionsOf toml
      | none => some default.connections }

def parse (text : String) : Option Settings := do
  ofRows (← Toml.parse text)

/-- URL of a saved connection; of two with one name the first counts. -/
def connection? (settings : Settings) (name : String) : Option String :=
  (settings.connections.find? (·.name == name)).map SavedConnection.url

end Settings

end DirectoryBrowser
