import DirectoryBrowser.Backend.Basic
import DirectoryBrowser.Url.Access

/-!
# FTP settings

A location names the server, the login and how the connection is secured.
Nobody in particular logs in as `anonymous`. The root of the backend leaves
the login out, except for the user in its title.
-/

namespace DirectoryBrowser

open Text

inductive FtpTls where
  | none
  /-- Secured by a command after connecting. -/
  | explicit
  /-- Secured from the first byte. -/
  | implicit
  deriving DecidableEq, Repr

structure FtpConfig where
  host : String
  port : Nat
  user : String
  password : String
  rootPath : String
  tls : FtpTls
  passive : Bool
  deriving DecidableEq, Repr

namespace FtpTls

def name : FtpTls → String
  | .none => "None"
  | .explicit => "Explicit"
  | .implicit => "Implicit"

def defaultPort : FtpTls → Nat
  | .implicit => 990
  | _ => 21

def scheme : FtpTls → String
  | .none => "ftp"
  | _ => "ftps"

end FtpTls

namespace FtpConfig

def asksForImplicit (url : Url) : Bool :=
  url.queryPairs.any fun (key, value) ↦ key == "tls" && lowered value == "implicit"

def tlsOf (url : Url) : FtpTls :=
  if asksForImplicit url then .implicit
  else if url.scheme = "ftps".toList then .explicit
  else .none

def ofUrl (url : Url) (passive : Bool) : Except String FtpConfig :=
  match url.hostText? with
  | none => .error "host is required"
  | some host =>
    let tls := tlsOf url
    .ok {
      host
      port := url.port.getD tls.defaultPort
      user := if url.username.isEmpty then "anonymous"
        else percentDecode (String.ofList url.username)
      password := (url.password.map fun text ↦ percentDecode (String.ofList text)).getD "anonymous@"
      rootPath := "/"
      tls
      passive }

def authority (config : FtpConfig) : String :=
  if config.port = config.tls.defaultPort then config.host
  else config.host ++ ":" ++ toString config.port

def invalidUrl : Url :=
  { scheme := "ftp".toList, username := [], password := none
    host := .domain "invalid".toList, port := none
    path := .segments [[]], query := none, fragment := none }

/-- Root URL; a root path that makes none gives way to the top of the server. -/
def rootUrl (config : FtpConfig) : Url :=
  let server := config.tls.scheme ++ "://" ++ config.authority
  match Url.parse (server ++ config.rootPath), Url.parse (server ++ "/") with
  | .ok url, _ | .error _, .ok url => url
  | .error _, .error _ => invalidUrl

def root (config : FtpConfig) : RootIdentity :=
  { title := config.tls.scheme ++ "://" ++ config.user ++ "@" ++ config.authority
    url := config.rootUrl
    path := Path.normalize config.rootPath }

def home (config : FtpConfig) : String := Path.normalize config.rootPath

end FtpConfig

end DirectoryBrowser
