import DirectoryBrowser.Http.Index
import DirectoryBrowser.Http.Redirect
import DirectoryBrowser.Table
import DirectoryBrowser.Text.Base64

/-!
# HTTP client

A listing is fetched with one request, and again wherever the server sends
it, up to a limit. The login of the base URL goes along as a header, not as
part of what is asked for. Whatever keeps an answer from coming is reported
for the URL that was asked first, a bad status for the one that had it. The
server is a table of pages by request target, and logs what it is asked.
-/

namespace DirectoryBrowser

open Text

structure HttpPage where
  status : Nat
  body : List UInt8
  location : Option String
  /-- The connection is closed without an answer. -/
  isClosed : Bool
  deriving DecidableEq, Repr

structure HttpServer where
  isDown : Bool
  pages : Table String HttpPage
  /-- Any request has the operation cancelled. -/
  cancels : Bool
  log : List String
  cancelled : Bool

inductive HttpFault where
  | refused
  | broken
  | tooManyRedirects
  | unusableRedirect
  | status (code : Nat)
  deriving DecidableEq, Repr

namespace HttpFault

def describe : HttpFault → String
  | .refused | .broken => "error sending request"
  | .tooManyRedirects => "error following redirect"
  | .unusableRedirect => "builder error"
  | .status code =>
    "HTTP status " ++ (if code < 500 then "client" else "server") ++ " error (" ++
      toString code ++ " X)"

def message (fault : HttpFault) (url : Url) : String :=
  fault.describe ++ " for url (" ++ url.toText ++ ")"

/-- A server that cannot be reached is told from one that answers badly. -/
def toError (path : String) (url : Url) (fault : HttpFault) : BackendError :=
  match fault with
  | .refused => .connection path (fault.message url)
  | _ => .http path (fault.message url)

end HttpFault

namespace HttpClient

/-- Value of the header that logs in, and the URL without its login. A user name that is not text
logs nobody in and stays where it is. -/
def splitLogin (url : Url) : Option String × Url :=
  match Url.decoded? url.username with
  | none => (none, url)
  | some user =>
    let password := url.password.bind Url.decoded?
    if user.isEmpty && password.isNone then (none, url)
    else
      (some ("Basic " ++ String.ofList (base64 (bytesOf (user ++ ":" ++ password.getD "")))),
        url.withoutCredentials)

def targetOf (url : Url) : String :=
  String.ofList (url.path.text ++
    match url.query with
    | some query => '?' :: query
    | none => [])

def notFound : HttpPage := ⟨404, [], none, false⟩

def request (server : HttpServer) (login : Option String) (url : Url) : HttpPage × HttpServer :=
  let target := targetOf url
  let line := "GET " ++ target ++ (login.map (" " ++ ·)).getD ""
  let page := (server.pages.find? target).getD notFound
  (page, { server with
    log := server.log ++ [line]
    cancelled := server.cancelled || server.cancels })

def isRedirect (status : Nat) : Bool :=
  status == 301 || status == 302 || status == 303 || status == 307 || status == 308

def redirectLimit : Nat := 10

def isWeb (url : Url) : Bool :=
  url.scheme = "http".toList || url.scheme = "https".toList

/-- What one request leads to. -/
inductive Hop where
  | answered (page : HttpPage)
  | failed (fault : HttpFault)
  | onward (next : Url)

def hopOf (url : Url) (page : HttpPage) : Hop :=
  match if isRedirect page.status then page.location.bind (Redirect.follow? url) else none with
  | none => .answered page
  | some (.ok next) => .onward next
  | some (.error _) => .failed .unusableRedirect

/-- One request to a server that listens at `home`. -/
def hop (home : Url) (login : Option String) (server : HttpServer) (url : Url) :
    Hop × HttpServer :=
  if server.isDown || !url.sameOrigin home then (.failed .refused, server)
  else
    let (page, server) := request server login url
    if page.isClosed then (.failed .broken, server) else (hopOf url page, server)

/-- Fetches a URL, following as many redirects as are left. -/
def fetch (home : Url) (login : Option String) :
    Nat → HttpServer → Url → Except HttpFault (HttpPage × Url) × HttpServer
  | 0, server, url =>
    match hop home login server url with
    | (.answered page, server) => (.ok (page, url), server)
    | (.failed fault, server) => (.error fault, server)
    | (.onward _, server) => (.error .tooManyRedirects, server)
  | left + 1, server, url =>
    match hop home login server url with
    | (.answered page, server) => (.ok (page, url), server)
    | (.failed fault, server) => (.error fault, server)
    | (.onward next, server) =>
      if isWeb next then fetch home login left server next
      else (.error .unusableRedirect, server)

/-- Text of a page without its byte order mark. Some answers never have a body. -/
def pageText (page : HttpPage) : String :=
  if page.status = 204 ∨ page.status = 304 then ""
  else
    match page.body with
    | 0xEF :: 0xBB :: 0xBF :: rest => textLossy rest
    | body => textLossy body

def list (index : HttpIndex) (server : HttpServer) (cancelled : Bool) (path : String) :
    Except BackendError (List Entry) × HttpServer :=
  if cancelled then (.error (.cancelled path), server)
  else
    let listing := index.listingUrl path
    let (login, asked) := splitLogin listing
    match fetch index.base login redirectLimit server asked with
    | (.error fault, server) => (.error (fault.toError path asked), server)
    | (.ok (page, url), server) =>
      if page.status = 404 then (.error (.notFound path), server)
      else if page.status = 401 ∨ page.status = 403 then (.error (.permissionDenied path), server)
      else if 400 ≤ page.status ∧ page.status < 600 then
        (.error ((HttpFault.status page.status).toError path url), server)
      else if server.cancelled then (.error (.cancelled path), server)
      else (.ok (HttpIndex.extractEntries listing (pageText page)), server)

/-- Answers a call; `shared` says that the call looks at the token the server can cancel. An index
can only be read. -/
def call (index : HttpIndex) (shared cancelled : Bool) (server : HttpServer) :
    BackendCall → BackendReply × HttpServer
  | .list path =>
    let (result, server) := list index server (cancelled || (shared && server.cancelled)) path
    (.ofEntries result, server)
  | .createDirectory path => (.failed (.creatingDirectory path), server)
  | .createFile path => (.failed (.creatingFile path), server)
  | .delete path => (.failed (.deleting path), server)
  | .join base name => (.path (Path.join base name), server)
  | .root => (.root index.root, server)
  | .home | .localPath _ => (.place none, server)

end HttpClient

end DirectoryBrowser
