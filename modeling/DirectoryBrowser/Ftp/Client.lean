import DirectoryBrowser.Ftp.Config
import DirectoryBrowser.Ftp.Listing
import DirectoryBrowser.Ftp.Server

/-!
# FTP client

Every call opens a connection of its own: greeting, login, binary transfers,
one command, and a farewell whose answer does not matter. A reply is read up
to the line that repeats its code with a space, and one with an unexpected
code ends the call.
-/

namespace DirectoryBrowser

open Text

inductive FtpFault where
  | connection (source : SystemError)
  | badReply
  | unexpected (code : Nat) (body : String)
  | secure
  deriving DecidableEq, Repr

namespace FtpFault

/-- What the codes mean for a path. -/
def toError (path : String) : FtpFault → BackendError
  | .connection source => .connection path source.message
  | .secure => .connection path "TLS error: handshake failed"
  | .badReply => .other path "Response contains an invalid syntax"
  | .unexpected code body =>
    if code = 530 then .auth path "login incorrect"
    else if code = 550 then .notFound path
    else if code = 553 ∨ code = 451 then .permissionDenied path
    else .other path ("FTP error " ++ toString code ++ ": " ++ body)

end FtpFault

namespace FtpClient

/-- Steps of a client in a conversation. -/
abbrev Exchange := ExceptT FtpFault (StateM Conversation)

def knownCodes : List Nat :=
  [110, 120, 125, 150, 200, 202, 211, 212, 213, 214, 215, 220, 221, 225, 226, 227, 228, 229, 230,
    231, 232, 234, 250, 257, 331, 332, 350, 421, 425, 426, 430, 434, 450, 451, 452, 500, 501, 502,
    503, 504, 530, 532, 550, 551, 552, 553]

def readLine : Exchange (List Char) :=
  modifyGet Conversation.readLine

/-- Skips the lines of a reply up to its last one. -/
def lastLine (code : List Char) (lines : List (List Char)) : Option (List Char × List (List Char)) :=
  match lines with
  | [] => none
  | line :: rest =>
    if (dropStart? (code ++ [' ']) line).isSome && 5 ≤ (utf8 line).length then some (line, rest)
    else lastLine code rest

/-- Reads a reply, which has to have one of the codes expected. -/
def expect (codes : List Nat) : Exchange (Nat × String) := do
  let line ← readLine
  if (utf8 line).length < 5 then throw .badReply
  let code := line.take 3
  match unsigned? UInt32.size code with
  | none => throw .badReply
  | some number =>
    let talk ← get
    match lastLine code (line :: talk.incoming) with
    | none => throw .badReply
    | some (last, incoming) =>
      set { talk with incoming }
      let known := if knownCodes.contains number then number else 0
      let body := String.ofList last
      if codes.contains known then return (known, body)
      else throw (.unexpected known (trimSpace body))

def command (text : String) : Exchange Unit :=
  modify fun talk ↦ talk.deliver (text ++ "\r\n")

/-- The six numbers of a passive reply, each of them digits between commas. -/
def sixNumbers? (text : List Char) : Option (List (List Char)) :=
  let rec go (count : Nat) (text : List Char) : Option (List (List Char)) :=
    let digits := text.takeWhile isDigit
    if digits.isEmpty then none
    else
      match count, text.dropWhile isDigit with
      | 0, ')' :: _ => some [digits]
      | count + 1, ',' :: rest => (go count rest).map (digits :: ·)
      | _, _ => none
  go 5 text

/-- The first place in a reply that looks like an address. -/
def findAddress? : List Char → Option (List (List Char))
  | [] => none
  | c :: cs =>
    match (if c == '(' then sixNumbers? cs else none) with
    | some found => some found
    | none => findAddress? cs

/-- Opens the data connection. Only the port of the server's own reply is open. -/
def openData : Exchange Unit := do
  command "PASV"
  let (_, body) ← expect [227]
  let talk ← get
  if talk.data.isSome then return
  match findAddress? body.toList with
  | none => throw (.unexpected 227 (trimSpace body))
  | some numbers =>
    if (numbers.mapM (numeral? 10 256)).isNone then throw .badReply
    else throw (.connection .connectionRefused)

def closeData : Exchange (List Char) :=
  modifyGet fun talk ↦ (talk.data.getD [], { talk with data := none })

/-- Lines of a listing without their ends; empty ones say nothing. -/
def listingLines (text : List Char) : List String :=
  let stripped := (Conversation.wireLines text).map fun line ↦
    match dropEnd? ['\n'] line with
    | some line => (dropEnd? ['\r'] line).getD line
    | none => line
  (stripped.filter (fun line ↦ !line.isEmpty)).map String.ofList

def list (path : String) : Exchange (List String) := do
  openData
  command ("LIST " ++ path)
  let _ ← expect [150, 125]
  let text ← closeData
  let _ ← expect [226, 250]
  return listingLines text

def store (path : String) : Exchange Unit := do
  openData
  command ("STOR " ++ path)
  let _ ← expect [125, 150]
  let _ ← closeData
  let _ ← expect [226, 250]

def simple (word path : String) (code : Nat) : Exchange Unit := do
  command (word ++ " " ++ path)
  let _ ← expect [code]

/-- What is no file may be a directory. -/
def remove (path : String) : Exchange Unit :=
  tryCatch (simple "DELE" path 250) fun _ ↦ simple "RMD" path 250

def connect : Exchange Unit := do
  if (← get).server.isDown then throw (.connection .connectionRefused)
  modify Conversation.accept

/-- The server speaks no TLS, so a handshake ends the connection. -/
def handshake : Exchange Unit := do
  modify fun talk ↦ (talk.note "<not ftp>").close
  throw .secure

/-- Connects, secures the connection and logs in. -/
def dial (config : FtpConfig) : Exchange Unit := do
  connect
  match config.tls with
  | .none =>
    let _ ← expect [220]
  | .explicit =>
    let _ ← expect [220]
    command "AUTH TLS"
    let _ ← expect [234]
    handshake
  | .implicit => handshake
  command ("USER " ++ config.user)
  let (code, _) ← expect [230, 331]
  if code = 331 then
    command ("PASS " ++ config.password)
    let _ ← expect [230]
  command "TYPE I"
  let _ ← expect [200]

def quit (talk : Conversation) : Conversation :=
  ((do command "QUIT"; let _ ← expect [221]) : Exchange Unit).run talk |>.2

/-- Runs one command on a connection of its own. Cancellation, by the call's own token or the
shared one, is looked for before dialling and again once logged in. -/
def withSession {α : Type} (config : FtpConfig) (isCancelled : Conversation → Bool) (path : String)
    (exchange : Exchange α) (talk : Conversation) : Except BackendError α × Conversation :=
  if isCancelled talk then (.error (.cancelled path), talk)
  else
    match (dial config).run talk with
    | (.error fault, talk) => (.error (fault.toError path), talk)
    | (.ok (), talk) =>
      if isCancelled talk then (.error (.cancelled path), quit talk)
      else
        let (result, talk) := exchange.run talk
        (result.mapError (FtpFault.toError path), quit talk)

/-- Whether a call looks at the token that the server can cancel. -/
inductive Token where
  | shared
  | cancelled
  | fresh
  deriving DecidableEq, Repr

def Token.isCancelled (token : Token) (talk : Conversation) : Bool :=
  match token with
  | .shared => talk.cancelled
  | .cancelled => true
  | .fresh => false

def listEntries (config : FtpConfig) (now : Int) (token : Token) (path : String)
    (talk : Conversation) : BackendReply × Conversation :=
  let path := Path.normalize path
  let (lines, talk) := withSession config token.isCancelled path (list path) talk
  match lines with
  | .error error => (.failed error, talk)
  | .ok lines =>
    if token.isCancelled talk then (.failed (.cancelled path), talk)
    else
      match ListLine.parseAll now lines with
      | .ok entries => (.entries entries, talk)
      | .error fault => (.panicked fault.message, talk)

def call (config : FtpConfig) (now : Int) (token : Token) (talk : Conversation) :
    BackendCall → BackendReply × Conversation
  | .list path => listEntries config now token path talk
  | .createDirectory path =>
    let (result, talk) := withSession config token.isCancelled path (simple "MKD" path 257) talk
    (.ofUnit result, talk)
  | .createFile path =>
    let (result, talk) := withSession config token.isCancelled path (store path) talk
    (.ofUnit result, talk)
  | .delete path =>
    let (result, talk) := withSession config token.isCancelled path (remove path) talk
    (.ofUnit result, talk)
  | .join base name => (.path (Path.join base name), talk)
  | .root => (.root config.root, talk)
  | .home => (.place (some config.home), talk)
  | .localPath _ => (.place none, talk)

end FtpClient

end DirectoryBrowser
