import DirectoryBrowser.Table
import DirectoryBrowser.Text.Utf8

/-!
# FTP conversations

The server of a conversation answers each command line by its first word,
either in its usual way or with a reply given for that word. It keeps a log
of the commands. What it has sent waits, line by line, until the client
reads it, so that a reply too many is taken for the next one.
-/

namespace DirectoryBrowser

open Text

inductive ServerReply where
  | text (reply : String)
  /-- The connection is closed without a reply. -/
  | close
  deriving DecidableEq, Repr

structure FtpServer where
  /-- Nobody listens. -/
  isDown : Bool
  replies : Table String ServerReply
  listing : String
  /-- The command at whose arrival the operation is cancelled. -/
  cancelOn : Option String

structure Conversation where
  server : FtpServer
  log : List String
  cancelled : Bool
  incoming : List (List Char)
  isClosed : Bool
  /-- Text on the data connection, while there is one. -/
  data : Option (List Char)

namespace Conversation

def start (server : FtpServer) : Conversation :=
  ⟨server, [], false, [], false, none⟩

/-- Lines of what goes over the wire, each with its end. -/
def wireLines : List Char → List (List Char)
  | [] => []
  | c :: cs =>
    if c == '\n' then ['\n'] :: wireLines cs
    else
      match wireLines cs with
      | [] => [[c]]
      | line :: lines => (c :: line) :: lines

def send (talk : Conversation) (reply : String) : Conversation :=
  { talk with incoming := talk.incoming ++ wireLines (reply.toList ++ ['\r', '\n']) }

def note (talk : Conversation) (line : String) : Conversation :=
  { talk with log := talk.log ++ [line] }

def close (talk : Conversation) : Conversation := { talk with isClosed := true }

/-- Replies to a word, and goes on with `next` unless the reply was given from outside. -/
def reply (talk : Conversation) (word usual : String) (next : Conversation → Conversation) :
    Conversation :=
  match talk.server.replies.find? word with
  | some (.text text) => talk.send text
  | some .close => talk.close
  | none => next (talk.send usual)

def finishTransfer (talk : Conversation) : Conversation :=
  talk.reply "DONE" "226 done" id

def sendListing (talk : Conversation) : Conversation :=
  { talk with data := some talk.server.listing.toList }.finishTransfer

/-- An upload is always empty. -/
def storeFile (talk : Conversation) : Conversation :=
  ({ talk with data := some [] }.note "<0 bytes>").finishTransfer

def wordOf (line : List Char) : String :=
  String.ofList (line.takeWhile (· != ' '))

/-- The usual reply to a word, which for an open passive port only the server can tell. -/
def usualReply : String → String
  | "USER" => "331 password please"
  | "PASS" => "230 logged in"
  | "TYPE" => "200 ok"
  | "PASV" => "227 passive"
  | "LIST" | "STOR" => "150 here it comes"
  | "MKD" => "257 created"
  | "DELE" => "250 deleted"
  | "RMD" => "250 removed"
  | "QUIT" => "221 bye"
  | _ => "502 not implemented"

def openPort (talk : Conversation) : Conversation := { talk with data := some [] }

/-- One command line arrives. -/
def receive (talk : Conversation) (line : List Char) : Conversation :=
  if talk.isClosed then talk
  else
    let word := wordOf line
    let talk := talk.note (String.ofList line)
    let talk := if talk.server.cancelOn = some word then { talk with cancelled := true } else talk
    let next : Conversation → Conversation :=
      match word with
      | "PASV" => openPort
      | "LIST" => sendListing
      | "STOR" => storeFile
      | "QUIT" => close
      | _ => id
    talk.reply word (usualReply word) next

/-- Everything a client writes arrives line by line. -/
def deliver (talk : Conversation) (text : String) : Conversation :=
  (wireLines text.toList).foldl (fun talk line ↦
    talk.receive (dropTrailing (fun c ↦ c == '\r' || c == '\n') line)) talk

def accept (talk : Conversation) : Conversation :=
  { talk with incoming := [], isClosed := false, data := none }.reply "CONNECT" "220 ready" id

/-- The next line, which is empty once the connection is closed. -/
def readLine (talk : Conversation) : List Char × Conversation :=
  match talk.incoming with
  | [] => ([], talk)
  | line :: lines => (line, { talk with incoming := lines })

end Conversation

end DirectoryBrowser
