/-!
# Failures

Every part of the program reports what went wrong as a value with one
message. A storage failure names the path it happened on; an operation over
many entries names the entry it stopped at; the application wraps both.
-/

namespace DirectoryBrowser

/-- Failure of the operating system, or of a layer that describes its failures in words. -/
inductive SystemError where
  | code (number : Nat)
  | text (message : String)
  deriving DecidableEq, Repr

namespace SystemError

def noEntry : SystemError := .code 2
def busy : SystemError := .code 16
def alreadyExists : SystemError := .code 17
def notDirectory : SystemError := .code 20
def isDirectory : SystemError := .code 21
def invalidArgument : SystemError := .code 22
def nameTooLong : SystemError := .code 36
def notEmpty : SystemError := .code 39
def linkLoop : SystemError := .code 40
def connectionRefused : SystemError := .code 111
def nulInName : SystemError := .text "file name contained an unexpected NUL byte"
def invalidText : SystemError := .text "stream did not contain valid UTF-8"

def describe : Nat → String
  | 0 => "Success"
  | 1 => "Operation not permitted"
  | 2 => "No such file or directory"
  | 3 => "No such process"
  | 4 => "Interrupted system call"
  | 5 => "Input/output error"
  | 6 => "No such device or address"
  | 7 => "Argument list too long"
  | 8 => "Exec format error"
  | 9 => "Bad file descriptor"
  | 10 => "No child processes"
  | 11 => "Resource temporarily unavailable"
  | 12 => "Cannot allocate memory"
  | 13 => "Permission denied"
  | 14 => "Bad address"
  | 15 => "Block device required"
  | 16 => "Device or resource busy"
  | 17 => "File exists"
  | 18 => "Invalid cross-device link"
  | 19 => "No such device"
  | 20 => "Not a directory"
  | 21 => "Is a directory"
  | 22 => "Invalid argument"
  | 23 => "Too many open files in system"
  | 24 => "Too many open files"
  | 25 => "Inappropriate ioctl for device"
  | 26 => "Text file busy"
  | 27 => "File too large"
  | 28 => "No space left on device"
  | 29 => "Illegal seek"
  | 30 => "Read-only file system"
  | 31 => "Too many links"
  | 32 => "Broken pipe"
  | 33 => "Numerical argument out of domain"
  | 34 => "Numerical result out of range"
  | 35 => "Resource deadlock avoided"
  | 36 => "File name too long"
  | 37 => "No locks available"
  | 38 => "Function not implemented"
  | 39 => "Directory not empty"
  | 40 => "Too many levels of symbolic links"
  | 42 => "No message of desired type"
  | 43 => "Identifier removed"
  | 44 => "Channel number out of range"
  | 45 => "Level 2 not synchronized"
  | 46 => "Level 3 halted"
  | 47 => "Level 3 reset"
  | 48 => "Link number out of range"
  | 49 => "Protocol driver not attached"
  | 50 => "No CSI structure available"
  | 51 => "Level 2 halted"
  | 52 => "Invalid exchange"
  | 53 => "Invalid request descriptor"
  | 54 => "Exchange full"
  | 55 => "No anode"
  | 56 => "Invalid request code"
  | 57 => "Invalid slot"
  | 59 => "Bad font file format"
  | 60 => "Device not a stream"
  | 61 => "No data available"
  | 62 => "Timer expired"
  | 63 => "Out of streams resources"
  | 64 => "Machine is not on the network"
  | 65 => "Package not installed"
  | 66 => "Object is remote"
  | 67 => "Link has been severed"
  | 68 => "Advertise error"
  | 69 => "Srmount error"
  | 70 => "Communication error on send"
  | 71 => "Protocol error"
  | 72 => "Multihop attempted"
  | 73 => "RFS specific error"
  | 74 => "Bad message"
  | 75 => "Value too large for defined data type"
  | 76 => "Name not unique on network"
  | 77 => "File descriptor in bad state"
  | 78 => "Remote address changed"
  | 79 => "Can not access a needed shared library"
  | 80 => "Accessing a corrupted shared library"
  | 81 => ".lib section in a.out corrupted"
  | 82 => "Attempting to link in too many shared libraries"
  | 83 => "Cannot exec a shared library directly"
  | 84 => "Invalid or incomplete multibyte or wide character"
  | 85 => "Interrupted system call should be restarted"
  | 86 => "Streams pipe error"
  | 87 => "Too many users"
  | 88 => "Socket operation on non-socket"
  | 89 => "Destination address required"
  | 90 => "Message too long"
  | 91 => "Protocol wrong type for socket"
  | 92 => "Protocol not available"
  | 93 => "Protocol not supported"
  | 94 => "Socket type not supported"
  | 95 => "Operation not supported"
  | 96 => "Protocol family not supported"
  | 97 => "Address family not supported by protocol"
  | 98 => "Address already in use"
  | 99 => "Cannot assign requested address"
  | 100 => "Network is down"
  | 101 => "Network is unreachable"
  | 102 => "Network dropped connection on reset"
  | 103 => "Software caused connection abort"
  | 104 => "Connection reset by peer"
  | 105 => "No buffer space available"
  | 106 => "Transport endpoint is already connected"
  | 107 => "Transport endpoint is not connected"
  | 108 => "Cannot send after transport endpoint shutdown"
  | 109 => "Too many references: cannot splice"
  | 110 => "Connection timed out"
  | 111 => "Connection refused"
  | 112 => "Host is down"
  | 113 => "No route to host"
  | 114 => "Operation already in progress"
  | 115 => "Operation now in progress"
  | 116 => "Stale file handle"
  | 117 => "Structure needs cleaning"
  | 118 => "Not a XENIX named type file"
  | 119 => "No XENIX semaphores available"
  | 120 => "Is a named type file"
  | 121 => "Remote I/O error"
  | 122 => "Disk quota exceeded"
  | 123 => "No medium found"
  | 124 => "Wrong medium type"
  | 125 => "Operation canceled"
  | 126 => "Required key not available"
  | 127 => "Key has expired"
  | 128 => "Key has been revoked"
  | 129 => "Key was rejected by service"
  | 130 => "Owner died"
  | 131 => "State not recoverable"
  | 132 => "Operation not possible due to RF-kill"
  | 133 => "Memory page has hardware error"
  | n => "Unknown error " ++ toString n

def message : SystemError → String
  | .code n => describe n ++ " (os error " ++ toString n ++ ")"
  | .text message => message

end SystemError

/-- Failure of a storage backend, with the path it was addressed to. -/
inductive BackendError where
  | io (path : String) (source : SystemError)
  | connection (path message : String)
  | auth (path message : String)
  | notFound (path : String)
  | permissionDenied (path : String)
  | notSupported (path operation : String)
  | http (path message : String)
  | cancelled (path : String)
  | other (path message : String)
  deriving DecidableEq, Repr

namespace BackendError

/-- Missing entries and missing rights have constructors of their own, since callers tell them
from the rest. -/
def ofSystem (path : String) (source : SystemError) : BackendError :=
  match source with
  | .code 2 => .notFound path
  | .code 1 | .code 13 => .permissionDenied path
  | source => .io path source

def path : BackendError → String
  | .io path _ | .connection path _ | .auth path _ | .notFound path | .permissionDenied path
  | .notSupported path _ | .http path _ | .cancelled path | .other path _ => path

def message : BackendError → String
  | .io path source => path ++ ": " ++ source.message
  | .connection path message => path ++ ": connection error: " ++ message
  | .auth path message => path ++ ": authentication failed: " ++ message
  | .notFound path => path ++ ": not found"
  | .permissionDenied path => path ++ ": permission denied"
  | .notSupported path operation =>
    path ++ ": " ++ operation ++ " is not supported by this backend"
  | .http path message => path ++ ": HTTP error: " ++ message
  | .cancelled path => path ++ ": cancelled"
  | .other path message => path ++ ": " ++ message

def isCancelled : BackendError → Bool
  | .cancelled _ => true
  | _ => false

def kindName : BackendError → String
  | .io .. => "Io"
  | .connection .. => "Connection"
  | .auth .. => "Auth"
  | .notFound .. => "NotFound"
  | .permissionDenied .. => "PermissionDenied"
  | .notSupported .. => "NotSupported"
  | .http .. => "Http"
  | .cancelled .. => "Cancelled"
  | .other .. => "Other"

end BackendError

/-- Why an operation over many entries did not complete. -/
inductive OperationError where
  | entry (path : String) (source : BackendError)
  | invalid (reason : String)
  | cancelled
  | aborted
  deriving DecidableEq, Repr

namespace OperationError

def message : OperationError → String
  | .entry path source => path ++ ": " ++ source.message
  | .invalid reason => "invalid operation: " ++ reason
  | .cancelled => "operation cancelled"
  | .aborted => "operation thread terminated unexpectedly"

def kindName : OperationError → String
  | .entry .. => "Entry"
  | .invalid _ => "Invalid"
  | .cancelled => "Cancelled"
  | .aborted => "Aborted"

end OperationError

inductive AppError where
  | io (source : SystemError)
  | backend (source : BackendError)
  | config (reason : String)
  | location (place reason : String)
  | stateStore (reason : String)
  | operation (source : OperationError)
  deriving DecidableEq, Repr

namespace AppError

def message : AppError → String
  | .io source => "I/O error: " ++ source.message
  | .backend source => "Backend error: " ++ source.message
  | .config reason => "Configuration error: " ++ reason
  | .location place reason => "Invalid location '" ++ place ++ "': " ++ reason
  | .stateStore reason => "State store error: " ++ reason
  | .operation source => source.message

def kindName : AppError → String
  | .io _ => "Io"
  | .backend _ => "Backend"
  | .config _ => "Config"
  | .location .. => "Location"
  | .stateStore _ => "StateStore"
  | .operation _ => "Operation"

end AppError

end DirectoryBrowser
