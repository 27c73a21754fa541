import DirectoryBrowser.Operation.TreeLayout
import DirectoryBrowser.Table

/-!
# Command line arguments

Arguments are read from left to right, and the first one that is wrong, or
that asks for help or for the version, decides. Options may stand before or
after the command and among its arguments; after a double dash nothing is an
option any more. A value that looks like an option has to be attached to
its option with an equals sign.
-/

namespace DirectoryBrowser

open Text

inductive UsageError where
  | noCommand
  | unknownCommand (name : String)
  | unexpected (argument : String)
  | noValue (option : String)
  | badValue (option value : String)
  | repeated (option : String)
  | missing (argument : String)
  deriving DecidableEq, Repr

def UsageError.message : UsageError → String
  | .noCommand => "a command is required"
  | .unknownCommand name => "unrecognized command '" ++ name ++ "'"
  | .unexpected argument => "unexpected argument '" ++ argument ++ "'"
  | .noValue option => "a value is required for '--" ++ option ++ "'"
  | .badValue option value => "invalid value '" ++ value ++ "' for '--" ++ option ++ "'"
  | .repeated option => "'--" ++ option ++ "' cannot be used more than once"
  | .missing argument => "'" ++ argument ++ "' is required"

/-- Why reading stops before the end. -/
inductive Halt where
  | usage (error : UsageError)
  | help
  | version
  deriving DecidableEq, Repr

inductive OptionKind where
  | flag
  /-- Takes any text. -/
  | text
  /-- Takes a text that is not empty. -/
  | path
  /-- Takes a number of 64 bits. -/
  | count
  | help
  | version
  deriving DecidableEq, Repr

structure CommandOption where
  long : String
  short : Option Char
  kind : OptionKind

/-- What may be given at one level: before the command, or after it. -/
structure Level where
  options : List CommandOption
  /-- Whether the first argument is a command, which ends the level. -/
  hasCommands : Bool
  /-- How many arguments there may be at most. -/
  capacity : Option Nat

structure Given where
  values : Table String String
  arguments : List String

namespace CommandLine

def helpOption : CommandOption := ⟨"help", some 'h', .help⟩

def sharedOptions : List CommandOption :=
  [⟨"config", none, .path⟩, ⟨"log-level", none, .text⟩, ⟨"diagnostics", none, .text⟩, helpOption]

def topLevel : Level :=
  { options := sharedOptions ++ [⟨"version", some 'V', .version⟩]
    hasCommands := true, capacity := some 0 }

def listLevel : Level :=
  { options := sharedOptions ++ [⟨"all", some 'a', .flag⟩], hasCommands := false
    capacity := some 1 }

def removeLevel : Level :=
  { options := sharedOptions, hasCommands := false, capacity := none }

def makeTreeLevel : Level :=
  { options := sharedOptions ++
      [⟨"breadth", none, .count⟩, ⟨"depth", none, .count⟩, ⟨"template", none, .text⟩]
    hasCommands := false, capacity := some 1 }

def accepts (kind : OptionKind) (value : String) : Bool :=
  match kind with
  | .path => !value.isEmpty
  | .count => (unsigned? UInt64.size value.toList).isSome
  | _ => true

def store (given : Given) (option : CommandOption) (value : String) : Except Halt Given :=
  if given.values.contains option.long then .error (.usage (.repeated option.long))
  else if !accepts option.kind value then .error (.usage (.badValue option.long value))
  else .ok { given with values := given.values.set option.long value }

def takesValue (option : CommandOption) : Bool :=
  match option.kind with
  | .text | .path | .count => true
  | .flag | .help | .version => false

/-- An option that needs no value: it is noted, or it ends the reading. -/
def switch (given : Given) (option : CommandOption) : Except Halt Given :=
  match option.kind with
  | .help => .error .help
  | .version => .error .version
  | _ => store given option ""

/-- A long option, with its value if that is attached; one that still waits for its value is
returned. -/
def readLong (level : Level) (given : Given) (argument : List Char) :
    Except Halt (Given × Option CommandOption) :=
  let unexpected := Except.error (.usage (.unexpected ("--" ++ String.ofList argument)))
  let (name, value) :=
    match cutWhere? (· == '=') argument with
    | some (name, value) => (name, some (String.ofList value))
    | none => (argument, none)
  match level.options.find? (·.long == String.ofList name), value with
  | none, _ => unexpected
  | some option, value =>
    match takesValue option, value with
    | true, some value => do return (← store given option value, none)
    | true, none => .ok (given, some option)
    | false, some _ => unexpected
    | false, none => do return (← switch given option, none)

/-- Short options written together. -/
def readShorts (level : Level) (given : Given) : List Char → Except Halt Given
  | [] => .ok given
  | c :: cs =>
    match level.options.find? (·.short == some c) with
    | none => .error (.usage (.unexpected (String.ofList ['-', c])))
    | some option => do readShorts level (← switch given option) cs

def addArgument (level : Level) (given : Given) (argument : String) : Except Halt Given :=
  if level.capacity.any (· ≤ given.arguments.length) then
    .error (.usage (.unexpected argument))
  else .ok { given with arguments := given.arguments ++ [argument] }

/-- Reads a level to its end, or to the command with what follows it. -/
def readLevel (level : Level) (waiting : Option CommandOption) (escaped : Bool) (given : Given) :
    List String → Except Halt (Given × List String)
  | [] =>
    match waiting with
    | some option => .error (.usage (.noValue option.long))
    | none => .ok (given, [])
  | argument :: rest =>
    match waiting with
    | some option =>
      match argument.toList with
      | '-' :: _ :: _ => .error (.usage (.noValue option.long))
      | _ => do readLevel level none escaped (← store given option argument) rest
    | none =>
      if escaped then do
        readLevel level none true (← addArgument level given argument) rest
      else
        match argument.toList with
        | ['-', '-'] => readLevel level none true given rest
        | '-' :: '-' :: long => do
          let (given, waiting) ← readLong level given long
          readLevel level waiting false given rest
        | '-' :: short :: shorts => do
          readLevel level none false (← readShorts level given (short :: shorts)) rest
        | _ =>
          if level.hasCommands then .ok (given, argument :: rest)
          else do readLevel level none false (← addArgument level given argument) rest

end CommandLine

/-! ### Commands -/

inductive Command where
  | list (location : Option String) (all : Bool)
  | remove (location : String) (names : List String)
  | makeTree (location : String) (layout : TreeLayout)
  deriving DecidableEq, Repr

structure Invocation where
  settingsPath : Option String
  command : Command
  deriving DecidableEq, Repr

namespace Command

def ofList (given : Given) : Except Halt Command :=
  .ok (.list given.arguments.head? (given.values.contains "all"))

def ofRemove (given : Given) : Except Halt Command :=
  match given.arguments with
  | [] => .error (.usage (.missing "LOCATION"))
  | [_] => .error (.usage (.missing "NAMES"))
  | location :: names => .ok (.remove location names)

def countOf (given : Given) (option : String) (default : Nat) : Nat :=
  ((given.values.find? option).bind fun value ↦ unsigned? UInt64.size value.toList).getD default

def ofMakeTree (given : Given) : Except Halt Command :=
  match given.arguments.head? with
  | none => .error (.usage (.missing "LOCATION"))
  | some location =>
    .ok (.makeTree location
      { breadth := countOf given "breadth" 2
        depth := countOf given "depth" 2
        template := (given.values.find? "template").getD "dir_{level}_{index}" })

/-- The level and the reading of a command by its name. -/
def named? (name : String) : Option (Level × (Given → Except Halt Command)) :=
  match name with
  | "ls" => some (CommandLine.listLevel, ofList)
  | "rm" => some (CommandLine.removeLevel, ofRemove)
  | "mkdir-tree" => some (CommandLine.makeTreeLevel, ofMakeTree)
  | _ => none

end Command

namespace Invocation

def nothing : Given := ⟨Table.empty, []⟩

/-- Help on the program or on one of its commands. -/
def helpFor : List String → Halt
  | [] => .help
  | [name] =>
    if name == "help" || (Command.named? name).isSome then .help
    else .usage (.unknownCommand name)
  | name :: _ => .usage (.unknownCommand name)

/-- Reads all arguments. An option given on both sides of the command counts as given after it. -/
def parse (arguments : List String) : Except Halt Invocation := do
  let (before, rest) ← CommandLine.readLevel CommandLine.topLevel none false nothing arguments
  match rest with
  | [] => .error (.usage .noCommand)
  | name :: rest =>
    if name == "help" then .error (helpFor rest)
    else
      match Command.named? name with
      | none => .error (.usage (.unknownCommand name))
      | some (level, read) =>
        let (after, _) ← CommandLine.readLevel level none false nothing rest
        return {
          settingsPath := (after.values.find? "config").or (before.values.find? "config")
          command := ← read after }

end Invocation

end DirectoryBrowser
