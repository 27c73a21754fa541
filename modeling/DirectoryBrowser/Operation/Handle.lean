import DirectoryBrowser.Operation.Action

/-!
# Operations in the background

An operation runs its action on a thread of its own, and whoever has started it
holds a handle. Counters are changed behind a lock, and the sink is told after
the lock has been given back, so that somebody else may come in between. A panic
in the middle of a change poisons the lock, which keeps nobody out. Once the
action has come back, however it did, the thread tells the sink how, raises a
flag for the handle, and hands over the outcome.
-/

namespace DirectoryBrowser

/-- A value behind a lock, which remembers a panic of somebody who held it. -/
structure Lock (α : Type) where
  content : α
  poisoned : Bool

namespace Lock

variable {α : Type}

/-- Whoever takes a poisoned lock is told so, with what is behind it. -/
def acquire (lock : Lock α) : Except α α :=
  if lock.poisoned then .error lock.content else .ok lock.content

/-- What is behind the lock, whether or not it is whole. -/
def enter (lock : Lock α) : α :=
  match lock.acquire with
  | .ok content | .error content => content

end Lock

/-- How far the thread of an operation is. -/
inductive Operation.Stage where
  | acting (action : Action)
  /-- The counters have been changed, and the sink is still to be told. -/
  | reporting (progress : Progress) (next : Action)
  | ended (ending : Ending)
  | told (outcome : Outcome)
  | flagged (outcome : Outcome)
  | gone

structure Operation where
  stage : Operation.Stage
  cancelled : Bool
  counters : Lock Progress
  /-- What the sink has been told so far. -/
  events : List OperationEvent
  finished : Bool
  /-- The outcome on its way to the handle. -/
  sent : Option Outcome

namespace Operation

def start (action : Action) : Operation :=
  ⟨.acting action, false, ⟨Progress.zero, false⟩, [], false, none⟩

def tell (operation : Operation) (event : OperationEvent) : Operation :=
  { operation with events := operation.events ++ [event] }

/-- Changes the counters behind their lock. The thread of a change that breaks off unwinds. -/
def change (operation : Operation) (f : Progress.Change) (next : Action) : Operation :=
  let (progress, broken) := f operation.counters.enter
  if broken then { operation with counters := ⟨progress, true⟩, stage := .ended .panicked }
  else
    { operation with
      counters := { operation.counters with content := progress }
      stage := .reporting progress next }

/-- One step of the thread. -/
def advance (operation : Operation) : Operation :=
  match operation.stage with
  | .acting (.ended ending) => { operation with stage := .ended ending }
  | .acting (.update f next) => operation.change f next
  | .acting (.cancel next) => { operation with cancelled := true, stage := .acting next }
  | .acting (.look next) => { operation with stage := .acting (next operation.cancelled) }
  | .reporting progress next => { operation.tell (.progress progress) with stage := .acting next }
  | .ended ending =>
    let outcome := Outcome.ofEnding ending
    { operation.tell (.finished outcome) with stage := .told outcome }
  | .told outcome => { operation with finished := true, stage := .flagged outcome }
  | .flagged outcome => { operation with sent := some outcome, stage := .gone }
  | .gone => operation

/-- What happens next: a step of the thread, or something that is done with the handle. -/
inductive Turn where
  | thread
  | cancel
  | drop
  deriving DecidableEq, Repr

/-- A handle that is dropped cancels an operation that still goes on. -/
def turn (operation : Operation) : Turn → Operation
  | .thread => operation.advance
  | .cancel => { operation with cancelled := true }
  | .drop => if operation.finished then operation else { operation with cancelled := true }

def after (action : Action) (schedule : List Turn) : Operation :=
  schedule.foldl turn (start action)

/-- The counters as the handle shows them. -/
def progress (operation : Operation) : Progress := operation.counters.enter

/-- What waiting for the operation gives, once it gives something. A thread that is gone without
having sent its outcome has been aborted. -/
def outcome? (operation : Operation) : Option Outcome :=
  match operation.sent, operation.stage with
  | some outcome, _ => some outcome
  | none, .gone => some (.failed .aborted)
  | none, _ => none

end Operation

end DirectoryBrowser
