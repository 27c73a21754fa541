import DirectoryBrowser.Failure

/-!
# Operation progress

An operation counts what it has done and names what it is working on. Every
change of its counters is reported, and the report of how it ended comes
last and once. An action that breaks off in the middle of a change leaves
the change half made, without a report of its own.

An addition breaks off where its counter gives out. That is how a build with
overflow checks behaves, and such a build is what is described here; without
the checks the counter wraps around and the action goes on.
-/

namespace DirectoryBrowser

inductive OperationKind where
  | delete
  | generateTree
  deriving DecidableEq, Repr

def OperationKind.label : OperationKind → String
  | .delete => "delete"
  | .generateTree => "generate tree"

structure Progress where
  total : Nat
  done : Nat
  failed : Nat
  skipped : Nat
  /-- Items being worked on, in the order in which they were begun. -/
  processing : List String
  deriving DecidableEq, Repr

inductive Outcome where
  | completed
  | failed (error : OperationError)
  | cancelled
  deriving DecidableEq, Repr

inductive OperationEvent where
  | progress (progress : Progress)
  | finished (outcome : Outcome)
  deriving DecidableEq, Repr

/-- How an action comes back. -/
inductive Ending where
  | returned
  | failed (error : OperationError)
  | panicked
  deriving DecidableEq, Repr

namespace Outcome

def isCompleted : Outcome → Bool
  | .completed => true
  | _ => false

def ofEnding : Ending → Outcome
  | .returned => .completed
  | .failed .cancelled => .cancelled
  | .failed error => .failed error
  | .panicked => .failed .aborted

end Outcome

namespace Progress

def zero : Progress := ⟨0, 0, 0, 0, []⟩

/-- The first counter that no longer fits. -/
def limit : Nat := UInt64.size

/-- A change of the counters, and whether it broke off before it was complete. -/
abbrev Change := Progress → Progress × Bool

def unchanged : Change := fun progress ↦ (progress, false)

def addDone (n : Nat) : Change := fun progress ↦
  if progress.done + n < limit then ({ progress with done := progress.done + n }, false)
  else (progress, true)

def addTotal (n : Nat) : Change := fun progress ↦
  if progress.total + n < limit then ({ progress with total := progress.total + n }, false)
  else (progress, true)

def addFailed (n : Nat) : Change := fun progress ↦
  if progress.failed + n < limit then ({ progress with failed := progress.failed + n }, false)
  else (progress, true)

def addSkipped (n : Nat) : Change := fun progress ↦
  if progress.skipped + n < limit then ({ progress with skipped := progress.skipped + n }, false)
  else (progress, true)

def followedBy (first second : Change) : Change := fun progress ↦
  let (progress, broken) := first progress
  if broken then (progress, true) else second progress

def withoutItem (item : String) (progress : Progress) : Progress :=
  { progress with processing := progress.processing.erase item }

/-- The item that failed is counted, and so is everything that will not be tried because of it.
What has been done and what has failed must not be more than there is to do. -/
def skipRest : Change := fun progress ↦
  let failed := progress.failed + 1
  if progress.done + failed ≤ progress.total then
    ({ progress with failed, skipped := progress.total - progress.done - failed }, false)
  else ({ progress with failed }, true)

end Progress

/-- An operation under way: its counters, the reports so far, and the world it works on. -/
structure Running (σ : Type) where
  progress : Progress
  reports : List Progress
  world : σ

/-- The world an operation works on: what it does to one path, and whether it has been asked to
stop by the time it looks. -/
structure Workplace (σ : Type) where
  act : String → σ → Option (Except BackendError Unit) × σ
  poll : σ → Bool × σ

namespace Running

variable {σ : Type}

def start (world : σ) : Running σ := ⟨Progress.zero, [], world⟩

/-- Applies a change and reports it, unless it broke off. -/
def change (running : Running σ) (f : Progress.Change) : Bool × Running σ :=
  let (progress, broken) := f running.progress
  if broken then (true, { running with progress })
  else (false, { running with progress, reports := running.reports ++ [progress] })

def update (running : Running σ) (f : Progress → Progress) : Running σ :=
  (running.change fun progress ↦ (f progress, false)).2

def beginItem (running : Running σ) (item : String) : Running σ :=
  running.update fun progress ↦ { progress with processing := progress.processing ++ [item] }

def endItem (running : Running σ) (item : String) (f : Progress → Progress) : Running σ :=
  running.update fun progress ↦ f (progress.withoutItem item)

def poll (running : Running σ) (workplace : Workplace σ) : Bool × Running σ :=
  let (cancelled, world) := workplace.poll running.world
  (cancelled, { running with world })

/-- Acts on a path; a panic has no result. -/
def act (running : Running σ) (workplace : Workplace σ) (path : String) :
    Option (Except BackendError Unit) × Running σ :=
  let (result, world) := workplace.act path running.world
  (result, { running with world })

/-- Everything the sink of an operation is told. -/
def events (running : Running σ) (ending : Ending) : List OperationEvent :=
  running.reports.map .progress ++ [.finished (Outcome.ofEnding ending)]

end Running

end DirectoryBrowser
