import DirectoryBrowser.Operation.Progress

/-!
# Operation actions

An action asks one thing after the other of its context: it changes and reports
counters, cancels its own token, looks at it, and at some point comes back. What
it does after a look may depend on what it has seen. Scripts of moves are
actions that can be written down.
-/

namespace DirectoryBrowser

/-- An action from where it stands. -/
inductive Action where
  | ended (ending : Ending)
  | update (f : Progress.Change) (next : Action)
  | cancel (next : Action)
  | look (next : Bool → Action)

namespace Action

def beginItem (item : String) (next : Action) : Action :=
  .update (fun progress ↦
    ({ progress with processing := progress.processing ++ [item] }, false)) next

def endItem (item : String) (f : Progress.Change) (next : Action) : Action :=
  .update (fun progress ↦ f (progress.withoutItem item)) next

def report (progress : Progress) (next : Action) : Action :=
  .update (fun _ ↦ (progress, false)) next

/-- Fails once the token is set. -/
def check (next : Action) : Action :=
  .look fun cancelled ↦ if cancelled then .ended (.failed .cancelled) else next

/-- The world of an action is its cancel token. -/
def perform (running : Running Bool) : Action → Ending × Running Bool
  | .ended ending => (ending, running)
  | .update f next =>
    let (broken, running) := running.change f
    if broken then (.panicked, running) else perform running next
  | .cancel next => perform { running with world := true } next
  | .look next => perform running (next running.world)

end Action

/-- What a change adds to the counters, in the order in which it adds them. -/
structure Increment where
  total : Nat
  done : Nat
  failed : Nat
  skipped : Nat
  deriving DecidableEq, Repr

def Increment.change (increment : Increment) : Progress.Change :=
  Progress.followedBy (Progress.addTotal increment.total)
    (Progress.followedBy (Progress.addDone increment.done)
      (Progress.followedBy (Progress.addFailed increment.failed)
        (Progress.addSkipped increment.skipped)))

inductive Move where
  | update (increment : Increment)
  | beginItem (item : String)
  | endItem (item : String) (increment : Increment)
  | report (progress : Progress)
  | cancel
  /-- Goes on once the operation has been cancelled from outside. -/
  | awaitCancel
  | check
  | panic
  | panicInUpdate
  | fail (error : OperationError)
  deriving DecidableEq, Repr

namespace Action

def ofMoves : List Move → Action
  | [] => .ended .returned
  | move :: moves =>
    match move with
    | .update increment => .update increment.change (ofMoves moves)
    | .beginItem item => .beginItem item (ofMoves moves)
    | .endItem item increment => .endItem item increment.change (ofMoves moves)
    | .report progress => .report progress (ofMoves moves)
    | .cancel | .awaitCancel => .cancel (ofMoves moves)
    | .check => .check (ofMoves moves)
    | .panic => .ended .panicked
    | .panicInUpdate => .update (fun progress ↦ (progress, true)) (ofMoves moves)
    | .fail error => .ended (.failed error)

def run (moves : List Move) : Ending × Running Bool :=
  perform (Running.start false) (ofMoves moves)

end Action

end DirectoryBrowser
