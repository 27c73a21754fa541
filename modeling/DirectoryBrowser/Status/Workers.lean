import DirectoryBrowser.Status.Record

/-!
# Status workers

A pool of workers drains one queue of requests. A source that panics has
nothing to say about the path it was asked for, and the worker goes on to
the next request.
-/

namespace DirectoryBrowser

/-- What a status source did with one question. -/
inductive SourceAnswer where
  | record (answer : StatusRecord)
  | nothing
  | panicked
  deriving DecidableEq, Repr

def SourceAnswer.result : SourceAnswer → Option StatusRecord
  | .record answer => some answer
  | .nothing | .panicked => none

structure StatusRequest where
  path : String
  isDir : Bool
  deriving DecidableEq, Repr

structure StatusWorkers where
  count : Nat
  queue : List StatusRequest
  deriving DecidableEq, Repr

namespace StatusWorkers

/-- A pool has at least one worker. -/
def spawn (count : Nat) : StatusWorkers := ⟨max count 1, []⟩

def submit (workers : StatusWorkers) (request : StatusRequest) : StatusWorkers :=
  { workers with queue := workers.queue ++ [request] }

/-- Every request is answered exactly once, whichever worker takes it. -/
def drain (workers : StatusWorkers) (source : StatusRequest → SourceAnswer) :
    List (Option StatusRecord) × StatusWorkers :=
  (workers.queue.map fun request ↦ (source request).result, { workers with queue := [] })

end StatusWorkers

end DirectoryBrowser
