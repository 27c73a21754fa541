import DirectoryBrowser.Backend.Memory
import DirectoryBrowser.Navigation.Session
import DirectoryBrowser.Status.Workers

/-!
# Rehearsed sessions

A rehearsal runs a session over trees in memory. Listings are held until
they are delivered and status requests until they are let through, so that
every interleaving can be played on purpose. Trees can change, and listings
can be made to fail, while a listing is held.
-/

namespace DirectoryBrowser

/-- A tree with the ways in which its listings misbehave; a failure without an error is a panic,
after which the listing never returns. -/
structure Stage where
  tree : MemoryTree
  rootPath : Option String
  /-- What a path is put behind to lie in the local file system. -/
  localStart : Option String
  honorsCancel : Bool
  failures : Table String (Option BackendError)

namespace Stage

def backend (id : Nat) (stage : Stage) : Backend :=
  { id
    root := { stage.tree.root with path := stage.rootPath.getD stage.tree.root.path }
    home := stage.tree.home
    localPath? := fun path ↦ stage.localStart.map (· ++ path) }

/-- Result of a listing, which a panic does not have. -/
def list? (stage : Stage) (cancelled : Bool) (path : String) :
    Option (Except BackendError (List Entry)) :=
  if stage.honorsCancel && cancelled then some (.error (.cancelled path))
  else
    match stage.failures.find? path with
    | some failure => failure.map .error
    | none => some (stage.tree.list path)

end Stage

structure Rehearsal where
  stages : List Stage
  session : Session
  /-- Answers of the status source by path, the last one for good. -/
  answers : Table String (List SourceAnswer)
  /-- Questions the status source has been asked. -/
  asked : List StatusRequest

namespace Rehearsal

def backends (rehearsal : Rehearsal) : List Backend :=
  rehearsal.stages.zipIdx.map fun (stage, id) ↦ stage.backend id

def updateStage (rehearsal : Rehearsal) (id : Nat) (f : Stage → Stage) : Rehearsal :=
  { rehearsal with stages := rehearsal.stages.modify id f }

/-- A held listing returns and its update is handled. There is no answer when no listing of the
generation is held. -/
def deliver (rehearsal : Rehearsal) (generation : Nat) : Option Nat × Rehearsal :=
  let session := rehearsal.session
  match session.loads.find? (fun load ↦ load.generation == generation) with
  | none => (none, rehearsal)
  | some load =>
    let result :=
      match rehearsal.stages[load.backend.id]? with
      | some stage => stage.list? (session.isCancelled generation) load.path
      | none => none
    match result with
    | some result =>
      let (handled, session) := (session.respond generation result).processUpdates
      (some handled, { rehearsal with session })
    | none =>
      let loads := session.loads.filter (fun load ↦ load.generation != generation)
      (some 0, { rehearsal with session := { session with loads } })

/-- The answer to the next question about a path. -/
def nextAnswer (answers : Table String (List SourceAnswer)) (path : String) :
    SourceAnswer × Table String (List SourceAnswer) :=
  match answers.find? path with
  | none | some [] => (.nothing, answers)
  | some [last] => (last, answers)
  | some (first :: rest) => (first, answers.set path rest)

/-- Lets queued status requests through one after the other, each with the handling of its update. -/
def finishStatus (rehearsal : Rehearsal) : Nat → Nat × Rehearsal
  | 0 => (0, rehearsal)
  | count + 1 =>
    match rehearsal.session.jobs with
    | [] => (0, rehearsal)
    | job :: _ =>
      let (answer, answers) := nextAnswer rehearsal.answers job.key
      let (handled, session) := rehearsal.session.settleStatus answer.result
      let finished := { rehearsal with
        session, answers, asked := rehearsal.asked ++ [⟨job.key, job.isDir⟩] }
      let (others, finished) := finishStatus finished count
      (handled + others, finished)

/-- Applies a user's call to the session. -/
def call (rehearsal : Rehearsal) (f : Session → Bool × Session) : Bool × Rehearsal :=
  let (accepted, session) := f rehearsal.session
  (accepted, { rehearsal with session })

/-- The events and questions since the last call, which are forgotten. -/
def takeNews (rehearsal : Rehearsal) : (List Event × List StatusRequest) × Rehearsal :=
  ((rehearsal.session.trace, rehearsal.asked),
    { rehearsal with asked := [], session := { rehearsal.session with trace := [] } })

end Rehearsal

end DirectoryBrowser
