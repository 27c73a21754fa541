import DirectoryBrowser.Operation.TreeLayout
import DirectoryBrowser.Path

/-!
# Tree generation

A tree is created level by level. A directory that cannot be created takes
everything below it along, counted as skipped, while its siblings go on; the
first error is the one that is reported. The directories of a level are shared
out among the processors. Where there is one, it creates them in order, and a
panic fails all of them.
-/

namespace DirectoryBrowser.Generate

variable {σ : Type}

/-- Directories of a level, parents in order and indexes in order below each. -/
def workOf (layout : TreeLayout) (level : Nat) (parents : List String) : List String :=
  parents.flatMap fun parent ↦
    (List.range layout.breadth).map fun i ↦ Path.join parent (layout.name level (i + 1))

def countCreated (created : Bool) (progress : Progress) : Progress :=
  if created then { progress with done := progress.done + 1 } else progress

def isCreated : Except BackendError Unit → Bool
  | .ok _ => true
  | .error _ => false

/-- Creates the directories of a level in order. A panic has no results. -/
def createPaths (workplace : Workplace σ) (running : Running σ) :
    List String → Option (List (Except BackendError Unit)) × Running σ
  | [] => (some [], running)
  | path :: paths =>
    let (cancelled, running) := running.poll workplace
    if cancelled then
      let (results, running) := createPaths workplace running paths
      (results.map (.error (.cancelled path) :: ·), running)
    else
      let (result, running) := (running.beginItem path).act workplace path
      match result with
      | none => (none, running)
      | some result =>
        let running := running.endItem path (countCreated (isCreated result))
        let (results, running) := createPaths workplace running paths
        (results.map (result :: ·), running)

def createLevel (workplace : Workplace σ) (running : Running σ) (work : List String) :
    List (Except BackendError Unit) × Running σ :=
  let (results, running) := createPaths workplace running work
  (results.getD (work.map fun path ↦ .error (.other path "worker thread panicked")), running)

/-- What a level leaves behind: the parents of the next one, the first error so far, and whether
counting the failures broke off. -/
structure Tally (σ : Type) where
  running : Running σ
  parents : List String
  firstError : Option OperationError
  broken : Bool

/-- Every failed directory counts once, and the size of what would have been below it is skipped. -/
def tally (below : Nat) (running : Running σ) (firstError : Option OperationError) :
    List (String × Except BackendError Unit) → Tally σ
  | [] => ⟨running, [], firstError, false⟩
  | (path, .ok ()) :: rest =>
    let counted := tally below running firstError rest
    { counted with parents := path :: counted.parents }
  | (path, .error error) :: rest =>
    let (broken, running) :=
      running.change (Progress.followedBy (Progress.addFailed 1) (Progress.addSkipped below))
    if broken then ⟨running, [], firstError, true⟩
    else tally below running (firstError.or (some (.entry path error))) rest

def endingOf : Option OperationError → Ending
  | none => .returned
  | some error => .failed error

/-- How the directories of a level are created, by the number of levels below it. -/
abbrev LevelRunner (σ : Type) :=
  Nat → Running σ → List String → List (Except BackendError Unit) × Running σ

/-- Creates the levels that remain, of which the next one has the parents given. -/
def createLevels (createLevel : LevelRunner σ) (workplace : Workplace σ) (layout : TreeLayout)
    (running : Running σ) (parents : List String) (firstError : Option OperationError) :
    Nat → Ending × Running σ
  | 0 => (endingOf firstError, running)
  | remaining + 1 =>
    let (cancelled, running) := running.poll workplace
    if cancelled then (.failed .cancelled, running)
    else
      let work := workOf layout (layout.depth - remaining) parents
      if work.isEmpty then (endingOf firstError, running)
      else
        let (results, running) := createLevel remaining running work
        let (cancelled, running) := running.poll workplace
        if cancelled then (.failed .cancelled, running)
        else
          let counted := tally (layout.subtreeSize remaining) running firstError (work.zip results)
          if counted.broken then (.panicked, counted.running)
          else
            createLevels createLevel workplace layout counted.running counted.parents
              counted.firstError remaining

/-- Nothing has been created, and all that is to be created is announced. -/
def announced (layout : TreeLayout) (world : σ) : Running σ :=
  (Running.start world).update fun progress ↦ { progress with total := layout.total }

def runWith (createLevel : LevelRunner σ) (workplace : Workplace σ) (world : σ) (root : String)
    (layout : TreeLayout) : Ending × Running σ :=
  match layout.validate with
  | .error error => (.failed error, .start world)
  | .ok () =>
    createLevels createLevel workplace layout (announced layout world) [root] none layout.depth

/-- Where there is one processor, the directories of a level are created one after the other. -/
def run (workplace : Workplace σ) (world : σ) (root : String) (layout : TreeLayout) :
    Ending × Running σ :=
  runWith (fun _ ↦ createLevel workplace) workplace world root layout

end DirectoryBrowser.Generate
