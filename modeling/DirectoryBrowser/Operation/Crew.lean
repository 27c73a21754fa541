import DirectoryBrowser.Operation.Generate

/-!
# Crews

With several processors the directories of a level are cut into shares of one
size, and every share has a worker of its own. A worker looks at the token,
names the directory it is at, creates it, and takes its name off again; between
any two of these steps other workers may come in. The results are put together
in the order of the shares, whichever worker was first, and a worker that
panics fails its share. The reports stand in the order in which the counters
were changed.
-/

namespace DirectoryBrowser.Generate

variable {σ : Type}

/-- How far a worker is with a directory. -/
inductive Phase where
  | free
  /-- The operation had not been cancelled. -/
  | cleared (path : String)
  | begun (path : String)
  | answered (path : String) (result : Except BackendError Unit)

structure Worker where
  share : List String
  waiting : List String
  phase : Phase
  results : List (Except BackendError Unit)
  panicked : Bool

namespace Worker

def ofShare (share : List String) : Worker := ⟨share, share, .free, [], false⟩

def step (workplace : Workplace σ) (worker : Worker) (running : Running σ) :
    Worker × Running σ :=
  match worker.phase with
  | .free =>
    match worker.waiting with
    | [] => (worker, running)
    | path :: waiting =>
      let (cancelled, running) := running.poll workplace
      if cancelled then
        ({ worker with waiting, results := worker.results ++ [.error (.cancelled path)] }, running)
      else ({ worker with waiting, phase := .cleared path }, running)
  | .cleared path => ({ worker with phase := .begun path }, running.beginItem path)
  | .begun path =>
    let (result, running) := running.act workplace path
    match result with
    | none => ({ worker with waiting := [], phase := .free, panicked := true }, running)
    | some result => ({ worker with phase := .answered path result }, running)
  | .answered path result =>
    ({ worker with phase := .free, results := worker.results ++ [result] },
      running.endItem path (countCreated (isCreated result)))

def outcome (worker : Worker) : List (Except BackendError Unit) :=
  if worker.panicked then
    worker.share.map fun path ↦ .error (.other path "worker thread panicked")
  else worker.results

end Worker

/-- Consecutive pieces of one size, of which the last may be shorter. -/
def shares (size : Nat) (work : List String) : List (List String) :=
  match work with
  | [] => []
  | path :: paths => (path :: paths.take (size - 1)) :: shares size (paths.drop (size - 1))
termination_by work.length

/-- One worker takes a step. -/
def turn (workplace : Workplace σ) (crew : List Worker × Running σ) (index : Nat) :
    List Worker × Running σ :=
  match crew.1[index]? with
  | none => crew
  | some worker =>
    let (worker, running) := worker.step workplace crew.2
    (crew.1.set index worker, running)

/-- Every directory takes four steps at most, so after these turns all workers are finished. -/
def closing (crew : List Worker) : List Nat :=
  crew.zipIdx.flatMap fun (worker, index) ↦ List.replicate (4 * worker.share.length) index

/-- The workers take turns as scheduled, and then one after the other until all are finished. -/
def createShares (processors : Nat) (schedule : List Nat) (workplace : Workplace σ)
    (running : Running σ) (work : List String) : List (Except BackendError Unit) × Running σ :=
  let size := (work.length + (processors - 1)) / max processors 1
  let crew := (shares size work).map Worker.ofShare
  let (crew, running) := (schedule ++ closing crew).foldl (turn workplace) (crew, running)
  (crew.flatMap Worker.outcome, running)

/-- Generation on a number of processors, with a schedule for each level. -/
def runOn (processors : Nat) (schedule : Nat → List Nat) (workplace : Workplace σ) (world : σ)
    (root : String) (layout : TreeLayout) : Ending × Running σ :=
  runWith (fun remaining ↦ createShares processors (schedule remaining) workplace) workplace world
    root layout

end DirectoryBrowser.Generate
