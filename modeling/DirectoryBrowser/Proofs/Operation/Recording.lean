import DirectoryBrowser.Operation.Crew

/-!
# Recording what an operation does

An operation shows its counters, but not which calls it has made. A recorded
workplace works as before and writes down each call with the world in which it
was made. Since an operation sees of the world only what the workplace tells,
recording changes neither its course nor its counters.
-/

namespace DirectoryBrowser

/-- A call as it was made; a panic has no result. -/
structure WorkCall (σ : Type) where
  path : String
  result : Option (Except BackendError Unit)
  before : σ
  after : σ

namespace WorkCall

variable {σ : Type}

def succeeded (call : WorkCall σ) : Bool :=
  match call.result with
  | some (.ok ()) => true
  | some (.error _) | none => false

def failed (call : WorkCall σ) : Bool :=
  match call.result with
  | some (.error _) => true
  | some (.ok ()) | none => false

end WorkCall

namespace Workplace

variable {σ τ : Type}

def recorded (workplace : Workplace σ) : Workplace (σ × List (WorkCall σ)) where
  act path world :=
    let (result, after) := workplace.act path world.1
    (result, after, world.2 ++ [⟨path, result, world.1, after⟩])
  poll world :=
    let (cancelled, after) := workplace.poll world.1
    (cancelled, after, world.2)

/-- What can be seen of the one workplace is what can be seen of the other. -/
structure Projects (workplace : Workplace τ) (image : Workplace σ) (project : τ → σ) : Prop where
  act : ∀ path world, image.act path (project world) =
    ((workplace.act path world).1, project (workplace.act path world).2)
  poll : ∀ world, image.poll (project world) =
    ((workplace.poll world).1, project (workplace.poll world).2)

theorem recorded_projects (workplace : Workplace σ) :
    workplace.recorded.Projects workplace Prod.fst where
  act _ _ := rfl
  poll _ := rfl

/-- The token of an operation: once it is set it stays set, and a look at it tells how it is at
that moment, to which the world may have moved on. What sets it after a look that has shown it
unset comes, as far as the operation can tell, during the next call. -/
structure IsToken (workplace : Workplace σ) (isSet : σ → Prop) : Prop where
  poll_eq_true_iff : ∀ world, (workplace.poll world).1 = true ↔ isSet (workplace.poll world).2
  poll : ∀ world, isSet world → isSet (workplace.poll world).2
  act : ∀ path world, isSet world → isSet (workplace.act path world).2

theorem IsToken.not_isSet_of_poll {workplace : Workplace σ} {isSet : σ → Prop}
    (h : workplace.IsToken isSet) {world : σ} (hpoll : (workplace.poll world).1 = false) :
    ¬ isSet (workplace.poll world).2 :=
  mt (h.poll_eq_true_iff world).mpr (ne_true_of_eq_false hpoll)

/-- Directories can be created unless they are refused, and nobody cancels. -/
def refusing (refuses : String → Bool) : Workplace Bool where
  act path cancelled :=
    (some (if refuses path then .error (.permissionDenied path) else .ok ()), cancelled)
  poll cancelled := (cancelled, cancelled)

theorem refusing_isToken (refuses : String → Bool) :
    (refusing refuses).IsToken fun cancelled ↦ cancelled = true where
  poll_eq_true_iff _ := Iff.rfl
  poll _ hset := hset
  act _ _ hset := hset

theorem refusing_act_ne_none (refuses : String → Bool) (path : String) (cancelled : Bool) :
    ((refusing refuses).act path cancelled).1 ≠ none :=
  Option.some_ne_none _

end Workplace

/-- A running operation whose calls are written down. -/
abbrev Recorded (σ : Type) : Type := Running (σ × List (WorkCall σ))

namespace Running

section Calls

variable {σ : Type} (running : Recorded σ)

def calls : List (WorkCall σ) := running.world.2

def created : Nat := running.calls.countP WorkCall.succeeded

def refused : Nat := running.calls.countP WorkCall.failed

theorem calls_act (workplace : Workplace σ) (path : String) :
    (running.act workplace.recorded path).2.calls = running.calls ++
      [⟨path, (running.act workplace.recorded path).1, running.world.1,
        (running.act workplace.recorded path).2.world.1⟩] := rfl

end Calls

variable {σ τ : Type} (project : τ → σ) (running : Running τ)

def map : Running σ :=
  ⟨running.progress, running.reports, project running.world⟩

theorem map_change (f : Progress.Change) :
    (running.map project).change f = ((running.change f).1, (running.change f).2.map project) := by
  unfold change map
  dsimp only
  split
  · rfl
  · rfl

variable {workplace : Workplace τ} {image : Workplace σ} {project}

theorem map_poll (h : workplace.Projects image project) :
    (running.map project).poll image =
      ((running.poll workplace).1, (running.poll workplace).2.map project) := by
  unfold poll map
  rw [h.poll]

theorem map_act (h : workplace.Projects image project) (path : String) :
    (running.map project).act image path =
      ((running.act workplace path).1, (running.act workplace path).2.map project) := by
  unfold act map
  rw [h.act]

end Running

namespace Generate

variable {σ τ : Type} {project : τ → σ} {workplace : Workplace τ} {image : Workplace σ}

theorem Worker.step_map (h : workplace.Projects image project) (worker : Worker)
    (running : Running τ) : worker.step image (running.map project) =
      ((worker.step workplace running).1, (worker.step workplace running).2.map project) := by
  unfold Worker.step
  split
  · split
    · rfl
    · rw [running.map_poll h]
      dsimp only
      split
      · rfl
      · rfl
  · rfl
  · rw [running.map_act h]
    dsimp only
    split
    · rfl
    · rfl
  · rfl

theorem turn_map (h : workplace.Projects image project) (crew : List Worker)
    (running : Running τ) (index : Nat) : turn image (crew, running.map project) index =
      ((turn workplace (crew, running) index).1,
        (turn workplace (crew, running) index).2.map project) := by
  unfold turn
  dsimp only
  split
  · rfl
  · rw [Worker.step_map h]

theorem turns_map (h : workplace.Projects image project) (crew : List Worker)
    (running : Running τ) (schedule : List Nat) :
    schedule.foldl (turn image) (crew, running.map project) =
      ((schedule.foldl (turn workplace) (crew, running)).1,
        (schedule.foldl (turn workplace) (crew, running)).2.map project) := by
  induction schedule generalizing crew running with
  | nil => rfl
  | cons index schedule ih =>
    rw [List.foldl_cons, turn_map h, ih]
    rfl

theorem createShares_map (h : workplace.Projects image project) (processors : Nat)
    (schedule : List Nat) (running : Running τ) (work : List String) :
    createShares processors schedule image (running.map project) work =
      ((createShares processors schedule workplace running work).1,
        (createShares processors schedule workplace running work).2.map project) := by
  unfold createShares
  dsimp only
  rw [turns_map h]

theorem tally_map (below : Nat) (running : Running τ) (firstError : Option OperationError)
    (outcomes : List (String × Except BackendError Unit)) :
    tally below (running.map project) firstError outcomes =
      { running := (tally below running firstError outcomes).running.map project
        parents := (tally below running firstError outcomes).parents
        firstError := (tally below running firstError outcomes).firstError
        broken := (tally below running firstError outcomes).broken } := by
  induction outcomes generalizing running firstError with
  | nil => rfl
  | cons outcome outcomes ih =>
    obtain ⟨path, result⟩ := outcome
    cases result with
    | ok _ => simp only [tally, ih]
    | error error =>
      simp only [tally, Running.map_change]
      split
      · rfl
      · exact ih ..

theorem createLevels_map (h : workplace.Projects image project)
    {createLevel : LevelRunner τ} {createImage : LevelRunner σ}
    (hlevel : ∀ remaining running work, createImage remaining (running.map project) work =
      ((createLevel remaining running work).1, (createLevel remaining running work).2.map project))
    (layout : TreeLayout) (running : Running τ) (parents : List String)
    (firstError : Option OperationError) (remaining : Nat) :
    createLevels createImage image layout (running.map project) parents firstError remaining =
      ((createLevels createLevel workplace layout running parents firstError remaining).1,
        (createLevels createLevel workplace layout running parents firstError remaining).2.map
          project) := by
  induction remaining generalizing running parents firstError with
  | zero => rfl
  | succ remaining ih =>
    unfold createLevels
    rw [running.map_poll h]
    dsimp only
    split
    · rfl
    · split
      · rfl
      · rw [hlevel]
        dsimp only
        rw [Running.map_poll _ h]
        dsimp only
        split
        · rfl
        · rw [tally_map]
          dsimp only
          split
          · rfl
          · exact ih ..

/-- Recording changes nothing. -/
theorem runOn_recorded (processors : Nat) (schedule : Nat → List Nat) (workplace : Workplace σ)
    (world : σ) (root : String) (layout : TreeLayout) :
    runOn processors schedule workplace world root layout =
      ((runOn processors schedule workplace.recorded (world, []) root layout).1,
        (runOn processors schedule workplace.recorded (world, []) root layout).2.map Prod.fst) := by
  have hprojects := workplace.recorded_projects
  unfold runOn runWith
  split
  · rfl
  · exact createLevels_map hprojects (fun remaining running work ↦
      createShares_map hprojects processors (schedule remaining) running work) layout
      (announced layout (world, [])) _ _ _

end Generate

end DirectoryBrowser
