import DirectoryBrowser.Proofs.Operation.Crews

/-!
# A crew of one

With one processor a level is one share, and the turns of the others are
nobody's. Whenever the only worker gets its turns, what it will come back with
is what creating the directories in order comes back with.
-/

namespace DirectoryBrowser.Generate

variable {σ : Type}

/-- The results of a level of which one directory is being created. -/
def createRest (workplace : Workplace σ) (running : Running σ) (path : String)
    (paths : List String) : Option (List (Except BackendError Unit)) × Running σ :=
  let (result, running) := running.act workplace path
  match result with
  | none => (none, running)
  | some result =>
    let running := running.endItem path (countCreated (isCreated result))
    let (results, running) := createPaths workplace running paths
    (results.map (result :: ·), running)

theorem createPaths_of_cancelled {workplace : Workplace σ} {running : Running σ}
    (h : (running.poll workplace).1 = true) (path : String) (paths : List String) :
    createPaths workplace running (path :: paths) =
      ((createPaths workplace (running.poll workplace).2 paths).1.map
          (.error (.cancelled path) :: ·),
        (createPaths workplace (running.poll workplace).2 paths).2) := by
  simp only [createPaths, h, if_true]

theorem createPaths_of_cleared {workplace : Workplace σ} {running : Running σ}
    (h : (running.poll workplace).1 = false) (path : String) (paths : List String) :
    createPaths workplace running (path :: paths) =
      createRest workplace ((running.poll workplace).2.beginItem path) path paths := by
  simp only [createPaths, h, Bool.false_eq_true, if_false]
  rfl

namespace Worker

/-- The results that are still to come if nobody else takes a turn. -/
def remainder (workplace : Workplace σ) (worker : Worker) (running : Running σ) :
    Option (List (Except BackendError Unit)) × Running σ :=
  match worker.phase with
  | .free => createPaths workplace running worker.waiting
  | .cleared path => createRest workplace (running.beginItem path) path worker.waiting
  | .begun path => createRest workplace running path worker.waiting
  | .answered path result =>
    let running := running.endItem path (countCreated (isCreated result))
    let (results, running) := createPaths workplace running worker.waiting
    (results.map (result :: ·), running)

/-- What the worker comes back with if nobody else takes a turn. -/
def prospect (workplace : Workplace σ) (worker : Worker) (running : Running σ) :
    Option (List (Except BackendError Unit)) × Running σ :=
  (if worker.panicked then none
    else (worker.remainder workplace running).1.map (worker.results ++ ·),
    (worker.remainder workplace running).2)

theorem prospect_stepped {workplace : Workplace σ} {worker worker' : Worker}
    {running next : Running σ} (h : Stepped workplace worker running worker' next) :
    worker'.prospect workplace next = worker.prospect workplace running := by
  unfold prospect remainder
  cases h with
  | finished => rfl
  | refused path waiting hphase hwaiting hpoll =>
    simp [hphase, hwaiting, createPaths, hpoll, Function.comp_def]
  | cleared path waiting hphase hwaiting hpoll =>
    simp [hphase, hwaiting, createPaths_of_cleared hpoll]
  | begun path hphase => simp [hphase]
  | answered path result hphase hresult =>
    simp [hphase, createRest, hresult]
  | panicked path hphase hresult =>
    simp [hphase, createRest, hresult, createPaths]
  | ended path result hphase =>
    simp [hphase, Function.comp_def]

theorem prospect_finished (workplace : Workplace σ) {worker : Worker} (running : Running σ)
    (hphase : worker.phase = .free) (hwaiting : worker.waiting = []) :
    worker.prospect workplace running =
      (if worker.panicked then none else some worker.results, running) := by
  simp [prospect, remainder, hphase, hwaiting, createPaths]

end Worker

/-- A crew of one, and what becomes of its level. -/
def IsSole (workplace : Workplace σ) (running : Running σ) (work : List String)
    (crew : List Worker) (next : Running σ) : Prop :=
  ∃ worker, crew = [worker] ∧ worker.share = work ∧
    worker.prospect workplace next = createPaths workplace running work

theorem IsSole.turned {workplace : Workplace σ} {running next next' : Running σ}
    {work : List String} {crew crew' : List Worker} (h : IsSole workplace running work crew next)
    (hturned : Turned workplace crew next crew' next') :
    IsSole workplace running work crew' next' := by
  obtain ⟨worker, hcrew, hshare, hprospect⟩ := h
  cases hturned with
  | skipped => exact ⟨worker, hcrew, hshare, hprospect⟩
  | stepped before after other other' hsplit hstepped =>
    obtain ⟨rfl, rfl, rfl⟩ : before = [] ∧ other = worker ∧ after = [] := by
      rw [hcrew] at hsplit
      simpa [List.append_eq_cons_iff, eq_comm] using hsplit
    refine ⟨other', rfl, ?_, (Worker.prospect_stepped hstepped).trans hprospect⟩
    rw [← hshare]
    cases hstepped with
    | _ => rfl

theorem isSole_crewAfter (schedule : List Nat) (workplace : Workplace σ) (running : Running σ)
    {work : List String} (hne : work ≠ []) :
    IsSole workplace running work (crewAfter 1 schedule workplace running work).1
      (crewAfter 1 schedule workplace running work).2 := by
  have hsize : (work.length + (1 - 1)) / max 1 1 = work.length := by simp
  unfold crewAfter
  dsimp only
  rw [hsize, shares_of_length_le hne (Nat.le_refl _)]
  refine turns_induction (motive := IsSole workplace running work) _
    ⟨.ofShare work, rfl, rfl, ?_⟩ fun _ _ _ _ h hturned ↦ h.turned hturned
  simp [Worker.prospect, Worker.remainder, Worker.ofShare]

theorem turns_nil (workplace : Workplace σ) (running : Running σ) (schedule : List Nat) :
    schedule.foldl (turn workplace) ([], running) = ([], running) := by
  induction schedule with
  | nil => rfl
  | cons index schedule ih => exact ih

/-- With one processor, the turns do not matter. -/
theorem createShares_one (schedule : List Nat) (workplace : Workplace σ) (running : Running σ)
    (work : List String) :
    createShares 1 schedule workplace running work = createLevel workplace running work := by
  by_cases hempty : work = []
  · subst hempty
    unfold createShares
    dsimp only
    rw [shares, List.map_nil, turns_nil]
    rfl
  obtain ⟨worker, hcrew, hshare, hprospect⟩ :=
    isSole_crewAfter schedule workplace running hempty
  have hfinished := finished_crewAfter 1 schedule workplace running work worker (by simp [hcrew])
  rw [Worker.prospect_finished workplace _ hfinished.1 hfinished.2] at hprospect
  rw [createShares_eq, hcrew, List.flatMap_singleton]
  unfold createLevel Worker.outcome
  rw [← hprospect, hshare]
  split
  · rfl
  · rfl

theorem runOn_one (schedule : Nat → List Nat) (workplace : Workplace σ) (world : σ)
    (root : String) (layout : TreeLayout) :
    runOn 1 schedule workplace world root layout = run workplace world root layout := by
  unfold runOn run
  have hsame : (fun remaining ↦ createShares 1 (schedule remaining) workplace) =
      fun _ ↦ createLevel workplace := by
    funext remaining running work
    exact createShares_one ..
  rw [hsame]

/-- Recording changes nothing where the directories are created in order either. -/
theorem run_recorded (workplace : Workplace σ) (world : σ) (root : String) (layout : TreeLayout) :
    run workplace world root layout =
      ((run workplace.recorded (world, []) root layout).1,
        (run workplace.recorded (world, []) root layout).2.map Prod.fst) := by
  rw [← runOn_one fun _ ↦ [], ← runOn_one fun _ ↦ []]
  exact runOn_recorded ..

end DirectoryBrowser.Generate
