import DirectoryBrowser.Proofs.Operation.Recording
import DirectoryBrowser.Proofs.Splitting

/-!
# What the workers of a level can do

A turn changes one worker and what the operation shows, in one of seven ways.
Every turn of a worker that is not finished takes it one step on, so the turns
that close a level finish all of them.
-/

namespace DirectoryBrowser.Generate

variable {σ : Type}

/-! ### Shares -/

theorem flatten_shares (size : Nat) (work : List String) : (shares size work).flatten = work := by
  induction work using shares.induct size with
  | case1 => rw [shares, List.flatten_nil]
  | case2 path paths ih =>
    rw [shares, List.flatten_cons, ih, List.cons_append, List.take_append_drop]

theorem shares_of_length_le {size : Nat} {work : List String} (hne : work ≠ [])
    (hsize : work.length ≤ size) : shares size work = [work] := by
  cases work with
  | nil => exact absurd rfl hne
  | cons path paths =>
    have hlength : paths.length ≤ size - 1 := Nat.le_sub_one_of_lt hsize
    rw [shares, List.take_of_length_le hlength, List.drop_of_length_le hlength, shares]

/-! ### Steps -/

inductive Stepped (workplace : Workplace σ) (worker : Worker) (running : Running σ) :
    Worker → Running σ → Prop
  | finished (hphase : worker.phase = .free) (hwaiting : worker.waiting = []) :
      Stepped workplace worker running worker running
  | refused (path : String) (waiting : List String) (hphase : worker.phase = .free)
      (hwaiting : worker.waiting = path :: waiting)
      (hpoll : (running.poll workplace).1 = true) :
      Stepped workplace worker running
        { worker with waiting, results := worker.results ++ [.error (.cancelled path)] }
        (running.poll workplace).2
  | cleared (path : String) (waiting : List String) (hphase : worker.phase = .free)
      (hwaiting : worker.waiting = path :: waiting)
      (hpoll : (running.poll workplace).1 = false) :
      Stepped workplace worker running { worker with waiting, phase := .cleared path }
        (running.poll workplace).2
  | begun (path : String) (hphase : worker.phase = .cleared path) :
      Stepped workplace worker running { worker with phase := .begun path }
        (running.beginItem path)
  | answered (path : String) (result : Except BackendError Unit)
      (hphase : worker.phase = .begun path)
      (hresult : (running.act workplace path).1 = some result) :
      Stepped workplace worker running { worker with phase := .answered path result }
        (running.act workplace path).2
  | panicked (path : String) (hphase : worker.phase = .begun path)
      (hresult : (running.act workplace path).1 = none) :
      Stepped workplace worker running { worker with waiting := [], phase := .free, panicked := true }
        (running.act workplace path).2
  | ended (path : String) (result : Except BackendError Unit)
      (hphase : worker.phase = .answered path result) :
      Stepped workplace worker running
        { worker with phase := .free, results := worker.results ++ [result] }
        (running.endItem path (countCreated (isCreated result)))

theorem step_stepped (workplace : Workplace σ) (worker : Worker) (running : Running σ) :
    Stepped workplace worker running (worker.step workplace running).1
      (worker.step workplace running).2 := by
  unfold Worker.step
  split
  case h_1 hphase =>
    split
    case h_1 hwaiting => exact .finished hphase hwaiting
    case h_2 path waiting hwaiting =>
      dsimp only
      split
      case isTrue hpoll => exact .refused path waiting hphase hwaiting hpoll
      case isFalse hpoll =>
        exact .cleared path waiting hphase hwaiting (Bool.not_eq_true _ ▸ hpoll)
  case h_2 path hphase => exact .begun path hphase
  case h_3 path hphase =>
    dsimp only
    split
    case h_1 hresult => exact .panicked path hphase hresult
    case h_2 result hresult => exact .answered path result hphase hresult
  case h_4 path result hphase => exact .ended path result hphase

/-- One worker has taken a step, or there is none to take it. -/
inductive Turned (workplace : Workplace σ) (crew : List Worker) (running : Running σ) :
    List Worker → Running σ → Prop
  | skipped : Turned workplace crew running crew running
  | stepped {next : Running σ} (before after : List Worker) (worker worker' : Worker)
      (hcrew : crew = before ++ worker :: after)
      (hstepped : Stepped workplace worker running worker' next) :
      Turned workplace crew running (before ++ worker' :: after) next

theorem turn_turned (workplace : Workplace σ) (crew : List Worker) (running : Running σ)
    (index : Nat) : Turned workplace crew running (turn workplace (crew, running) index).1
      (turn workplace (crew, running) index).2 := by
  unfold turn
  dsimp only
  split
  case h_1 => exact .skipped
  case h_2 worker hworker =>
    obtain ⟨before, after, hcrew, hset, -⟩ := exists_split_of_getElem? hworker
    dsimp only
    rw [hset]
    exact .stepped before after worker _ hcrew (step_stepped workplace worker running)

/-- What every turn keeps holds after all of them. -/
theorem turns_induction {workplace : Workplace σ} {motive : List Worker → Running σ → Prop}
    {crew : List Worker} {running : Running σ} (schedule : List Nat) (hstart : motive crew running)
    (hturn : ∀ crew running crew' running', motive crew running →
      Turned workplace crew running crew' running' → motive crew' running') :
    motive (schedule.foldl (turn workplace) (crew, running)).1
      (schedule.foldl (turn workplace) (crew, running)).2 := by
  induction schedule generalizing crew running with
  | nil => exact hstart
  | cons index schedule ih =>
    exact ih (hturn _ _ _ _ hstart (turn_turned workplace crew running index))

/-! ### Every worker finishes -/

namespace Phase

/-- Steps that are left until the worker is free. -/
def steps : Phase → Nat
  | .free => 0
  | .cleared _ => 3
  | .begun _ => 2
  | .answered .. => 1

end Phase

namespace Worker

def steps (worker : Worker) : Nat :=
  4 * worker.waiting.length + worker.phase.steps

theorem finished_of_steps_eq_zero {worker : Worker} (h : worker.steps = 0) :
    worker.phase = .free ∧ worker.waiting = [] := by
  obtain ⟨hwaiting, hphase⟩ := Nat.add_eq_zero_iff.mp h
  constructor
  · cases hfree : worker.phase with
    | free => rfl
    | _ => simp [hfree, Phase.steps] at hphase
  · exact List.length_eq_zero_iff.mp (by omega)

theorem steps_step_le (workplace : Workplace σ) (worker : Worker) (running : Running σ) :
    (worker.step workplace running).1.steps ≤ worker.steps - 1 := by
  have hstepped := step_stepped workplace worker running
  generalize (worker.step workplace running).1 = next at hstepped ⊢
  generalize (worker.step workplace running).2 = after at hstepped
  unfold steps
  cases hstepped with
  | finished hphase hwaiting => simp [hphase, hwaiting, Phase.steps]
  | refused path waiting hphase hwaiting =>
    simp only [hphase, hwaiting, Phase.steps, List.length_cons]
    omega
  | cleared path waiting hphase hwaiting =>
    simp only [hphase, hwaiting, Phase.steps, List.length_cons]
    omega
  | begun path hphase => simp [hphase, Phase.steps]
  | answered path result hphase => simp [hphase, Phase.steps]
  | panicked path hphase => simp [hphase, Phase.steps]
  | ended path result hphase => simp [hphase, Phase.steps]

end Worker

theorem steps_turns_le (workplace : Workplace σ) {crew : List Worker} (running : Running σ)
    {index : Nat} {worker : Worker} (schedule : List Nat) (hworker : crew[index]? = some worker) :
    ∃ last, (schedule.foldl (turn workplace) (crew, running)).1[index]? = some last ∧
      last.steps ≤ worker.steps - schedule.count index := by
  induction schedule generalizing crew running worker with
  | nil => exact ⟨worker, hworker, Nat.le_refl _⟩
  | cons other schedule ih =>
    rw [List.foldl_cons]
    by_cases hother : other = index
    · subst hother
      have hturn : turn workplace (crew, running) other =
          (crew.set other (worker.step workplace running).1,
            (worker.step workplace running).2) := by
        unfold turn
        rw [hworker]
      have hlt := (List.getElem?_eq_some_iff.mp hworker).1
      obtain ⟨last, hlast, hsteps⟩ := ih (worker.step workplace running).2
        (List.getElem?_set_self hlt)
      have hstep := worker.steps_step_le workplace running
      rw [hturn, List.count_cons_self]
      exact ⟨last, hlast, by omega⟩
    · have hsame : (turn workplace (crew, running) other).1[index]? = some worker := by
        unfold turn
        split
        · exact hworker
        · exact (List.getElem?_set_ne hother).trans hworker
      rw [List.count_cons_of_ne hother]
      exact ih _ hsame

theorem le_count_closing {crew : List Worker} {index : Nat} {worker : Worker}
    (hworker : crew[index]? = some worker) :
    4 * worker.share.length ≤ (closing crew).count index := by
  have hmem : (worker, index) ∈ crew.zipIdx := List.mem_zipIdx_iff_getElem?.mpr hworker
  have hsub : (List.replicate (4 * worker.share.length) index).Sublist (closing crew) :=
    List.sublist_flatten_of_mem (List.mem_map_of_mem hmem)
  have hcount := hsub.count_le index
  rwa [List.count_replicate_self] at hcount

theorem length_turns (workplace : Workplace σ) (crew : List Worker) (running : Running σ)
    (schedule : List Nat) :
    (schedule.foldl (turn workplace) (crew, running)).1.length = crew.length := by
  refine turns_induction (motive := fun other _ ↦ other.length = crew.length) schedule rfl ?_
  rintro other running _ _ hlength (_ | ⟨before, after, worker, worker', hcrew, -⟩)
  · exact hlength
  · rw [← hlength, hcrew, List.length_append, List.length_append]
    rfl

/-- The workers that a level is shared out to, once the level is closed. -/
def crewAfter (processors : Nat) (schedule : List Nat) (workplace : Workplace σ)
    (running : Running σ) (work : List String) : List Worker × Running σ :=
  let size := (work.length + (processors - 1)) / max processors 1
  let crew := (shares size work).map Worker.ofShare
  (schedule ++ closing crew).foldl (turn workplace) (crew, running)

theorem createShares_eq (processors : Nat) (schedule : List Nat) (workplace : Workplace σ)
    (running : Running σ) (work : List String) :
    createShares processors schedule workplace running work =
      ((crewAfter processors schedule workplace running work).1.flatMap Worker.outcome,
        (crewAfter processors schedule workplace running work).2) := rfl

theorem finished_crewAfter (processors : Nat) (schedule : List Nat) (workplace : Workplace σ)
    (running : Running σ) (work : List String) :
    ∀ worker ∈ (crewAfter processors schedule workplace running work).1,
      worker.phase = .free ∧ worker.waiting = [] := by
  intro worker hworker
  unfold crewAfter at hworker
  dsimp only at hworker
  generalize hcrew : (shares _ work).map Worker.ofShare = crew at hworker
  obtain ⟨index, hindex⟩ := List.mem_iff_getElem?.mp hworker
  have hlt : index < crew.length := by
    rw [← length_turns workplace crew running]
    exact (List.getElem?_eq_some_iff.mp hindex).1
  have hfresh : ∀ worker ∈ crew, ∃ share, worker = .ofShare share := by
    rw [← hcrew]
    intro worker hworker
    obtain ⟨share, -, rfl⟩ := List.mem_map.mp hworker
    exact ⟨share, rfl⟩
  obtain ⟨share, hshare⟩ := hfresh _ (List.getElem_mem hlt)
  have hfirst : crew[index]? = some (.ofShare share) := by
    rw [List.getElem?_eq_getElem hlt, hshare]
  obtain ⟨last, hlast, hsteps⟩ :=
    steps_turns_le workplace running (schedule ++ closing crew) hfirst
  cases hindex.symm.trans hlast
  have hclosing := le_count_closing hfirst
  have hbegin : (Worker.ofShare share).steps = 4 * share.length := rfl
  rw [List.count_append, hbegin] at hsteps
  have hshare : (Worker.ofShare share).share.length = share.length := rfl
  exact Worker.finished_of_steps_eq_zero (by omega)

end DirectoryBrowser.Generate
