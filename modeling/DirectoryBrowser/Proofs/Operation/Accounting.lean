import DirectoryBrowser.Proofs.Operation.Crews
import Mathlib.Algebra.Ring.Nat

/-!
# The account of a level

A worker that has created a directory counts it, and takes its name off the
list of those that are worked on. `Account` follows the workers of one level,
whatever turns they take. It distinguishes the results a worker has counted off
from those it has got, and a directory that was not tried from one that was
refused: the former is found only where the operation has been cancelled.
-/

open scoped List

namespace DirectoryBrowser.Generate

variable {σ : Type}

namespace Worker

/-- The directory that is named while it is worked on. -/
def named (worker : Worker) : List String :=
  match worker.phase with
  | .free | .cleared _ => []
  | .begun path | .answered path _ => [path]

/-- The results of the calls that have been made or will not be made, counted off or not. -/
def given (worker : Worker) : List (Except BackendError Unit) :=
  match worker.phase with
  | .free | .cleared _ | .begun _ => worker.results
  | .answered _ result => worker.results ++ [result]

/-- Directories that have neither waited nor got a result. -/
def held (worker : Worker) : Nat :=
  match worker.phase with
  | .free | .answered .. => 0
  | .cleared _ | .begun _ => 1

end Worker

def isRefused (result : Except BackendError Unit) : Bool := !isCreated result

theorem WorkCall.succeeded_eq (call : WorkCall σ) : call.succeeded = call.result.any isCreated := by
  unfold WorkCall.succeeded
  split
  case h_1 hresult => rw [hresult]; rfl
  case h_2 hresult => rw [hresult]; rfl
  case h_3 hresult => rw [hresult]; rfl

theorem WorkCall.failed_eq (call : WorkCall σ) : call.failed = call.result.any isRefused := by
  unfold WorkCall.failed
  split
  case h_1 hresult => rw [hresult]; rfl
  case h_2 hresult => rw [hresult]; rfl
  case h_3 hresult => rw [hresult]; rfl

theorem endItem_progress (running : Running σ) (path : String) (created : Bool) :
    (running.endItem path (countCreated created)).progress = { running.progress with
      done := running.progress.done + created.toNat
      processing := running.progress.processing.erase path } := by
  cases created with
  | true => rfl
  | false => rfl

theorem countP_isCreated_add_isRefused (results : List (Except BackendError Unit)) :
    results.countP isCreated + results.countP isRefused = results.length := by
  have hrefused : results.countP isRefused = results.countP fun result ↦ ¬ isCreated result :=
    List.countP_congr fun result _ ↦ by simp [isRefused]
  rw [hrefused, ← List.length_eq_countP_add_countP]

/-- What holds of the workers of a level whatever turns they have taken since its start. -/
structure Account (isSet : σ → Prop) (start : Recorded σ) (crew : List Worker)
    (running : Recorded σ) : Prop where
  total : running.progress.total = start.progress.total
  failed : running.progress.failed = start.progress.failed
  skipped : running.progress.skipped = start.progress.skipped
  processing : running.progress.processing ~
    start.progress.processing ++ crew.flatMap Worker.named
  done : running.progress.done =
    start.progress.done + (crew.map fun worker ↦ worker.results.countP isCreated).sum
  created : running.created =
    start.created + (crew.map fun worker ↦ worker.given.countP isCreated).sum
  refused : ¬ isSet running.world.1 → running.refused =
    start.refused + (crew.map fun worker ↦ worker.given.countP isRefused).sum
  shared : ∀ worker ∈ crew, worker.panicked = false ∧
    worker.given.length + worker.held + worker.waiting.length = worker.share.length

namespace Account

variable {workplace : Workplace σ} {isSet : σ → Prop} {start running next : Recorded σ}
  {crew crew' before after : List Worker} {worker worker' : Worker}

theorem shared_set (h : Account isSet start (before ++ worker :: after) running)
    (hshared : worker'.panicked = false ∧
      worker'.given.length + worker'.held + worker'.waiting.length = worker'.share.length) :
    ∀ other ∈ before ++ worker' :: after, other.panicked = false ∧
      other.given.length + other.held + other.waiting.length = other.share.length := by
  intro other hother
  rcases List.mem_append.mp hother with hbefore | hrest
  · exact h.shared other (List.mem_append_left _ hbefore)
  · rcases List.mem_cons.mp hrest with rfl | hafter
    · exact hshared
    · exact h.shared other (List.mem_append_right _ (List.mem_cons_of_mem _ hafter))

/-- A step of one worker, by what it adds to the counters, to the record, and to the names. -/
theorem set (h : Account isSet start (before ++ worker :: after) running)
    (hprogress : next.progress.total = running.progress.total ∧
      next.progress.failed = running.progress.failed ∧
      next.progress.skipped = running.progress.skipped)
    (hprocessing : next.progress.processing ~
      start.progress.processing ++ (before ++ worker' :: after).flatMap Worker.named)
    (hdone : next.progress.done + worker.results.countP isCreated =
      running.progress.done + worker'.results.countP isCreated)
    (hcreated : next.created + worker.given.countP isCreated =
      running.created + worker'.given.countP isCreated)
    (hrefused : ¬ isSet next.world.1 → ¬ isSet running.world.1 ∧
      next.refused + worker.given.countP isRefused =
        running.refused + worker'.given.countP isRefused)
    (hshared : worker'.panicked = false ∧
      worker'.given.length + worker'.held + worker'.waiting.length = worker'.share.length) :
    Account isSet start (before ++ worker' :: after) next where
  total := hprogress.1.trans h.total
  failed := hprogress.2.1.trans h.failed
  skipped := hprogress.2.2.trans h.skipped
  processing := hprocessing
  done := by
    have hbefore := h.done
    simp only [List.map_append, List.map_cons, List.sum_append, List.sum_cons] at hbefore ⊢
    omega
  created := by
    have hbefore := h.created
    simp only [List.map_append, List.map_cons, List.sum_append, List.sum_cons] at hbefore ⊢
    omega
  refused := by
    intro hunset
    obtain ⟨hearlier, hcount⟩ := hrefused hunset
    have hbefore := h.refused hearlier
    simp only [List.map_append, List.map_cons, List.sum_append, List.sum_cons] at hbefore ⊢
    omega
  shared := h.shared_set hshared

theorem named_same (h : Account isSet start (before ++ worker :: after) running)
    (hnamed : worker'.named = worker.named) : running.progress.processing ~
      start.progress.processing ++ (before ++ worker' :: after).flatMap Worker.named := by
  have hsame : (before ++ worker' :: after).flatMap Worker.named =
      (before ++ worker :: after).flatMap Worker.named := by
    simp only [List.flatMap_append, List.flatMap_cons, hnamed]
  rw [hsame]
  exact h.processing

/-- Naming and taking a name off again, in whichever order the others do. -/
theorem named_begun (h : Account isSet start (before ++ worker :: after) running) {path : String}
    (hnone : worker.named = []) (hnamed : worker'.named = [path]) :
    running.progress.processing ++ [path] ~
      start.progress.processing ++ (before ++ worker' :: after).flatMap Worker.named := by
  have hprocessing := h.processing
  simp only [List.flatMap_append, List.flatMap_cons, hnone, hnamed, List.nil_append] at hprocessing ⊢
  calc running.progress.processing ++ [path]
    _ ~ path :: running.progress.processing := List.perm_append_singleton ..
    _ ~ path :: (start.progress.processing ++
          (before.flatMap Worker.named ++ after.flatMap Worker.named)) := hprocessing.cons path
    _ = path :: (start.progress.processing ++ before.flatMap Worker.named ++
          after.flatMap Worker.named) := by rw [List.append_assoc]
    _ ~ start.progress.processing ++ before.flatMap Worker.named ++
          path :: after.flatMap Worker.named := List.perm_middle.symm
    _ = _ := by simp

theorem named_ended (h : Account isSet start (before ++ worker :: after) running) {path : String}
    (hnamed : worker.named = [path]) (hnone : worker'.named = []) :
    running.progress.processing.erase path ~
      start.progress.processing ++ (before ++ worker' :: after).flatMap Worker.named := by
  have hprocessing := h.processing
  simp only [List.flatMap_append, List.flatMap_cons, hnone, hnamed, List.nil_append] at hprocessing ⊢
  have hfirst : running.progress.processing ~ path :: (start.progress.processing ++
      (before.flatMap Worker.named ++ after.flatMap Worker.named)) := by
    rw [← List.append_assoc] at hprocessing ⊢
    exact hprocessing.trans List.perm_middle
  have herased := hfirst.erase path
  rwa [List.erase_cons_head] at herased

theorem stepped (h : Account isSet start (before ++ worker :: after) running)
    (hact : ∀ path world, (workplace.act path world).1 ≠ none)
    (htoken : workplace.IsToken isSet)
    (hstepped : Stepped workplace.recorded worker running worker' next) :
    Account isSet start (before ++ worker' :: after) next := by
  obtain ⟨hsound, hshare⟩ := h.shared worker (by simp)
  cases hstepped with
  | finished => exact h
  | refused path waiting hphase hwaiting hpoll =>
    -- The entry that is not tried is no refusal, but then the token is set.
    have hset : isSet (running.poll workplace.recorded).2.world.1 :=
      (htoken.poll_eq_true_iff running.world.1).mp hpoll
    refine h.set ⟨rfl, rfl, rfl⟩ (h.named_same ?_) ?_ ?_ (fun hunset ↦ absurd hset hunset)
      ⟨hsound, ?_⟩
    · simp [Worker.named, hphase]
    · simp [Running.poll, isCreated]
    · simp [Worker.given, hphase, isCreated]
      rfl
    · simp [Worker.given, Worker.held, hphase, hwaiting] at hshare ⊢
      omega
  | cleared path waiting hphase hwaiting hpoll =>
    have hunset : ¬ isSet (running.poll workplace.recorded).2.world.1 →
        ¬ isSet running.world.1 := mt (htoken.poll running.world.1)
    refine h.set ⟨rfl, rfl, rfl⟩ (h.named_same ?_) ?_ ?_ (fun hlater ↦ ⟨hunset hlater, ?_⟩)
      ⟨hsound, ?_⟩
    · simp [Worker.named, hphase]
    · simp [Running.poll]
    · simp only [Worker.given, hphase]
      rfl
    · simp only [Worker.given, hphase]
      rfl
    · simp [Worker.given, Worker.held, hphase, hwaiting] at hshare ⊢
      omega
  | begun path hphase =>
    refine h.set ⟨rfl, rfl, rfl⟩ (h.named_begun ?_ ?_) ?_ ?_ (fun hlater ↦ ⟨hlater, ?_⟩)
      ⟨hsound, ?_⟩
    · simp [Worker.named, hphase]
    · simp [Worker.named]
    · simp [Running.beginItem, Running.update, Running.change]
    · simp only [Worker.given, hphase]
      rfl
    · simp only [Worker.given, hphase]
      rfl
    · simp [Worker.given, Worker.held, hphase] at hshare ⊢
      omega
  | answered path result hphase hresult =>
    have hunset : ¬ isSet (running.act workplace.recorded path).2.world.1 →
        ¬ isSet running.world.1 := mt (htoken.act path running.world.1)
    refine h.set ⟨rfl, rfl, rfl⟩ (h.named_same ?_) ?_ ?_ (fun hlater ↦ ⟨hunset hlater, ?_⟩)
      ⟨hsound, ?_⟩
    · simp [Worker.named, hphase]
    · simp [Running.act]
    · unfold Running.created
      rw [Running.calls_act, List.countP_append, List.countP_singleton,
        WorkCall.succeeded_eq]
      simp [Worker.given, hphase, hresult, List.countP_append, List.countP_singleton]
      omega
    · unfold Running.refused
      rw [Running.calls_act, List.countP_append, List.countP_singleton,
        WorkCall.failed_eq]
      simp [Worker.given, hphase, hresult, List.countP_append, List.countP_singleton]
      omega
    · simp [Worker.given, Worker.held, hphase] at hshare ⊢
      omega
  | panicked path hphase hresult => exact absurd hresult (hact path running.world.1)
  | ended path result hphase =>
    have hprogress := endItem_progress running path (isCreated result)
    have hprocessing : (running.endItem path (countCreated (isCreated result))).progress.processing
        = running.progress.processing.erase path := by rw [hprogress]
    refine h.set ⟨?_, ?_, ?_⟩ (hprocessing ▸ h.named_ended ?_ ?_) ?_ ?_
      (fun hlater ↦ ⟨hlater, ?_⟩) ⟨hsound, ?_⟩
    · rw [hprogress]
    · rw [hprogress]
    · rw [hprogress]
    · simp [Worker.named, hphase]
    · simp [Worker.named]
    · rw [hprogress, List.countP_append, List.countP_singleton]
      cases isCreated result with
      | true => exact Nat.add_right_comm ..
      | false => rfl
    · simp only [Worker.given, hphase]
      rfl
    · simp only [Worker.given, hphase]
      rfl
    · simp [Worker.given, Worker.held, hphase] at hshare ⊢
      omega

theorem turned (h : Account isSet start crew running)
    (hact : ∀ path world, (workplace.act path world).1 ≠ none)
    (htoken : workplace.IsToken isSet)
    (hturned : Turned workplace.recorded crew running crew' next) :
    Account isSet start crew' next := by
  cases hturned with
  | skipped => exact h
  | stepped before after worker worker' hcrew hstepped =>
    subst hcrew
    exact h.stepped hact htoken hstepped

theorem fresh (isSet : σ → Prop) (start : Recorded σ) (shares : List (List String)) :
    Account isSet start (shares.map Worker.ofShare) start where
  total := rfl
  failed := rfl
  skipped := rfl
  processing := by
    have hnone : (shares.map Worker.ofShare).flatMap Worker.named = [] := by
      simp [Worker.named, Worker.ofShare]
    rw [hnone, List.append_nil]
  done := by simp [Worker.ofShare, Function.comp_def, List.map_const']
  created := by simp [Worker.given, Worker.ofShare, Function.comp_def, List.map_const']
  refused := by simp [Worker.given, Worker.ofShare, Function.comp_def, List.map_const']
  shared := by simp [Worker.given, Worker.held, Worker.ofShare]

end Account

/-! ### A level as a whole -/

/-- What a level leaves behind, for every directory one result. -/
structure LevelAccount (isSet : σ → Prop) (start : Recorded σ) (work : List String)
    (results : List (Except BackendError Unit)) (next : Recorded σ) : Prop where
  length : results.length = work.length
  progress : next.progress =
    { start.progress with done := start.progress.done + results.countP isCreated }
  created : next.created = start.created + results.countP isCreated
  refused : ¬ isSet next.world.1 →
    next.refused = start.refused + results.countP isRefused

theorem LevelAccount.map_snd_zip {isSet : σ → Prop} {start next : Recorded σ} {work : List String}
    {results : List (Except BackendError Unit)} (h : LevelAccount isSet start work results next) :
    (work.zip results).map Prod.snd = results :=
  List.map_snd_zip (Nat.le_of_eq h.length)

theorem LevelAccount.poll {workplace : Workplace σ} {isSet : σ → Prop} {start next : Recorded σ}
    {work : List String} {results : List (Except BackendError Unit)}
    (h : LevelAccount isSet start work results next) (htoken : workplace.IsToken isSet) :
    LevelAccount isSet start work results (next.poll workplace.recorded).2 where
  length := h.length
  progress := h.progress
  created := h.created
  refused := fun hunset ↦ h.refused (mt (htoken.poll next.world.1) hunset)

theorem share_crewAfter (processors : Nat) (schedule : List Nat) (workplace : Workplace σ)
    (running : Running σ) (work : List String) :
    ((crewAfter processors schedule workplace running work).1.map Worker.share).flatten = work := by
  unfold crewAfter
  dsimp only
  generalize (work.length + (processors - 1)) / max processors 1 = size
  have hshares : ((shares size work).map Worker.ofShare).map Worker.share = shares size work := by
    rw [List.map_map]
    exact List.map_id _
  suffices hsame : ((schedule ++ closing ((shares size work).map Worker.ofShare)).foldl
      (turn workplace) ((shares size work).map Worker.ofShare, running)).1.map Worker.share =
        shares size work by
    rw [hsame, flatten_shares]
  refine turns_induction (motive := fun crew _ ↦ crew.map Worker.share = shares size work) _
    hshares ?_
  rintro crew running _ _ hcrew (_ | ⟨before, after, worker, worker', rfl, hstepped⟩)
  · exact hcrew
  · have hshare : worker'.share = worker.share := by
      cases hstepped with
      | _ => rfl
    rw [← hcrew, List.map_append, List.map_append, List.map_cons, List.map_cons, hshare]

/-- A worker that is finished has given back all it was given to do. -/
theorem Account.results_of_finished {isSet : σ → Prop} {start next : Recorded σ}
    {crew : List Worker} (h : Account isSet start crew next) {worker : Worker}
    (hworker : worker ∈ crew) (hphase : worker.phase = .free) (hwaiting : worker.waiting = []) :
    worker.given = worker.results ∧ worker.named = [] ∧ worker.outcome = worker.results ∧
      worker.results.length = worker.share.length := by
  obtain ⟨hsound, hshare⟩ := h.shared worker hworker
  have hresults : worker.given = worker.results := by simp [Worker.given, hphase]
  refine ⟨hresults, by simp [Worker.named, hphase], by simp [Worker.outcome, hsound], ?_⟩
  simpa [hresults, Worker.held, hphase, hwaiting] using hshare

theorem Account.level {isSet : σ → Prop} {start next : Recorded σ} {crew : List Worker}
    {work : List String} (h : Account isSet start crew next)
    (hfinished : ∀ worker ∈ crew, worker.phase = .free ∧ worker.waiting = [])
    (hshares : (crew.map Worker.share).flatten = work) (hfree : start.progress.processing = []) :
    LevelAccount isSet start work (crew.flatMap Worker.outcome) next := by
  have hresults (worker : Worker) (hworker : worker ∈ crew) :=
    h.results_of_finished hworker (hfinished worker hworker).1 (hfinished worker hworker).2
  have hcount (p : Except BackendError Unit → Bool) :
      (crew.flatMap Worker.outcome).countP p =
        (crew.map fun worker ↦ worker.results.countP p).sum := by
    rw [List.countP_flatMap]
    refine congrArg List.sum (List.map_congr_left fun worker hworker ↦ ?_)
    rw [Function.comp_apply, (hresults worker hworker).2.2.1]
  have hsame (p : Except BackendError Unit → Bool) :
      (crew.map fun worker ↦ worker.given.countP p) =
        crew.map fun worker ↦ worker.results.countP p :=
    List.map_congr_left fun worker hworker ↦ by rw [(hresults worker hworker).1]
  constructor
  case length =>
    rw [List.length_flatMap, ← hshares, List.length_flatten, List.map_map]
    refine congrArg List.sum (List.map_congr_left fun worker hworker ↦ ?_)
    rw [(hresults worker hworker).2.2.1, (hresults worker hworker).2.2.2]
    rfl
  case progress =>
    have hnamed : crew.flatMap Worker.named = [] := by
      rw [List.flatMap_eq_nil_iff]
      exact fun worker hworker ↦ (hresults worker hworker).2.1
    have hprocessing := h.processing
    rw [hnamed, List.append_nil, hfree, List.perm_nil] at hprocessing
    have hdone := h.done
    rw [← hcount] at hdone
    calc next.progress
      _ = ⟨next.progress.total, next.progress.done, next.progress.failed, next.progress.skipped,
            next.progress.processing⟩ := rfl
      _ = { start.progress with done := start.progress.done +
            (crew.flatMap Worker.outcome).countP isCreated } := by
        rw [h.total, hdone, h.failed, h.skipped, hprocessing.trans hfree.symm]
  case created => rw [h.created, hsame, hcount]
  case refused =>
    intro hunset
    rw [h.refused hunset, hsame, hcount]

theorem createShares_account {workplace : Workplace σ} {isSet : σ → Prop}
    (hact : ∀ path world, (workplace.act path world).1 ≠ none)
    (htoken : workplace.IsToken isSet) (processors : Nat) (schedule : List Nat)
    (start : Recorded σ) (work : List String) (hfree : start.progress.processing = []) :
    LevelAccount isSet start work
      (createShares processors schedule workplace.recorded start work).1
      (createShares processors schedule workplace.recorded start work).2 := by
  have haccount : Account isSet start
      (crewAfter processors schedule workplace.recorded start work).1
      (crewAfter processors schedule workplace.recorded start work).2 := by
    refine turns_induction _ (Account.fresh isSet start _) ?_
    exact fun _ _ _ _ h hturned ↦ h.turned hact htoken hturned
  rw [createShares_eq]
  exact haccount.level (finished_crewAfter processors schedule workplace.recorded start work)
    (share_crewAfter processors schedule workplace.recorded start work) hfree

end DirectoryBrowser.Generate
