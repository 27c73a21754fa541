import DirectoryBrowser.Navigation.Session
import DirectoryBrowser.Proofs.Splitting

/-!
# What a step of a session can do

A step is a user's call, a listing that returns, a step of a status worker, or
the handling of the oldest update. Each of them is described here once, with
its guards and its exact result, as a relation with one constructor per
outcome. Invariants are then proved by cases on the relation and never open
the handlers themselves.
-/

namespace DirectoryBrowser.Session

/-! ### Effects that more than one step has -/

section Opening

variable (session : Session) (backend : Backend) (path : String)

@[simp] theorem openAt_backend : (session.openAt backend path).backend = some backend := rfl

@[simp] theorem openAt_current : (session.openAt backend path).current =
    some (Snapshot.loading backend path (session.generation + 1)) := rfl

@[simp] theorem openAt_generation :
    (session.openAt backend path).generation = session.generation + 1 := rfl

@[simp] theorem openAt_failure : (session.openAt backend path).failure = session.failure := rfl

@[simp] theorem openAt_status : (session.openAt backend path).status = session.status := rfl

@[simp] theorem openAt_waiting : (session.openAt backend path).waiting = [] := rfl

@[simp] theorem openAt_store : (session.openAt backend path).store = session.store := rfl

@[simp] theorem openAt_loads : (session.openAt backend path).loads =
    session.loads ++ [⟨session.generation + 1, path, backend⟩] := rfl

@[simp] theorem openAt_jobs : (session.openAt backend path).jobs = session.jobs := rfl

@[simp] theorem openAt_pendingStatus :
    (session.openAt backend path).pendingStatus = session.pendingStatus := rfl

@[simp] theorem openAt_inbox : (session.openAt backend path).inbox = session.inbox := rfl

@[simp] theorem openAt_trace : (session.openAt backend path).trace = session.trace ++
    [.published (Snapshot.loading backend path (session.generation + 1)),
      .dispatched ⟨session.generation + 1, path, backend⟩] := by
  simp [openAt, publish, emit, cancelLoad]

theorem navigateTo_eq (rootChange : Bool) :
    (session.navigateTo backend path rootChange).2 = session ∨
      (session.navigateTo backend path rootChange).2 =
        session.openAt backend (target backend path) := by
  unfold navigateTo
  dsimp only
  split
  · exact Or.inl rfl
  · exact Or.inr rfl

theorem distrust_eq : ∃ status, session.distrust backend path = { session with status } := by
  unfold distrust
  split
  · exact ⟨_, rfl⟩
  · exact ⟨_, rfl⟩

end Opening

theorem persist_eq (session : Session) : ∃ store saves,
    session.persist = { session with store, trace := session.trace ++ saves } ∧
      ∀ event ∈ saves, ∃ state, event = .saved state := by
  have hsame : session = { session with trace := session.trace ++ [] } := by simp
  unfold persist
  split
  · split
    · dsimp only
      split
      · exact ⟨_, [_], rfl, by simp⟩
      · exact ⟨_, [], hsame, by simp⟩
    · exact ⟨_, [], hsame, by simp⟩
  · exact ⟨_, [], hsame, by simp⟩

theorem onShow_persist_eq (session : Session) (snapshot : Snapshot) : ∃ store saves,
    (session.onShow snapshot).persist = { session with
      current := some snapshot
      failure := none
      restoring := none
      selected := keepSelected snapshot session.selected
      store
      trace := session.trace ++ .published snapshot :: saves } ∧
    ∀ event ∈ saves, ∃ state, event = .saved state := by
  obtain ⟨store, saves, hpersist, hsaves⟩ := (session.onShow snapshot).persist_eq
  refine ⟨store, saves, ?_, hsaves⟩
  rw [hpersist]
  simp [onShow, publish, emit]

theorem announce_eq (session : Session) (hits : List (String × String)) :
    session.announce hits = { session with
      trace := session.trace ++ hits.map fun hit ↦ .statusUpdated hit.1 hit.2 } := by
  unfold announce
  induction hits generalizing session with
  | nil => simp
  | cons hit hits ih =>
    rw [List.foldl_cons, ih]
    simp [emit]

/-! ### A user's call -/

/-- Backends that a step is given by its caller. -/
def Input.backends : Input → List Backend
  | .navigate backend _ _ => [backend]
  | .restore backends _ | .restoreSaved backends => backends
  | _ => []

inductive Called (session : Session) : Input → Session → Prop
  | stayed (input : Input) : Called session input session
  | opened (input : Input) (backend : Backend) (path : String) (restoring : Option Nat)
      (selected : Option String)
      (hbackend : backend ∈ input.backends ∨ session.backend = some backend)
      (hrestoring : restoring = none ∨ restoring = some (session.generation + 1)) :
      Called session input { session.openAt backend path with restoring, selected }
  | refreshed (backend : Backend) (snapshot : Snapshot) (path : String)
      (hbackend : session.backend = some backend) (hcurrent : session.current = some snapshot) :
      Called session .refresh
        ({ session.openAt backend path with selected := session.selected }.distrust
          backend snapshot.path)
  | selected (name : String) (snapshot : Snapshot) (hcurrent : session.current = some snapshot)
      (hchild : (snapshot.child? name).isSome = true) :
      Called session (.select name) { session with selected := some name }.persist

theorem navigateTo_called (session : Session) (input : Input) (backend : Backend) (path : String)
    (rootChange : Bool) (hbackend : backend ∈ input.backends ∨ session.backend = some backend) :
    Called session input (session.navigateTo backend path rootChange).2 := by
  rcases session.navigateTo_eq backend path rootChange with h | h
  · rw [h]
    exact .stayed input
  · rw [h]
    exact .opened input backend _ none none hbackend (Or.inl rfl)

theorem refresh_called (session : Session) : Called session .refresh session.refresh.2 := by
  unfold refresh
  split
  case h_1 backend snapshot hbackend hcurrent =>
    exact .refreshed backend snapshot _ hbackend hcurrent
  case h_2 => exact .stayed _

theorem goUp_called (session : Session) : Called session .goUp session.goUp.2 := by
  unfold goUp
  split
  case h_1 backend snapshot hbackend hcurrent =>
    split
    · exact .stayed _
    · split
      · exact navigateTo_called session _ backend _ _ (Or.inr hbackend)
      · exact .stayed _
  case h_2 => exact .stayed _

theorem enter_called (session : Session) (name : String) :
    Called session (.enter name) (session.enter name).2 := by
  unfold enter
  split
  case h_1 backend snapshot hbackend hcurrent =>
    split
    · split
      · exact navigateTo_called session _ backend _ _ (Or.inr hbackend)
      · exact .stayed _
    · exact .stayed _
  case h_2 => exact .stayed _

theorem selectEntry_called (session : Session) (name : String) :
    Called session (.select name) (session.selectEntry name).2 := by
  unfold selectEntry
  cases hcurrent : session.current with
  | none => exact .stayed _
  | some snapshot =>
    rw [Option.any_some]
    split
    case isTrue hchild =>
      have h := Called.selected name snapshot hcurrent hchild
      rwa [hcurrent] at h
    case isFalse => exact .stayed _

theorem restore_called (session : Session) (input : Input) (backends : List Backend)
    (state : NavState) (hbackends : ∀ backend ∈ backends, backend ∈ input.backends) :
    Called session input (session.restore backends state).2 := by
  unfold restore
  split
  case h_1 => exact .stayed _
  case h_2 _ _ backend _ hhead =>
    have hmem := hbackends backend (List.mem_of_head? hhead)
    exact navigateTo_called session input backend _ _ (Or.inl hmem)
  case h_3 _ _ backend hfind =>
    have hmem := hbackends backend (List.mem_of_find?_eq_some hfind)
    dsimp only
    split
    · exact .opened input backend _ _ _ (Or.inl hmem) (Or.inr rfl)
    · exact navigateTo_called session input backend _ _ (Or.inl hmem)

theorem restoreSaved_called (session : Session) (backends : List Backend) :
    Called session (.restoreSaved backends) (session.restoreSaved backends).2 := by
  unfold restoreSaved
  split
  · exact restore_called session _ backends _ (fun _ h ↦ h)
  · exact .stayed _

/-- Steps that a user asks for. -/
def Input.isCall : Input → Bool
  | .respond .. | .compute .. | .advance .. | .process => false
  | _ => true

theorem step_called (session : Session) {input : Input} (hcall : input.isCall = true) :
    Called session input (session.step input) := by
  cases input with
  | navigate backend path rootChange =>
    have hbackend : backend ∈ (Input.navigate backend path rootChange).backends := by
      simp [Input.backends]
    exact navigateTo_called session _ backend path rootChange (Or.inl hbackend)
  | refresh => exact refresh_called session
  | goUp => exact goUp_called session
  | enter name => exact enter_called session name
  | select name => exact selectEntry_called session name
  | restore backends state => exact restore_called session _ backends state fun _ h ↦ h
  | restoreSaved backends => exact restoreSaved_called session backends
  | _ => cases hcall

/-! ### A status worker -/

inductive Worked (session : Session) : Session → Prop
  | computed (before after : List StatusJob) (job : StatusJob) (record : Option StatusRecord)
      (hjobs : session.jobs = before ++ job :: after) (hstage : job.stage = .queued) :
      Worked session
        { session with jobs := before ++ { job with stage := .computed record } :: after }
  | cached (before after : List StatusJob) (job : StatusJob) (record : Option StatusRecord)
      (cache : StatusCache) (hjobs : session.jobs = before ++ job :: after)
      (hstage : job.stage = .computed record) (hstatus : session.status = some cache) :
      Worked session
        { session with
          status := some (cache.complete job.key job.generation record).2
          jobs := before ++ { job with
            stage := .cached (cache.complete job.key job.generation record).1.changed } :: after }
  | uncached (before after : List StatusJob) (job : StatusJob) (record : Option StatusRecord)
      (hjobs : session.jobs = before ++ job :: after) (hstage : job.stage = .computed record)
      (hstatus : session.status = none) :
      Worked session
        { session with jobs := before ++ { job with stage := .cached false } :: after }
  | posted (before after : List StatusJob) (job : StatusJob) (changed : Bool)
      (hjobs : session.jobs = before ++ job :: after) (hstage : job.stage = .cached changed) :
      Worked session
        { session with
          inbox := session.inbox ++ [.status job.path job.key job.generation changed]
          jobs := before ++ { job with stage := .posted } :: after }
  | retired (before after : List StatusJob) (job : StatusJob)
      (hjobs : session.jobs = before ++ job :: after) (hstage : job.stage = .posted) :
      Worked session
        { session with pendingStatus := session.pendingStatus - 1, jobs := before ++ after }

theorem computeStatus_worked (session : Session) (index : Nat) (record : Option StatusRecord) :
    session.computeStatus index record = session ∨
      Worked session (session.computeStatus index record) := by
  unfold computeStatus
  split
  case h_1 job hjob =>
    split
    case isTrue hstage =>
      obtain ⟨before, after, hjobs, hset, -⟩ := exists_split_of_getElem? hjob
      rw [hset]
      exact Or.inr (.computed before after job record hjobs hstage)
    case isFalse => exact Or.inl rfl
  case h_2 => exact Or.inl rfl

theorem advanceStatus_worked (session : Session) (index : Nat) :
    session.advanceStatus index = session ∨ Worked session (session.advanceStatus index) := by
  unfold advanceStatus
  split
  case h_1 => exact Or.inl rfl
  case h_2 job hjob =>
    obtain ⟨before, after, hjobs, hset, herase⟩ := exists_split_of_getElem? hjob
    split
    case h_1 => exact Or.inl rfl
    case h_2 record hstage =>
      right
      cases hstatus : session.status with
      | none =>
        simp only [hset]
        rw [← hstatus]
        exact .uncached before after job record hjobs hstage hstatus
      | some cache =>
        simp only [hset]
        exact .cached before after job record cache hjobs hstage hstatus
    case h_3 changed hstage =>
      rw [hset]
      exact Or.inr (.posted before after job changed hjobs hstage)
    case h_4 hstage =>
      rw [herase]
      exact Or.inr (.retired before after job hjobs hstage)

/-- What lies outside the status requests is out of a worker's reach. -/
theorem Worked.eq {session next : Session} (h : Worked session next) :
    ∃ status jobs pendingStatus news,
      next = { session with status, jobs, pendingStatus, inbox := session.inbox ++ news } ∧
        ∀ update ∈ news, ∃ path key generation changed,
          update = .status path key generation changed := by
  have hsame : session.inbox = session.inbox ++ [] := (List.append_nil _).symm
  cases h with
  | computed before after job record => exact ⟨_, _, _, [], by rw [← hsame], by simp⟩
  | cached before after job record cache => exact ⟨_, _, _, [], by rw [← hsame], by simp⟩
  | uncached before after job record => exact ⟨_, _, _, [], by rw [← hsame], by simp⟩
  | posted before after job changed =>
    refine ⟨_, _, _, [_], rfl, ?_⟩
    intro update hupdate
    exact ⟨_, _, _, _, List.mem_singleton.mp hupdate⟩
  | retired before after job => exact ⟨_, _, _, [], by rw [← hsame], by simp⟩

/-! ### Handling an update -/

/-- The session has taken the update out of its inbox already. -/
inductive Handled (session : Session) : Update → Session → Prop
  | stale (load : Load) (result : Except BackendError (List Entry))
      (hstale : session.backend = none ∨ load.generation ≠ session.generation) :
      Handled session (.listed load result)
        { session with loadsInFlight := session.loadsInFlight - 1 }
  | cancelled (load : Load) (error : BackendError) (hgeneration : load.generation = session.generation)
      (hcancelled : error.isCancelled = true) :
      Handled session (.listed load (.error error))
        { session with loadsInFlight := session.loadsInFlight - 1, loadToken := none }
  | loaded (load : Load) (children : List Entry) (backend : Backend)
      (hbackend : session.backend = some backend)
      (hgeneration : load.generation = session.generation) :
      Handled session (.listed load (.ok children))
        ({ session with
          loadsInFlight := session.loadsInFlight - 1
          loadToken := none }.showLoaded backend load children)
  | reopened (load : Load) (error : BackendError) (backend : Backend)
      (hbackend : session.backend = some backend)
      (hgeneration : load.generation = session.generation)
      (hcancelled : ¬ error.isCancelled = true)
      (hrestoring : session.restoring = some load.generation) :
      Handled session (.listed load (.error error))
        ({ session with
          loadsInFlight := session.loadsInFlight - 1
          loadToken := none
          restoring := none }.openAt backend (target backend backend.root.path))
  | failed (load : Load) (error : BackendError) (backend : Backend)
      (hbackend : session.backend = some backend)
      (hgeneration : load.generation = session.generation)
      (hcancelled : ¬ error.isCancelled = true)
      (hrestoring : session.restoring ≠ some load.generation) :
      Handled session (.listed load (.error error))
        ({ session with
          loadsInFlight := session.loadsInFlight - 1
          loadToken := none
          restoring := none }.showFailed backend load error)
  | status (path key : String) (generation : Nat) (changed : Bool) :
      Handled session (.status path key generation changed)
        (session.handleStatus path key generation changed)

theorem handle_handled (session : Session) (update : Update) :
    Handled session update (session.handle update) := by
  cases update with
  | status path key generation changed => exact .status path key generation changed
  | listed load result =>
    unfold handle handleListing
    dsimp only
    split
    case h_1 hbackend => exact .stale load result (Or.inl hbackend)
    case h_2 backend hbackend =>
      by_cases hgeneration : load.generation = session.generation
      · rw [if_neg (by simp [hgeneration])]
        cases result with
        | ok children => exact .loaded load children backend hbackend hgeneration
        | error error =>
          dsimp only
          split
          case isTrue hcancelled => exact .cancelled load error hgeneration hcancelled
          case isFalse hcancelled =>
            split
            case isTrue hrestoring =>
              exact .reopened load error backend hbackend hgeneration hcancelled
                (by simpa using hrestoring)
            case isFalse hrestoring =>
              exact .failed load error backend hbackend hgeneration hcancelled
                (by simpa using hrestoring)
      · rw [if_pos (by simp [hgeneration])]
        exact .stale load result (Or.inr hgeneration)

/-! ### All steps -/

inductive Moved (session : Session) : Input → Session → Prop
  | called {input : Input} {next : Session} (hcalled : Called session input next) :
      Moved session input next
  | responded (generation : Nat) (result : Except BackendError (List Entry)) (load : Load)
      (hload : session.loads.find? (fun load ↦ load.generation == generation) = some load) :
      Moved session (.respond generation result)
        { session with
          loads := session.loads.filter (fun load ↦ load.generation != generation)
          inbox := session.inbox ++ [.listed load result] }
  | worked {next : Session} (input : Input) (hworked : Worked session next) :
      Moved session input next
  | handled {next : Session} (update : Update) (later : List Update)
      (hinbox : session.inbox = update :: later)
      (hhandled : Handled { session with inbox := later } update next) :
      Moved session .process next

theorem respond_moved (session : Session) (generation : Nat)
    (result : Except BackendError (List Entry)) :
    Moved session (.respond generation result) (session.respond generation result) := by
  unfold respond
  split
  case h_1 => exact .called (.stayed _)
  case h_2 load hload => exact .responded generation result load hload

theorem handleNext_moved (session : Session) : Moved session .process session.handleNext := by
  unfold handleNext
  split
  case h_1 => exact .called (.stayed _)
  case h_2 update later hinbox => exact .handled update later hinbox (handle_handled _ update)

theorem worked_moved {session next : Session} (input : Input)
    (h : next = session ∨ Worked session next) : Moved session input next := by
  rcases h with rfl | h
  · exact .called (.stayed input)
  · exact .worked input h

theorem step_moved (session : Session) (input : Input) :
    Moved session input (session.step input) := by
  cases input with
  | respond generation result => exact respond_moved session generation result
  | compute index record => exact worked_moved _ (session.computeStatus_worked index record)
  | advance index => exact worked_moved _ (session.advanceStatus_worked index)
  | process => exact handleNext_moved session
  | _ => exact .called (session.step_called rfl)

theorem run_concat (session : Session) (inputs : List Input) (input : Input) :
    session.run (inputs ++ [input]) = (session.run inputs).step input := by
  unfold run
  rw [List.foldl_append]
  rfl

theorem run_append (session : Session) (earlier later : List Input) :
    session.run (earlier ++ later) = (session.run earlier).run later :=
  List.foldl_append

end DirectoryBrowser.Session
