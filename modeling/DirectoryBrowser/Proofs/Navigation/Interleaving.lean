import DirectoryBrowser.Proofs.Navigation.Badges

/-!
# Work that goes on during a call

A step of a session takes a call of the presentation thread from its beginning
to its end. Listings and status workers do not wait for that: they go on
between any two accesses of the call to the cache. Here the two calls that
touch the cache with something else in between, a refresh and the handling of
a listing, are cut where a worker can make a difference, and a log notes when
a request is begun and when its record is stored. A fresh badge is read with
the look-up that finds it: no request for its key is live, so no answer can
come between the two. A call that nothing comes in between is the step itself.

The handling of a status update is not cut. It looks into the cache once, and
what the listeners are told is the text that it has read there. A worker may
store a record after that look and before they are called, but nothing they
are told depends on it: such a record is one that is stored after the step.
-/

namespace DirectoryBrowser

/-- A request as it was passed on, however far it has come since. -/
def StatusJob.request (job : StatusJob) : StatusJob := { job with stage := .queued }

@[simp] theorem StatusJob.request_generation (job : StatusJob) :
    job.request.generation = job.generation := rfl

inductive Happening where
  | begun (request : StatusJob)
  | stored (request : StatusJob) (record : StatusRecord)
  deriving DecidableEq, Repr

/-- What is left of the call that the presentation thread is in. -/
inductive Activity where
  | idle
  | distrusting (backend : Backend) (path : String)
  | asking (snapshot : Snapshot) (entries : List Entry) (hits : List (String × String))
  | claiming (snapshot : Snapshot) (entry : Entry) (key : String) (entries : List Entry)
      (hits : List (String × String))

namespace Session

/-- Steps that are taken outside the presentation thread. -/
def Input.isBackground : Input → Bool
  | .respond .. | .compute .. | .advance .. => true
  | _ => false

/-- Record that the next step of a request would store. -/
def storing? (session : Session) (index : Nat) : Option (StatusJob × StatusRecord) :=
  match session.status, session.jobs[index]? with
  | some cache, some job =>
    match job.stage with
    | .computed (some record) =>
      if (cache.complete job.key job.generation (some record)).1.stored then
        some (job.request, record)
      else none
    | _ => none
  | _, _ => none

end Session

open Session

structure Presentation where
  session : Session
  activity : Activity
  log : List Happening

namespace Presentation

def start (store : StateStore) : Presentation :=
  ⟨.start (some .empty) store, .idle, []⟩

/-- A call begins, and goes on until its first access to the cache. -/
def call (thread : Presentation) (input : Input) : Presentation :=
  let session := thread.session
  match input with
  | .refresh =>
    match session.backend, session.current with
    | some backend, some snapshot =>
      let reloaded := (session.navigateTo backend snapshot.path true).2
      { thread with
        session := { reloaded with selected := session.selected }
        activity := .distrusting backend snapshot.path }
    | _, _ => thread
  | .process =>
    match session.backend, session.inbox with
    | some backend, .listed load (.ok children) :: later =>
      if load.generation = session.generation then
        let snapshot := Snapshot.loaded backend load.path children load.generation
        let answered := { session with
          inbox := later
          loadsInFlight := session.loadsInFlight - 1
          loadToken := none }
        { thread with
          session := (answered.onShow snapshot).persist
          activity := .asking snapshot snapshot.children [] }
      else { thread with session := session.step .process }
    | _, _ => { thread with session := session.step .process }
  | input => { thread with session := session.step input }

/-- The call that is under way goes on to its next access to the cache, or to its end. -/
def resume (thread : Presentation) : Presentation :=
  let session := thread.session
  match thread.activity with
  | .idle => thread
  | .distrusting backend path =>
    { thread with session := session.distrust backend path, activity := .idle }
  | .asking _ [] hits => { thread with session := session.announce hits, activity := .idle }
  | .asking snapshot (entry :: entries) hits =>
    match session.missed? snapshot entry with
    | some key => { thread with activity := .claiming snapshot entry key entries hits }
    | none =>
      let (session, hit) := requestBadge snapshot session entry
      { thread with session, activity := .asking snapshot entries (hits ++ hit.toList) }
  | .claiming snapshot entry key entries hits =>
    let submitted := submit snapshot session entry key
    { session := submitted
      activity := .asking snapshot entries hits
      log := thread.log ++ (submitted.jobs.drop session.jobs.length).map .begun }

inductive Tick where
  | input (input : Input)
  | resume

/-- The presentation thread takes no call before the last one has returned. -/
def tick (thread : Presentation) : Tick → Presentation
  | .resume => thread.resume
  | .input input =>
    if input.isBackground then
      let news := match input with
        | .advance index => (thread.session.storing? index).toList
        | _ => []
      { thread with
        session := thread.session.step input
        log := thread.log ++ news.map fun (request, record) ↦ .stored request record }
    else
      match thread.activity with
      | .idle => thread.call input
      | _ => thread

def run (thread : Presentation) (ticks : List Tick) : Presentation :=
  ticks.foldl tick thread

theorem run_append (thread : Presentation) (earlier later : List Tick) :
    thread.run (earlier ++ later) = (thread.run earlier).run later :=
  List.foldl_append

theorem run_concat (thread : Presentation) (ticks : List Tick) (tick : Tick) :
    thread.run (ticks ++ [tick]) = (thread.run ticks).tick tick := by
  rw [run_append]
  rfl

/-! ### A call that nothing comes in between -/

theorem run_asking (session : Session) (snapshot : Snapshot) (entries : List Entry)
    (hits : List (String × String)) (log : List Happening) :
    ∃ count log',
      (Presentation.mk session (.asking snapshot entries hits) log).run
          (List.replicate count .resume) =
        ⟨(requestBadges snapshot session entries).1.announce
          (hits ++ (requestBadges snapshot session entries).2), .idle, log'⟩ := by
  induction entries generalizing session hits log with
  | nil =>
    refine ⟨1, log, ?_⟩
    rw [requestBadges, List.append_nil]
    rfl
  | cons entry entries ih =>
    cases hmissed : session.missed? snapshot entry with
    | none =>
      have hresume : (Presentation.mk session (.asking snapshot (entry :: entries) hits)
          log).resume = ⟨(requestBadge snapshot session entry).1, .asking snapshot entries
            (hits ++ (requestBadge snapshot session entry).2.toList), log⟩ := by
        simp only [resume, hmissed]
      obtain ⟨count, log', hrun⟩ := ih (requestBadge snapshot session entry).1
        (hits ++ (requestBadge snapshot session entry).2.toList) log
      refine ⟨count + 1, log', ?_⟩
      rw [List.replicate_succ]
      simp only [run, List.foldl_cons, tick] at hrun ⊢
      rw [hresume, hrun, requestBadges, List.append_assoc]
    | some key =>
      have hbadge := requestBadge_of_missed hmissed
      have hresume : (Presentation.mk session (.asking snapshot (entry :: entries) hits)
          log).resume = ⟨session, .claiming snapshot entry key entries hits, log⟩ := by
        simp only [resume, hmissed]
      obtain ⟨count, log', hrun⟩ := ih (submit snapshot session entry key) hits
        (log ++ ((submit snapshot session entry key).jobs.drop session.jobs.length).map .begun)
      refine ⟨count + 2, log', ?_⟩
      rw [List.replicate_succ, List.replicate_succ]
      simp only [run, List.foldl_cons, tick] at hrun ⊢
      rw [hresume]
      simp only [resume]
      rw [hrun, requestBadges, hbadge]
      rfl

/-- A listing that is waited for is handled by showing it and asking for its badges. -/
theorem step_process_of_arrival {session : Session} {backend : Backend} {load : Load}
    {children : List Entry} {later : List Update} (hbackend : session.backend = some backend)
    (hinbox : session.inbox = .listed load (.ok children) :: later)
    (hgeneration : load.generation = session.generation) :
    session.step .process =
      { session with
        inbox := later
        loadsInFlight := session.loadsInFlight - 1
        loadToken := none }.showLoaded backend load children := by
  simp only [Session.step, handleNext, hinbox, handle, handleListing]
  rw [hbackend]
  simp only [hgeneration, bne_self_eq_false, Bool.false_eq_true, if_false]

theorem tick_process_of_arrival {thread : Presentation} {backend : Backend} {load : Load}
    {children : List Entry} {later : List Update} (hactivity : thread.activity = .idle)
    (hbackend : thread.session.backend = some backend)
    (hinbox : thread.session.inbox = .listed load (.ok children) :: later)
    (hgeneration : load.generation = thread.session.generation) :
    let snapshot := Snapshot.loaded backend load.path children load.generation
    thread.tick (.input .process) =
      { thread with
        session := ({ thread.session with
          inbox := later
          loadsInFlight := thread.session.loadsInFlight - 1
          loadToken := none }.onShow snapshot).persist
        activity := .asking snapshot snapshot.children [] } := by
  simp only [tick, Input.isBackground, Bool.false_eq_true, if_false, call, hinbox, hactivity]
  rw [hbackend]
  simp only [hgeneration, if_true]

theorem exists_ticks_step (session : Session) (input : Input) (log : List Happening) :
    ∃ ticks log', (Presentation.mk session .idle log).run ticks =
      ⟨session.step input, .idle, log'⟩ := by
  have hwhole (hcall : (Presentation.mk session .idle log).tick (.input input) =
      ⟨session.step input, .idle, log⟩) : ∃ ticks log',
        (Presentation.mk session .idle log).run ticks = ⟨session.step input, .idle, log'⟩ :=
    ⟨[.input input], log, hcall⟩
  cases input with
  | refresh =>
    cases hbackend : session.backend with
    | none =>
      apply hwhole
      simp [tick, Input.isBackground, call, Session.step, refresh, hbackend]
    | some backend =>
      cases hcurrent : session.current with
      | none =>
        apply hwhole
        simp [tick, Input.isBackground, call, Session.step, refresh, hbackend, hcurrent]
      | some snapshot =>
        refine ⟨[.input .refresh, .resume], log, ?_⟩
        simp [run, tick, Input.isBackground, call, resume, Session.step, refresh, hbackend,
          hcurrent]
  | process =>
    by_cases harrival : ∃ backend load children later, session.backend = some backend ∧
        session.inbox = .listed load (.ok children) :: later ∧
        load.generation = session.generation
    · obtain ⟨backend, load, children, later, hbackend, hinbox, hgeneration⟩ := harrival
      obtain ⟨count, log', hrun⟩ := run_asking
        (({ session with
          inbox := later
          loadsInFlight := session.loadsInFlight - 1
          loadToken := none }.onShow
            (Snapshot.loaded backend load.path children load.generation)).persist)
        (Snapshot.loaded backend load.path children load.generation)
        (Snapshot.loaded backend load.path children load.generation).children [] log
      refine ⟨.input .process :: List.replicate count .resume, log', ?_⟩
      rw [step_process_of_arrival hbackend hinbox hgeneration, run, List.foldl_cons,
        tick_process_of_arrival rfl hbackend hinbox hgeneration]
      exact hrun
    · apply hwhole
      simp only [tick, Input.isBackground, Bool.false_eq_true, if_false, call]
      split
      case h_1 backend load children later hbackend hinbox =>
        rw [if_neg fun hgeneration ↦
          harrival ⟨backend, load, children, later, hbackend, hinbox, hgeneration⟩]
      case h_2 => rfl
  | advance index =>
    refine ⟨[.input (.advance index)], log ++ (session.storing? index).toList.map
      fun (request, record) ↦ .stored request record, ?_⟩
    rfl
  | respond generation result =>
    apply hwhole
    simp [tick, Input.isBackground]
  | compute index record =>
    apply hwhole
    simp [tick, Input.isBackground]
  | navigate backend path rootChange => exact hwhole rfl
  | goUp => exact hwhole rfl
  | enter name => exact hwhole rfl
  | select name => exact hwhole rfl
  | restore backends state => exact hwhole rfl
  | restoreSaved backends => exact hwhole rfl

/-- Every run of a session is also a run in which nothing comes in between. -/
theorem exists_ticks_run (store : StateStore) (inputs : List Input) :
    ∃ ticks log, (start store).run ticks =
      ⟨(Session.start (some .empty) store).run inputs, .idle, log⟩ := by
  induction inputs using List.reverseRecOn with
  | nil => exact ⟨[], [], rfl⟩
  | append_singleton inputs input ih =>
    obtain ⟨ticks, log, hrun⟩ := ih
    obtain ⟨more, log', hstep⟩ :=
      exists_ticks_step ((Session.start (some .empty) store).run inputs) input log
    refine ⟨ticks ++ more, log', ?_⟩
    rw [run_append, hrun, hstep, Session.run_concat]

/-! ### What a tick can do -/

inductive Ticked (thread : Presentation) : Presentation → Prop
  | kept (session : Session) (hsame : SameRequests thread.session session)
      (hgeneration : session.generation = thread.session.generation) :
      Ticked thread { thread with session }
  | called (session : Session) (hidle : thread.activity = .idle)
      (hsame : SameRequests thread.session session)
      (hgeneration : thread.session.generation ≤ session.generation) :
      Ticked thread { thread with session }
  | refreshing (session : Session) (backend : Backend) (path : String)
      (hidle : thread.activity = .idle) (hsame : SameRequests thread.session session)
      (hgeneration : session.generation = thread.session.generation + 1) :
      Ticked thread { thread with session, activity := .distrusting backend path }
  | shown (session : Session) (snapshot : Snapshot) (hidle : thread.activity = .idle)
      (hsame : SameRequests thread.session session)
      (hgeneration : session.generation = thread.session.generation)
      (hsnapshot : snapshot.generation = thread.session.generation) :
      Ticked thread { thread with session, activity := .asking snapshot snapshot.children [] }
  | computed (before after : List StatusJob) (job : StatusJob) (record : Option StatusRecord)
      (hjobs : thread.session.jobs = before ++ job :: after) (hstage : job.stage = .queued) :
      Ticked thread { thread with session := { thread.session with
        jobs := before ++ { job with stage := .computed record } :: after } }
  | cached (before after : List StatusJob) (job : StatusJob) (record : Option StatusRecord)
      (cache : StatusCache) (hjobs : thread.session.jobs = before ++ job :: after)
      (hstage : job.stage = .computed record) (hstatus : thread.session.status = some cache) :
      Ticked thread
        { thread with
          session := { thread.session with
            status := some (cache.complete job.key job.generation record).2
            jobs := before ++ { job with
              stage := .cached (cache.complete job.key job.generation record).1.changed } ::
                after }
          log := thread.log ++
            if (cache.complete job.key job.generation record).1.stored then
              record.toList.map (.stored job.request)
            else [] }
  | uncached (before after : List StatusJob) (job : StatusJob) (record : Option StatusRecord)
      (hjobs : thread.session.jobs = before ++ job :: after) (hstage : job.stage = .computed record)
      (hstatus : thread.session.status = none) :
      Ticked thread { thread with session := { thread.session with
        jobs := before ++ { job with stage := .cached false } :: after } }
  | posted (before after : List StatusJob) (job : StatusJob) (changed : Bool)
      (hjobs : thread.session.jobs = before ++ job :: after)
      (hstage : job.stage = .cached changed) :
      Ticked thread { thread with session := { thread.session with
        inbox := thread.session.inbox ++ [.status job.path job.key job.generation changed]
        jobs := before ++ { job with stage := .posted } :: after } }
  | retired (before after : List StatusJob) (job : StatusJob)
      (hjobs : thread.session.jobs = before ++ job :: after) (hstage : job.stage = .posted) :
      Ticked thread { thread with session := { thread.session with
        pendingStatus := thread.session.pendingStatus - 1, jobs := before ++ after } }
  | distrusted (backend : Backend) (path : String)
      (hactivity : thread.activity = .distrusting backend path) :
      Ticked thread
        { thread with session := thread.session.distrust backend path, activity := .idle }
  | asked (session : Session) (snapshot : Snapshot) (entry : Entry) (entries : List Entry)
      (hits hits' : List (String × String))
      (hactivity : thread.activity = .asking snapshot (entry :: entries) hits)
      (hsame : SameRequests thread.session session)
      (hgeneration : session.generation = thread.session.generation) :
      Ticked thread { thread with session, activity := .asking snapshot entries hits' }
  | missed (snapshot : Snapshot) (entry : Entry) (entries : List Entry)
      (hits : List (String × String)) (cache : StatusCache) (key : String)
      (hactivity : thread.activity = .asking snapshot (entry :: entries) hits)
      (hstatus : thread.session.status = some cache) (hmiss : cache.lookup key = .miss) :
      Ticked thread { thread with activity := .claiming snapshot entry key entries hits }
  | claimed (snapshot : Snapshot) (entry : Entry) (key : String) (entries : List Entry)
      (hits : List (String × String)) (cache : StatusCache)
      (hactivity : thread.activity = .claiming snapshot entry key entries hits)
      (hstatus : thread.session.status = some cache)
      (hbegin : (cache.begin key entry.isDir snapshot.generation).1 = true) :
      Ticked thread
        { session := { thread.session with
            status := some (cache.begin key entry.isDir snapshot.generation).2
            pendingStatus := thread.session.pendingStatus + 1
            jobs := thread.session.jobs ++ [.ofChild snapshot entry key] }
          activity := .asking snapshot entries hits
          log := thread.log ++ [.begun (.ofChild snapshot entry key)] }
  | refused (snapshot : Snapshot) (entry : Entry) (key : String)
      (entries : List Entry) (hits : List (String × String))
      (hactivity : thread.activity = .claiming snapshot entry key entries hits)
      (hrefused : ∀ cache, thread.session.status = some cache →
        (cache.begin key entry.isDir snapshot.generation).1 = false) :
      Ticked thread
        ⟨submit snapshot thread.session entry key, .asking snapshot entries hits, thread.log⟩
  | announced (session : Session) (snapshot : Snapshot) (hits : List (String × String))
      (hactivity : thread.activity = .asking snapshot [] hits)
      (hsame : SameRequests thread.session session)
      (hgeneration : session.generation = thread.session.generation) :
      Ticked thread { thread with session, activity := .idle }

variable (thread : Presentation)

theorem call_ticked {input : Input} (hidle : thread.activity = .idle)
    (hown : input.isBackground = false) : Ticked thread (thread.call input) := by
  unfold call
  dsimp only
  split
  case h_1 =>
    split
    case h_1 backend snapshot hbackend hcurrent =>
      exact .refreshing _ backend snapshot.path hidle ⟨rfl, rfl⟩ rfl
    case h_2 => exact .kept thread.session ⟨rfl, rfl⟩ rfl
  case h_2 =>
    split
    case h_1 backend load children later hbackend hinbox =>
      split
      case isTrue hgeneration =>
        obtain ⟨store, saves, hpersist, -⟩ := onShow_persist_eq { thread.session with
          inbox := later
          loadsInFlight := thread.session.loadsInFlight - 1
          loadToken := none } (Snapshot.loaded backend load.path children load.generation)
        rw [hpersist]
        exact .shown _ _ hidle ⟨rfl, rfl⟩ rfl hgeneration
      case isFalse hgeneration =>
        obtain ⟨hsame, hle⟩ := thread.session.sameRequests_handleNext (by
          intro _ other _ _ _ hother
          rw [hinbox] at hother
          cases hother
          exact hgeneration)
        exact .called _ hidle hsame hle
    case h_2 hnone =>
      obtain ⟨hsame, hle⟩ := thread.session.sameRequests_handleNext (by
        intro backend load children later hbackend hinbox
        exact absurd hinbox (hnone backend load children later hbackend))
      exact .called _ hidle hsame hle
  case h_3 hrefresh hprocess =>
    have hcall : input.isCall = true := by
      cases input with
      | process => exact absurd rfl hprocess
      | respond => cases hown
      | compute => cases hown
      | advance => cases hown
      | _ => rfl
    obtain ⟨hsame, hle⟩ := sameRequests_called (thread.session.step_called hcall) hrefresh
    exact .called _ hidle hsame hle

theorem resume_ticked : Ticked thread thread.resume := by
  unfold resume
  dsimp only
  split
  case h_1 => exact .kept thread.session ⟨rfl, rfl⟩ rfl
  case h_2 backend path hactivity => exact .distrusted backend path hactivity
  case h_3 snapshot hits hactivity =>
    rw [announce_eq]
    exact .announced _ snapshot hits hactivity ⟨rfl, rfl⟩ rfl
  case h_4 snapshot entry entries hits hactivity =>
    split
    case h_1 key hmissed =>
      unfold missed? at hmissed
      split at hmissed
      case h_1 cache place hstatus hplace =>
        split at hmissed
        case isTrue hmiss =>
          cases hmissed
          exact .missed snapshot entry entries hits cache _ hactivity hstatus hmiss
        case isFalse => cases hmissed
      case h_2 => cases hmissed
    case h_2 hmissed =>
      obtain ⟨hsame, hgeneration⟩ := thread.session.sameRequests_requestBadge hmissed
      exact .asked _ snapshot entry entries hits _ hactivity hsame hgeneration
  case h_5 snapshot entry key entries hits hactivity =>
    by_cases hbegin : ∃ cache, thread.session.status = some cache ∧
        (cache.begin key entry.isDir snapshot.generation).1 = true
    · obtain ⟨cache, hstatus, hbegin⟩ := hbegin
      rw [submit_of_claimed hstatus hbegin]
      simp only [List.drop_left, List.map_cons, List.map_nil]
      exact .claimed snapshot entry key entries hits cache hactivity hstatus hbegin
    · have hrefused : ∀ cache, thread.session.status = some cache →
          (cache.begin key entry.isDir snapshot.generation).1 = false := by
        intro cache hstatus
        exact Bool.not_eq_true _ ▸ fun h ↦ hbegin ⟨cache, hstatus, h⟩
      have hjobs : (submit snapshot thread.session entry key).jobs = thread.session.jobs := by
        cases hstatus : thread.session.status with
        | none => simp [submit, hstatus]
        | some cache => rw [submit_of_refused hstatus (hrefused cache hstatus)]
      rw [hjobs, List.drop_length, List.map_nil, List.append_nil]
      exact .refused snapshot entry key entries hits hactivity hrefused

theorem tick_compute_ticked (index : Nat) (record : Option StatusRecord) :
    Ticked thread (thread.tick (.input (.compute index record))) := by
  have htick : thread.tick (.input (.compute index record)) =
      { thread with session := thread.session.computeStatus index record } := by
    simp [tick, Input.isBackground, Session.step]
  rw [htick]
  unfold computeStatus
  split
  case h_1 job hjob =>
    split
    case isTrue hstage =>
      obtain ⟨before, after, hjobs, hset, -⟩ := exists_split_of_getElem? hjob
      rw [hset]
      exact .computed before after job record hjobs hstage
    case isFalse => exact .kept _ ⟨rfl, rfl⟩ rfl
  case h_2 => exact .kept _ ⟨rfl, rfl⟩ rfl

/-- Nothing is stored but the record of a request that has been computed. -/
theorem storing?_eq_none {session : Session} {index : Nat} {job : StatusJob}
    (hjob : session.jobs[index]? = some job) (hstage : ∀ record, job.stage ≠ .computed record) :
    session.storing? index = none := by
  unfold storing?
  rw [hjob]
  split
  case h_1 cache other hstatus hother =>
    cases hother
    split
    case h_1 record hcomputed => exact absurd hcomputed (hstage _)
    case h_2 => rfl
  case h_2 => rfl

theorem storing?_of_computed {session : Session} {index : Nat} {job : StatusJob}
    {cache : StatusCache} {record : Option StatusRecord}
    (hjob : session.jobs[index]? = some job) (hstage : job.stage = .computed record)
    (hstatus : session.status = some cache) :
    (session.storing? index).toList.map
        (fun (request, record) ↦ Happening.stored request record) =
      if (cache.complete job.key job.generation record).1.stored then
        record.toList.map (.stored job.request)
      else [] := by
  unfold storing?
  rw [hjob, hstatus]
  simp only [hstage]
  cases record with
  | none => simp
  | some record =>
    dsimp only
    split
    · rfl
    · rfl

theorem tick_advance_ticked (index : Nat) :
    Ticked thread (thread.tick (.input (.advance index))) := by
  have htick : thread.tick (.input (.advance index)) =
      { thread with
        session := thread.session.advanceStatus index
        log := thread.log ++ (thread.session.storing? index).toList.map
          fun (request, record) ↦ .stored request record } := rfl
  have hquiet (hnone : thread.session.storing? index = none) :
      thread.tick (.input (.advance index)) =
        { thread with session := thread.session.advanceStatus index } := by
    rw [htick, hnone, Option.toList_none, List.map_nil, List.append_nil]
  cases hjob : thread.session.jobs[index]? with
  | none =>
    rw [hquiet (by simp [storing?, hjob])]
    simp only [advanceStatus, hjob]
    exact .kept _ ⟨rfl, rfl⟩ rfl
  | some job =>
    obtain ⟨before, after, hjobs, hset, herase⟩ := exists_split_of_getElem? hjob
    cases hstage : job.stage with
    | computed record =>
      by_cases hnone : thread.session.status = none
      · rw [hquiet (by simp [storing?, hnone])]
        simp only [advanceStatus, hjob, hset, hstage, hnone]
        rw [← hnone]
        exact .uncached before after job record hjobs hstage hnone
      · obtain ⟨cache, hstatus⟩ := Option.ne_none_iff_exists'.mp hnone
        rw [htick, storing?_of_computed hjob hstage hstatus]
        simp only [advanceStatus, hjob, hset, hstage]
        rw [hstatus]
        exact .cached before after job record cache hjobs hstage hstatus
    | queued =>
      rw [hquiet (storing?_eq_none hjob (by simp [hstage]))]
      simp only [advanceStatus, hjob, hstage]
      exact .kept _ ⟨rfl, rfl⟩ rfl
    | cached changed =>
      rw [hquiet (storing?_eq_none hjob (by simp [hstage]))]
      simp only [advanceStatus, hjob, hset, hstage]
      exact .posted before after job changed hjobs hstage
    | posted =>
      rw [hquiet (storing?_eq_none hjob (by simp [hstage]))]
      simp only [advanceStatus, hjob, herase, hstage]
      exact .retired before after job hjobs hstage

theorem tick_respond_ticked (generation : Nat) (result : Except BackendError (List Entry)) :
    Ticked thread (thread.tick (.input (.respond generation result))) := by
  have htick : thread.tick (.input (.respond generation result)) =
      { thread with session := thread.session.respond generation result } := by
    simp [tick, Input.isBackground, Session.step]
  rw [htick]
  unfold respond
  split
  · exact .kept _ ⟨rfl, rfl⟩ rfl
  · exact .kept _ ⟨rfl, rfl⟩ rfl

theorem tick_ticked (tick : Tick) : Ticked thread (thread.tick tick) := by
  cases tick with
  | resume => exact thread.resume_ticked
  | input input =>
    by_cases hbackground : input.isBackground = true
    · cases input with
      | respond generation result => exact thread.tick_respond_ticked generation result
      | compute index record => exact thread.tick_compute_ticked index record
      | advance index => exact thread.tick_advance_ticked index
      | _ => cases hbackground
    · simp only [Presentation.tick, hbackground, Bool.false_eq_true, if_false]
      split
      case h_1 hidle =>
        exact thread.call_ticked hidle (Bool.not_eq_true _ ▸ hbackground)
      case h_2 => exact .kept _ ⟨rfl, rfl⟩ rfl

end Presentation

end DirectoryBrowser
