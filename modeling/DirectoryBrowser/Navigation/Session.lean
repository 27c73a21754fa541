import DirectoryBrowser.Breadcrumb
import DirectoryBrowser.Navigation.SavedState
import DirectoryBrowser.Navigation.Snapshot
import DirectoryBrowser.Status.Cache

/-!
# Browsing sessions

A session holds what the navigator knows together with the work it has
started: listings that have not returned, status requests on their way
through the workers, and the updates they have posted. Every navigation
opens a new generation, and a listing of an older generation is dropped
when it arrives, so the last navigation wins whatever finishes first.
-/

namespace DirectoryBrowser

structure LoadFailure where
  path : String
  message : String
  deriving DecidableEq, Repr

/-- A listing under way. Its cancel token goes by its generation. -/
structure Load where
  generation : Nat
  path : String
  backend : Backend

/-- How far a status request has come. Its answer is cached, then posted, and only then does the
request stop counting as pending. -/
inductive JobStage where
  | queued
  | computed (record : Option StatusRecord)
  | cached (changed : Bool)
  | posted
  deriving DecidableEq, Repr

structure StatusJob where
  path : String
  key : String
  isDir : Bool
  generation : Nat
  stage : JobStage
  deriving DecidableEq, Repr

/-- Request for the badge of one child of a snapshot. -/
def StatusJob.ofChild (snapshot : Snapshot) (entry : Entry) (key : String) : StatusJob :=
  ⟨Path.join snapshot.path entry.name, key, entry.isDir, snapshot.generation, .queued⟩

/-- What background work posts to the session. -/
inductive Update where
  | listed (load : Load) (result : Except BackendError (List Entry))
  | status (path key : String) (generation : Nat) (changed : Bool)

/-- What a session lets the outside see, in the order in which it happens. -/
inductive Event where
  | published (snapshot : Snapshot)
  | loadFailed (path : String) (error : BackendError)
  | statusUpdated (path text : String)
  | saved (state : NavState)
  | dispatched (load : Load)

structure Session where
  backend : Option Backend
  current : Option Snapshot
  generation : Nat
  /-- Token of the listing whose response has not been handled. -/
  loadToken : Option Nat
  loadsInFlight : Nat
  /-- Generation of a load that replays a saved location. -/
  restoring : Option Nat
  failure : Option LoadFailure
  selected : Option String
  status : Option StatusCache
  /-- Keys of the current snapshot that a request of an earlier one will answer. -/
  waiting : List String
  store : StateStore
  loads : List Load
  cancelled : List Nat
  jobs : List StatusJob
  pendingStatus : Nat
  inbox : List Update
  trace : List Event

namespace Session

def start (status : Option StatusCache) (store : StateStore) : Session :=
  { backend := none, current := none, generation := 0, loadToken := none, loadsInFlight := 0
    restoring := none, failure := none, selected := none, status, waiting := [], store
    loads := [], cancelled := [], jobs := [], pendingStatus := 0, inbox := [], trace := [] }

def emit (session : Session) (event : Event) : Session :=
  { session with trace := session.trace ++ [event] }

def publish (session : Session) (snapshot : Snapshot) : Session :=
  { session with current := some snapshot }.emit (.published snapshot)

/-- Badge of a path on the active backend, if it has one. -/
def statusText (session : Session) (path : String) : String :=
  match session.status, session.backend with
  | some cache, some backend => ((backend.localPath? path).map cache.textFor).getD ""
  | _, _ => ""

def breadcrumbs (session : Session) : List Breadcrumb :=
  match session.current with
  | some snapshot =>
    Breadcrumb.trail snapshot.backend.root.title snapshot.backend.root.path snapshot.path
  | none => []

/-- Path a navigation leads to. -/
def target (backend : Backend) (path : String) : String :=
  Path.normalize (Path.expandHome path backend.home)

def isShowing (session : Session) (backend : Backend) (path : String) : Bool :=
  session.current.any fun snapshot ↦
    snapshot.path == path && snapshot.backend.root.key == backend.root.key

/-- Tells the listing that is waited for that nobody waits any more. A session that ends does no
more than this. -/
def cancelLoad (session : Session) : Session :=
  { session with
    cancelled := session.loadToken.toList ++ session.cancelled
    loadToken := none }

/-- Starts a load of a path that needs no more expansion: the load before it is cancelled, and a
placeholder takes the place of what is on show. -/
def openAt (session : Session) (backend : Backend) (path : String) : Session :=
  let generation := session.generation + 1
  let opened := { session.cancelLoad with
    generation
    restoring := none
    selected := none
    waiting := []
    backend := some backend }.publish (Snapshot.loading backend path generation)
  let load : Load := ⟨generation, path, backend⟩
  { opened with
    loadToken := some generation
    loadsInFlight := opened.loadsInFlight + 1
    loads := opened.loads ++ [load] }.emit (.dispatched load)

/-- Refuses to load what is already on show, unless the root changes. -/
def navigateTo (session : Session) (backend : Backend) (path : String) (rootChange : Bool) :
    Bool × Session :=
  let path := target backend path
  if !rootChange && session.isShowing backend path then (false, session)
  else (true, session.openAt backend path)

/-- Makes every badge at or below a directory stale, as of the present generation. -/
def distrust (session : Session) (backend : Backend) (path : String) : Session :=
  match session.status, backend.localPath? path with
  | some cache, some key =>
    { session with status := some (cache.invalidateUnder key session.generation) }
  | _, _ => session

/-- Reloads what is on show, and then distrusts every badge at or below it. -/
def refresh (session : Session) : Bool × Session :=
  match session.backend, session.current with
  | some backend, some snapshot =>
    let reloaded := (session.navigateTo backend snapshot.path true).2
    (true, { reloaded with selected := session.selected }.distrust backend snapshot.path)
  | _, _ => (false, session)

def goUp (session : Session) : Bool × Session :=
  match session.backend, session.current with
  | some backend, some snapshot =>
    if Path.normalize snapshot.path == Path.normalize snapshot.backend.root.path then
      (false, session)
    else
      match Path.parent? snapshot.path with
      | some parent => session.navigateTo backend parent false
      | none => (false, session)
  | _, _ => (false, session)

def enter (session : Session) (name : String) : Bool × Session :=
  match session.backend, session.current with
  | some backend, some snapshot =>
    match snapshot.child? name with
    | some entry =>
      if entry.isDir then session.navigateTo backend (Path.join snapshot.path name) false
      else (false, session)
    | none => (false, session)
  | _, _ => (false, session)

/-- Location of a loaded snapshot, as it is saved. -/
def locationOf (snapshot : Snapshot) (selected : Option String) : NavState :=
  { rootUrl := snapshot.backend.root.key
    directory := snapshot.path
    treeDirectory := snapshot.path
    entry := selected }

/-- Only what has been loaded is worth coming back to. -/
def persist (session : Session) : Session :=
  match session.current with
  | some snapshot =>
    if snapshot.isLoaded then
      let state := locationOf snapshot session.selected
      match session.store.save? state with
      | some store => { session with store }.emit (.saved state)
      | none => session
    else session
  | none => session

def selectEntry (session : Session) (name : String) : Bool × Session :=
  if session.current.any fun snapshot ↦ (snapshot.child? name).isSome then
    (true, { session with selected := some name }.persist)
  else (false, session)

/-- Replays a saved location. A backend that is gone, or a path that is not inside it, gives way to
a root; so does, later on, a path whose listing fails. -/
def restore (session : Session) (backends : List Backend) (state : NavState) : Bool × Session :=
  match backends.find? (fun backend ↦ backend.root.key == state.rootUrl), backends.head? with
  | none, none => (false, session)
  | none, some backend => session.navigateTo backend backend.root.path true
  | some backend, _ =>
    let path := Path.normalize state.directory
    if path.toList.head? == some '/' && Path.isUnder backend.root.path path then
      let loading := (session.navigateTo backend path true).2
      (true, { loading with restoring := some loading.generation, selected := state.entry })
    else session.navigateTo backend backend.root.path true

def restoreSaved (session : Session) (backends : List Backend) : Bool × Session :=
  match session.store.load with
  | some state => session.restore backends state
  | none => (false, session)

/-- Claims a key that was missed, and passes the request on to the workers. -/
def submit (snapshot : Snapshot) (session : Session) (entry : Entry) (key : String) : Session :=
  match session.status with
  | none => session
  | some cache =>
    let (claimed, cache) := cache.begin key entry.isDir snapshot.generation
    if claimed then
      { session with
        status := some cache
        pendingStatus := session.pendingStatus + 1
        jobs := session.jobs ++ [.ofChild snapshot entry key] }
    else { session with status := some cache }

/-- Asks for the badge of one child. A badge that is fresh is returned, to be announced once all
children have been gone through. -/
def requestBadge (snapshot : Snapshot) (session : Session) (entry : Entry) :
    Session × Option (String × String) :=
  let path := Path.join snapshot.path entry.name
  match session.status, snapshot.backend.localPath? path with
  | some cache, some key =>
    match cache.lookup key with
    | .hit _ =>
      let text := cache.textFor key
      (session, if text.isEmpty then none else some (path, text))
    | .inFlight => ({ session with waiting := key :: session.waiting }, none)
    | .miss => (submit snapshot session entry key, none)
  | _, _ => (session, none)

def requestBadges (snapshot : Snapshot) (session : Session) :
    List Entry → Session × List (String × String)
  | [] => (session, [])
  | entry :: entries =>
    let (session, hit) := requestBadge snapshot session entry
    let (session, hits) := requestBadges snapshot session entries
    (session, hit.toList ++ hits)

def announce (session : Session) (hits : List (String × String)) : Session :=
  hits.foldl (fun session (path, text) ↦ session.emit (.statusUpdated path text)) session

def requestStatus (session : Session) (snapshot : Snapshot) : Session :=
  let (session, hits) := requestBadges snapshot session snapshot.children
  session.announce hits

/-- A selection survives only while its entry does. -/
def keepSelected (snapshot : Snapshot) (selected : Option String) : Option String :=
  selected.filter fun name ↦ (snapshot.child? name).isSome

/-- Puts a listing on show. Nothing has been saved or asked for yet. -/
def onShow (session : Session) (snapshot : Snapshot) : Session :=
  { session with
    failure := none
    restoring := none
    selected := keepSelected snapshot session.selected }.publish snapshot

def showLoaded (session : Session) (backend : Backend) (load : Load) (children : List Entry) :
    Session :=
  let snapshot := Snapshot.loaded backend load.path children load.generation
  (session.onShow snapshot).persist.requestStatus snapshot

def showFailed (session : Session) (backend : Backend) (load : Load) (error : BackendError) :
    Session :=
  let failed := { session with failure := some ⟨load.path, error.message⟩ }
  (failed.publish (Snapshot.failed backend load.path error.message load.generation)).emit
    (.loadFailed load.path error)

def handleListing (session : Session) (load : Load)
    (result : Except BackendError (List Entry)) : Session :=
  match session.backend with
  | none => session
  | some backend =>
    if load.generation != session.generation then session
    else
      let answered := { session with loadToken := none }
      match result with
      | .ok children => answered.showLoaded backend load children
      | .error error =>
        if error.isCancelled then answered
        else
          let replaying := answered.restoring == some load.generation
          let answered := { answered with restoring := none }
          if replaying then (answered.navigateTo backend backend.root.path true).2
          else answered.showFailed backend load error

/-- An answer for the snapshot on show is announced when it moved the badge. One that an earlier
snapshot asked for is news to a snapshot that waited for it, unless there is nothing to show. -/
def isNews (session : Session) (key : String) (generation : Nat) (changed : Bool)
    (text : String) : Bool :=
  if generation == session.generation then changed
  else session.waiting.contains key && !text.isEmpty

/-- Whichever request an answer comes from, nobody waits for its key any more. -/
def handleStatus (session : Session) (path key : String) (generation : Nat) (changed : Bool) :
    Session :=
  let answered := { session with waiting := session.waiting.filter (· != key) }
  match session.status with
  | none => answered
  | some cache =>
    let text := cache.textFor key
    if session.isNews key generation changed text then answered.emit (.statusUpdated path text)
    else answered

def handle (session : Session) : Update → Session
  | .listed load result =>
    { session with loadsInFlight := session.loadsInFlight - 1 }.handleListing load result
  | .status path key generation changed => session.handleStatus path key generation changed

/-- Handles the oldest update, if there is one. -/
def handleNext (session : Session) : Session :=
  match session.inbox with
  | [] => session
  | update :: inbox => { session with inbox }.handle update

/-- Handling an update posts none, so all that are there are handled in one pass. -/
def processUpdates (session : Session) : Nat × Session :=
  (session.inbox.length,
    session.inbox.foldl handle { session with inbox := [] })

def isIdle (session : Session) : Bool :=
  session.loadsInFlight == 0 && session.pendingStatus == 0 && session.inbox.isEmpty

/-! ### Background work -/

def isCancelled (session : Session) (generation : Nat) : Bool :=
  session.cancelled.contains generation

/-- The listing of a generation returns. -/
def respond (session : Session) (generation : Nat) (result : Except BackendError (List Entry)) :
    Session :=
  match session.loads.find? (fun load ↦ load.generation == generation) with
  | none => session
  | some load =>
    { session with
      loads := session.loads.filter (fun load ↦ load.generation != generation)
      inbox := session.inbox ++ [.listed load result] }

/-- A worker has computed the answer to a queued request. -/
def computeStatus (session : Session) (index : Nat) (record : Option StatusRecord) : Session :=
  match session.jobs[index]? with
  | some job =>
    if job.stage = .queued then
      { session with jobs := session.jobs.set index { job with stage := .computed record } }
    else session
  | none => session

/-- The next step of a request whose answer is known: into the cache, into the inbox, and off the
count of pending requests. -/
def advanceStatus (session : Session) (index : Nat) : Session :=
  match session.jobs[index]? with
  | none => session
  | some job =>
    match job.stage with
    | .queued => session
    | .computed record =>
      let (completion, status) :=
        match session.status with
        | some cache =>
          let (completion, cache) := cache.complete job.key job.generation record
          (completion, some cache)
        | none => (⟨false, false⟩, none)
      { session with
        status
        jobs := session.jobs.set index { job with stage := .cached completion.changed } }
    | .cached changed =>
      { session with
        inbox := session.inbox ++ [.status job.path job.key job.generation changed]
        jobs := session.jobs.set index { job with stage := .posted } }
    | .posted =>
      { session with
        pendingStatus := session.pendingStatus - 1
        jobs := session.jobs.eraseIdx index }

/-- Takes the oldest status request from its question to the handling of its update. -/
def settleStatus (session : Session) (record : Option StatusRecord) : Nat × Session :=
  let session := session.computeStatus 0 record
  (((session.advanceStatus 0).advanceStatus 0).advanceStatus 0).processUpdates

/-- Everything that can happen to a session. -/
inductive Input where
  | navigate (backend : Backend) (path : String) (rootChange : Bool)
  | refresh
  | goUp
  | enter (name : String)
  | select (name : String)
  | restore (backends : List Backend) (state : NavState)
  | restoreSaved (backends : List Backend)
  | respond (generation : Nat) (result : Except BackendError (List Entry))
  | compute (index : Nat) (record : Option StatusRecord)
  | advance (index : Nat)
  | process

def step (session : Session) : Input → Session
  | .navigate backend path rootChange => (session.navigateTo backend path rootChange).2
  | .refresh => session.refresh.2
  | .goUp => session.goUp.2
  | .enter name => (session.enter name).2
  | .select name => (session.selectEntry name).2
  | .restore backends state => (session.restore backends state).2
  | .restoreSaved backends => (session.restoreSaved backends).2
  | .respond generation result => session.respond generation result
  | .compute index record => session.computeStatus index record
  | .advance index => session.advanceStatus index
  | .process => session.handleNext

def run (session : Session) (inputs : List Input) : Session :=
  inputs.foldl step session

end Session

end DirectoryBrowser
