import DirectoryBrowser.Proofs.Navigation.WaitingBadges

/-!
# Whom a badge is meant for

An update carries the path and the generation of the snapshot that asked for
it, and it may be handled long after that snapshot has gone. `Addressed` says
what the session needs to know of whatever is still on its way: a request of
the present generation is one for a child of the listing on show, and so is
every key that is waited for. The cache plays no part in it. Where equal local
paths come from equal paths, an update is therefore only announced for what is
on show, with the text that its badge has at that moment.
-/

namespace DirectoryBrowser

/-- Equal local paths come from equal paths, whichever of the backends they come from. -/
def Backend.Faithful (backends : List Backend) : Prop :=
  ∀ one ∈ backends, ∀ other ∈ backends, ∀ path path' key,
    one.localPath? path = some key → other.localPath? path' = some key → path = path'

theorem Backend.faithful_of_storage {backends : List Backend}
    (h : ∀ backend ∈ backends, ∃ storage : Storage, backend.localPath? = storage.localPath?) :
    Backend.Faithful backends := by
  have hsame : ∀ backend ∈ backends, ∀ path key, backend.localPath? path = some key →
      path = key := by
    intro backend hbackend path key hkey
    obtain ⟨storage, hstorage⟩ := h backend hbackend
    exact (Session.places_of_storage hstorage path path key hkey).mp rfl |>.symm
  intro one hone other hother path path' key hkey hkey'
  rw [hsame one hone path key hkey, hsame other hother path' key hkey']

namespace Session

/-- The path is that of a child of the listing on show, and lies at the key. -/
def Lists (session : Session) (path key : String) : Prop :=
  ∃ snapshot entry, session.current = some snapshot ∧ snapshot.state = .loaded ∧
    entry ∈ snapshot.children ∧ path = Path.join snapshot.path entry.name ∧
    snapshot.backend.localPath? path = some key

/-- The text is the badge of a child of the listing on show. -/
def Shows (session : Session) (path text : String) : Prop :=
  ∃ snapshot entry, session.current = some snapshot ∧ snapshot.state = .loaded ∧
    entry ∈ snapshot.children ∧ path = Path.join snapshot.path entry.name ∧
    text = session.statusText path

/-- What a request or an answer on its way may be: one for a path of some backend, and if it is of
the present generation, one for a child of the listing on show. -/
def Addresses (backends : List Backend) (session : Session) (path key : String)
    (generation : Nat) : Prop :=
  (∃ backend ∈ backends, backend.localPath? path = some key) ∧
    generation ≤ session.generation ∧
    (generation = session.generation → session.Lists path key)

structure Addressed (backends : List Backend) (session : Session) : Prop where
  active : ∀ backend, session.backend = some backend → backend ∈ backends
  jobs : ∀ job ∈ session.jobs, session.Addresses backends job.path job.key job.generation
  answers : ∀ answer ∈ session.answers,
    session.Addresses backends answer.path answer.key answer.generation
  waiting : ∀ key ∈ session.waiting, ∃ path, session.Lists path key

variable {backends : List Backend} {session next : Session}

theorem Lists.same {path key : String} (h : session.Lists path key)
    (hcurrent : next.current = session.current) : next.Lists path key := by
  unfold Lists at h ⊢
  rwa [hcurrent]

/-- A listing of which the session has not been given the children has none to ask for. -/
theorem not_lists_of_unloaded {snapshot : Snapshot} (hcurrent : session.current = some snapshot)
    (hstate : snapshot.state ≠ .loaded) (path key : String) : ¬ session.Lists path key := by
  rintro ⟨other, entry, hother, hloaded, -⟩
  cases hcurrent.symm.trans hother
  exact hstate hloaded

namespace Addresses

variable {path key : String} {generation : Nat}

theorem same (h : session.Addresses backends path key generation)
    (hcurrent : next.current = session.current)
    (hgeneration : next.generation = session.generation) :
    next.Addresses backends path key generation := by
  obtain ⟨hplaced, hle, hlists⟩ := h
  refine ⟨hplaced, hle.trans hgeneration.ge, fun heq ↦ ?_⟩
  exact (hlists (heq.trans hgeneration)).same hcurrent

/-- While nothing is listed, whatever is on its way is of an earlier generation. -/
theorem lt_of_unloaded (h : session.Addresses backends path key generation) {snapshot : Snapshot}
    (hcurrent : session.current = some snapshot) (hstate : snapshot.state ≠ .loaded) :
    generation < session.generation := by
  obtain ⟨-, hle, hlists⟩ := h
  refine Nat.lt_of_le_of_ne hle fun heq ↦ ?_
  exact not_lists_of_unloaded hcurrent hstate path key (hlists heq)

theorem late (h : session.Addresses backends path key generation)
    (hlt : generation < next.generation) : next.Addresses backends path key generation :=
  ⟨h.1, Nat.le_of_lt hlt, fun heq ↦ absurd heq (Nat.ne_of_lt hlt)⟩

end Addresses

namespace Addressed

theorem start (backends : List Backend) (status : Option StatusCache) (store : StateStore) :
    Addressed backends (.start status store) where
  active := by simp [Session.start]
  jobs := by simp [Session.start]
  answers := by simp [Session.start, Session.answers]
  waiting := by simp [Session.start]

/-- A step that shows nothing new may only drop what is on its way. -/
theorem same (h : Addressed backends session) (hbackend : next.backend = session.backend)
    (hcurrent : next.current = session.current)
    (hgeneration : next.generation = session.generation)
    (hjobs : ∀ job ∈ next.jobs, job ∈ session.jobs)
    (hanswers : ∀ answer ∈ next.answers, answer ∈ session.answers)
    (hwaiting : ∀ key ∈ next.waiting, key ∈ session.waiting) : Addressed backends next where
  active := by
    rw [hbackend]
    exact h.active
  jobs job hjob := (h.jobs job (hjobs job hjob)).same hcurrent hgeneration
  answers answer hanswer := (h.answers answer (hanswers answer hanswer)).same hcurrent hgeneration
  waiting key hkey := by
    obtain ⟨path, hlists⟩ := h.waiting key (hwaiting key hkey)
    exact ⟨path, hlists.same hcurrent⟩

theorem popped (h : Addressed backends session) {update : Update} {later : List Update}
    (hinbox : session.inbox = update :: later) (loadsInFlight : Nat)
    (loadToken restoring : Option Nat) :
    Addressed backends { session with inbox := later, loadsInFlight, loadToken, restoring } := by
  refine h.same rfl rfl rfl (fun _ ↦ id) (fun answer hanswer ↦ ?_) (fun _ ↦ id)
  unfold Session.answers at hanswer ⊢
  rw [hinbox]
  exact ((List.sublist_cons_self update later).filterMap _).subset hanswer

theorem opened (h : Addressed backends session) {backend : Backend}
    (hbackend : backend ∈ backends) (path : String) :
    Addressed backends (session.openAt backend path) where
  active := by
    intro other hother
    cases hother
    exact hbackend
  jobs job hjob := (h.jobs job hjob).late (Nat.lt_succ_of_le (h.jobs job hjob).2.1)
  answers answer hanswer :=
    (h.answers answer hanswer).late (Nat.lt_succ_of_le (h.answers answer hanswer).2.1)
  waiting := by simp

/-- What takes the place of a placeholder finds nothing on its way to it. -/
theorem replaced (h : Addressed backends session) {placeholder : Snapshot}
    (hcurrent : session.current = some placeholder) (hloading : placeholder.state = .loading)
    (hbackend : next.backend = session.backend)
    (hgeneration : next.generation = session.generation) (hjobs : next.jobs = session.jobs)
    (hanswers : next.answers = session.answers) (hwaiting : next.waiting = session.waiting) :
    Addressed backends next := by
  have hstate : placeholder.state ≠ .loaded := by
    rw [hloading]
    exact SnapshotState.noConfusion
  refine ⟨by rw [hbackend]; exact h.active, ?_, ?_, ?_⟩
  · intro job hjob
    have hold := h.jobs job (hjobs ▸ hjob)
    exact hold.late (hgeneration ▸ hold.lt_of_unloaded hcurrent hstate)
  · intro answer hanswer
    have hold := h.answers answer (hanswers ▸ hanswer)
    exact hold.late (hgeneration ▸ hold.lt_of_unloaded hcurrent hstate)
  · intro key hkey
    obtain ⟨path, hlists⟩ := h.waiting key (hwaiting ▸ hkey)
    exact absurd hlists (not_lists_of_unloaded hcurrent hstate path key)

theorem called {input : Input} (h : Addressed backends session)
    (hcalled : Called session input next)
    (hbackends : ∀ backend ∈ input.backends, backend ∈ backends) : Addressed backends next := by
  cases hcalled with
  | stayed => exact h
  | opened _ backend path restoring selected hbackend =>
    have hopened := h.opened (hbackend.elim (hbackends backend) (h.active backend)) path
    exact hopened.same rfl rfl rfl (fun _ ↦ id) (fun _ ↦ id) (fun _ ↦ id)
  | refreshed backend snapshot path hbackend =>
    have hopened := h.opened (h.active backend hbackend) path
    obtain ⟨status, hdistrust⟩ := distrust_eq
      { session.openAt backend path with selected := session.selected } backend snapshot.path
    rw [hdistrust]
    exact hopened.same rfl rfl rfl (fun _ ↦ id) (fun _ ↦ id) (fun _ ↦ id)
  | selected name =>
    obtain ⟨store, saves, hpersist, -⟩ := persist_eq { session with selected := some name }
    rw [hpersist]
    exact h.same rfl rfl rfl (fun _ ↦ id) (fun _ ↦ id) (fun _ ↦ id)

/-- A worker changes neither whom a request is for nor what is on show. -/
theorem worked (h : Addressed backends session) (hworked : Worked session next) :
    Addressed backends next := by
  have hstaged (before after : List StatusJob) (job : StatusJob) (stage : JobStage)
      (hjobs : session.jobs = before ++ job :: after) :
      ∀ other ∈ before ++ { job with stage } :: after,
        session.Addresses backends other.path other.key other.generation :=
    Tracked.forall_staged stage id (hjobs ▸ h.jobs)
  cases hworked with
  | computed before after job record hjobs =>
    exact ⟨h.active, hstaged before after job _ hjobs, h.answers, h.waiting⟩
  | cached before after job record cache hjobs =>
    exact ⟨h.active, hstaged before after job _ hjobs, h.answers, h.waiting⟩
  | uncached before after job record hjobs =>
    exact ⟨h.active, hstaged before after job _ hjobs, h.answers, h.waiting⟩
  | posted before after job changed hjobs =>
    refine ⟨h.active, hstaged before after job _ hjobs, ?_, h.waiting⟩
    intro answer hanswer
    simp only [Session.answers, List.filterMap_append, List.mem_append] at hanswer
    rcases hanswer with hold | hnew
    · exact h.answers answer hold
    · cases List.mem_singleton.mp hnew
      exact h.jobs job (by simp [hjobs])
  | retired before after job hjobs =>
    refine h.same rfl rfl rfl (fun other hother ↦ ?_) (fun _ ↦ id) (fun _ ↦ id)
    rw [hjobs]
    exact Tracked.mem_split_of_mem hother

/-- Whatever is asked for a child of the listing on show is addressed to it. -/
theorem requested (h : Addressed backends session) {snapshot : Snapshot} {entry : Entry}
    {hit : Option (String × String)} (hcurrent : session.current = some snapshot)
    (hloaded : snapshot.state = .loaded) (hgeneration : snapshot.generation = session.generation)
    (hbackend : snapshot.backend ∈ backends) (hentry : entry ∈ snapshot.children)
    (hrequested : Requested snapshot session entry next hit) : Addressed backends next := by
  cases hrequested with
  | remote => exact h
  | known => exact h
  | awaited cache key hstatus hkey =>
    refine ⟨h.active, h.jobs, h.answers, ?_⟩
    intro other hother
    rcases List.mem_cons.mp hother with rfl | hold
    · exact ⟨_, snapshot, entry, hcurrent, hloaded, hentry, rfl, hkey⟩
    · exact h.waiting other hold
  | submitted cache key hstatus hkey =>
    refine ⟨h.active, ?_, h.answers, h.waiting⟩
    intro job hjob
    rcases List.mem_append.mp hjob with hold | hnew
    · exact h.jobs job hold
    · rw [List.mem_singleton.mp hnew]
      exact ⟨⟨snapshot.backend, hbackend, hkey⟩, hgeneration.le,
        fun _ ↦ ⟨snapshot, entry, hcurrent, hloaded, hentry, rfl, hkey⟩⟩
  | refused => exact h.same rfl rfl rfl (fun _ ↦ id) (fun _ ↦ id) (fun _ ↦ id)

end Addressed

/-! ### Slots that a request leaves alone -/

theorem find?_begin_of_ne (cache : StatusCache) {path other : String} (isDir : Bool)
    (generation : Nat) (hne : path ≠ other) :
    (cache.begin path isDir generation).2.slots.find? other = cache.slots.find? other := by
  unfold StatusCache.begin
  dsimp only
  split
  · exact Table.find?_set_of_ne _ _ hne
  · rfl

/-- Asking for a badge moves no slot but one that was missed. -/
theorem Requested.slot?_eq {snapshot : Snapshot} {entry : Entry} {hit : Option (String × String)}
    {cache : StatusCache} {key : String} (h : Requested snapshot session entry next hit)
    (hstatus : session.status = some cache) (hlookup : cache.lookup key ≠ .miss) :
    ∃ cache', next.status = some cache' ∧ cache'.slots.find? key = cache.slots.find? key := by
  have hmissed (cache' : StatusCache) (place : String) (hstatus' : session.status = some cache')
      (hmiss : cache'.lookup place = .miss) :
      (cache'.begin place entry.isDir snapshot.generation).2.slots.find? key =
        cache.slots.find? key := by
    obtain rfl : cache = cache' := Option.some.inj (hstatus.symm.trans hstatus')
    apply find?_begin_of_ne
    rintro rfl
    exact hlookup hmiss
  cases h with
  | submitted cache' place hstatus' _ hmiss => exact ⟨_, rfl, hmissed cache' place hstatus' hmiss⟩
  | refused cache' place hstatus' _ hmiss => exact ⟨_, rfl, hmissed cache' place hstatus' hmiss⟩
  | _ => exact ⟨cache, hstatus, rfl⟩

theorem lookup_of_find? {cache cache' : StatusCache} {key : String}
    (h : cache'.slots.find? key = cache.slots.find? key) :
    cache'.lookup key = cache.lookup key := by
  unfold StatusCache.lookup
  rw [h]

theorem textFor_congr {cache cache' : StatusCache} {key : String}
    (h : cache'.slots.find? key = cache.slots.find? key) :
    cache'.textFor key = cache.textFor key := by
  unfold StatusCache.textFor
  rw [h]

/-! ### Every step -/

/-- The step shows no badge before it comes to `moment`, and from there on it does nothing but
announce `hits`, all of which are badges on show at that moment. -/
structure Announces (session next moment : Session) (hits : List (String × String)) : Prop where
  next_eq : next = moment.announce hits
  silent : ∃ news, moment.trace = session.trace ++ news ∧
    ∀ event ∈ news, ∀ path text, event ≠ .statusUpdated path text
  shown : ∀ path text, (path, text) ∈ hits → moment.Shows path text

theorem announces_nothing (news : List Event) (htrace : next.trace = session.trace ++ news)
    (hnews : ∀ event ∈ news, ∀ path text, event ≠ .statusUpdated path text) :
    ∃ moment hits, Announces session next moment hits :=
  ⟨next, [], rfl, ⟨news, htrace, hnews⟩, by simp⟩

theorem announces_saves {events : List Event}
    (h : ∀ event ∈ events, ∃ state, event = .saved state) :
    ∀ event ∈ events, ∀ path text, event ≠ .statusUpdated path text := by
  intro event hevent path text heq
  obtain ⟨state, rfl⟩ := h event hevent
  cases heq

theorem Called.announces {input : Input} (h : Called session input next) :
    ∃ moment hits, Announces session next moment hits := by
  cases h with
  | stayed => exact announces_nothing [] (by simp) (by simp)
  | opened _ backend path =>
    exact announces_nothing _ (openAt_trace session backend path) (by simp)
  | refreshed backend snapshot path =>
    obtain ⟨status, hdistrust⟩ := distrust_eq
      { session.openAt backend path with selected := session.selected } backend snapshot.path
    rw [hdistrust]
    exact announces_nothing _ (openAt_trace session backend path) (by simp)
  | selected name =>
    obtain ⟨store, saves, hpersist, hsaves⟩ := persist_eq { session with selected := some name }
    rw [hpersist]
    exact announces_nothing saves rfl (announces_saves hsaves)

namespace Addressed

/-- An update that is announced is one for what is on show. -/
theorem lists_of_isNews (h : Addressed backends session) (htimeline : Timeline session)
    (hfaithful : Backend.Faithful backends) {path key text : String} {generation : Nat}
    {changed : Bool} {later : List Update}
    (hinbox : session.inbox = .status path key generation changed :: later)
    (hnews : session.isNews key generation changed text = true) : session.Lists path key := by
  obtain ⟨⟨backend, hbackend, hplace⟩, -, hlists⟩ := h.answers ⟨path, key, generation, changed⟩
    (Routed.answers_of_inbox hinbox ▸ List.mem_cons_self ..)
  by_cases hnow : generation = session.generation
  · exact hlists hnow
  · have hwaiting : key ∈ session.waiting := by
      simp only [isNews, beq_iff_eq, hnow, if_false, Bool.and_eq_true, List.contains_iff_mem]
        at hnews
      exact hnews.1
    obtain ⟨other, snapshot, entry, hcurrent, hloaded, hentry, hother, hkey⟩ :=
      h.waiting key hwaiting
    have hactive := h.active _ (htimeline.current snapshot hcurrent).2
    obtain rfl : path = other := hfaithful backend hbackend _ hactive path other key hplace hkey
    exact ⟨snapshot, entry, hcurrent, hloaded, hentry, hother, hkey⟩

theorem shows_of_isNews (h : Addressed backends session) (htimeline : Timeline session)
    (hfaithful : Backend.Faithful backends) {cache : StatusCache} {path key : String}
    {generation : Nat} {changed : Bool} {later : List Update}
    (hstatus : session.status = some cache)
    (hinbox : session.inbox = .status path key generation changed :: later)
    (hnews : session.isNews key generation changed (cache.textFor key) = true) :
    session.Shows path (cache.textFor key) := by
  obtain ⟨snapshot, entry, hcurrent, hloaded, hentry, hpath, hkey⟩ :=
    h.lists_of_isNews htimeline hfaithful hinbox hnews
  exact ⟨snapshot, entry, hcurrent, hloaded, hentry, hpath,
    (statusText_eq htimeline hcurrent hkey hstatus).symm⟩

/-- An update that is announced concerns the path exactly if it concerns the key. -/
theorem path_iff_key (h : Addressed backends session) (htimeline : Timeline session)
    (hfaithful : Backend.Faithful backends) {snapshot : Snapshot} {path key : String}
    (hcurrent : session.current = some snapshot)
    (hkey : snapshot.backend.localPath? path = some key) {changedPath changedKey text : String}
    {generation : Nat} {changed : Bool} {later : List Update}
    (hinbox : session.inbox = .status changedPath changedKey generation changed :: later)
    (hnews : session.isNews changedKey generation changed text = true) :
    changedPath = path ↔ changedKey = key := by
  obtain ⟨other, entry, hother, -, -, -, hplace⟩ :=
    h.lists_of_isNews htimeline hfaithful hinbox hnews
  obtain rfl : snapshot = other := Option.some.inj (hcurrent.symm.trans hother)
  have hactive := h.active _ (htimeline.current snapshot hcurrent).2
  constructor
  · rintro rfl
    exact Option.some.inj (hplace.symm.trans hkey)
  · rintro rfl
    exact hfaithful _ hactive _ hactive changedPath path changedKey hplace hkey

theorem answered (h : Addressed backends session) (htimeline : Timeline session)
    (hfaithful : Backend.Faithful backends) {path key : String}
    {generation : Nat} {changed : Bool} {later : List Update}
    (hinbox : session.inbox = .status path key generation changed :: later) :
    ∃ moment hits, Announces session
      (({ session with inbox := later } : Session).handleStatus path key generation changed)
      moment hits := by
  rcases session.status.eq_none_or_eq_some with hnone | ⟨cache, hstatus⟩
  · have hquiet : ({ session with inbox := later } : Session).handleStatus path key generation
        changed = { session with
          inbox := later, waiting := session.waiting.filter (· != key) } := by
      unfold handleStatus
      simp only [hnone]
    rw [hquiet]
    exact announces_nothing [] (by simp) (by simp)
  · have hpopped : ({ session with inbox := later } : Session).status = some cache := hstatus
    rw [handleStatus_of_some hpopped]
    cases hnews : ({ session with inbox := later } : Session).isNews key generation changed
        (cache.textFor key) with
    | false => exact announces_nothing [] (by simp) (by simp)
    | true =>
      refine ⟨{ session with
        inbox := later
        waiting := session.waiting.filter (· != key) }, [(path, cache.textFor key)], ?_, ?_, ?_⟩
      · rw [announce_eq]
        rfl
      · exact ⟨[], by simp, by simp⟩
      · intro other text hhit
        cases List.mem_singleton.mp hhit
        exact h.shows_of_isNews htimeline hfaithful hstatus hinbox hnews

theorem handled (h : Addressed backends session) (htimeline : Timeline session)
    {update : Update} {later : List Update} (hinbox : session.inbox = update :: later)
    (hhandled : Handled { session with inbox := later } update next)
    (hother : ∀ snapshot next, ¬ Arrival session snapshot next) :
    Addressed backends next ∧
      (Backend.Faithful backends → ∃ moment hits, Announces session next moment hits) := by
  have hpopped := h.popped hinbox
  have hquiet {quiet : Session} (news : List Event) (htrace : quiet.trace = session.trace ++ news)
      (hnews : ∀ event ∈ news, ∀ path text, event ≠ .statusUpdated path text) :
      Backend.Faithful backends → ∃ moment hits, Announces session quiet moment hits :=
    fun _ ↦ announces_nothing news htrace hnews
  cases hhandled with
  | stale => exact ⟨hpopped _ _ _, hquiet [] (by simp) (by simp)⟩
  | cancelled => exact ⟨hpopped _ _ _, hquiet [] (by simp) (by simp)⟩
  | loaded load children backend hbackend hgeneration =>
    have harrival : Arrival session _ _ :=
      .mk backend load children later hbackend hinbox hgeneration
    exact absurd harrival (hother _ _)
  | reopened load error backend hbackend =>
    refine ⟨(hpopped _ none none).opened (h.active backend hbackend) _, ?_⟩
    exact hquiet _ (openAt_trace _ backend _) (by simp)
  | failed load error backend hbackend hgeneration =>
    have hcurrent := htimeline.current_of_inbox hinbox hgeneration
    have hfailed : Addressed backends ({ session with
        inbox := later, loadsInFlight := session.loadsInFlight - 1, loadToken := none
        restoring := none }.showFailed backend load error) :=
      (hpopped (session.loadsInFlight - 1) none none).replaced hcurrent rfl rfl rfl rfl rfl rfl
    refine ⟨hfailed, hquiet [_, .loadFailed load.path error] (List.append_assoc ..) (by simp)⟩
  | status path key generation changed =>
    refine ⟨?_, fun hfaithful ↦ h.answered htimeline hfaithful hinbox⟩
    have hfiltered : ∀ other ∈ session.waiting.filter (· != key), other ∈ session.waiting :=
      fun other hother ↦ (List.mem_filter.mp hother).1
    have hstill := hpopped session.loadsInFlight session.loadToken session.restoring
    unfold handleStatus
    split
    · exact hstill.same rfl rfl rfl (fun _ ↦ id) (fun _ ↦ id) hfiltered
    · dsimp only
      split
      · exact hstill.same rfl rfl rfl (fun _ ↦ id) (fun _ ↦ id) hfiltered
      · exact hstill.same rfl rfl rfl (fun _ ↦ id) (fun _ ↦ id) hfiltered

/-- Every step but the arrival of a listing, which goes on to ask for badges. -/
theorem step (h : Addressed backends session) (htimeline : Timeline session) {input : Input}
    (hbackends : ∀ backend ∈ input.backends, backend ∈ backends)
    (hother : input = .process → ∀ snapshot next, ¬ Arrival session snapshot next) :
    Addressed backends (session.step input) ∧ (Backend.Faithful backends →
      ∃ moment hits, Announces session (session.step input) moment hits) := by
  have hmoved := session.step_moved input
  generalize session.step input = next at hmoved ⊢
  cases hmoved with
  | called hcalled => exact ⟨h.called hcalled hbackends, fun _ ↦ hcalled.announces⟩
  | responded generation result load hload =>
    refine ⟨h.same rfl rfl rfl (fun _ ↦ id) ?_ (fun _ ↦ id),
      fun _ ↦ announces_nothing [] (by simp) (by simp)⟩
    simp [Session.answers, Update.answer?]
  | worked _ hworked =>
    refine ⟨h.worked hworked, fun _ ↦ ?_⟩
    obtain ⟨status, jobs, pendingStatus, news, rfl, -⟩ := hworked.eq
    exact announces_nothing [] (by simp) (by simp)
  | handled update later hinbox hhandled =>
    exact h.handled htimeline hinbox hhandled (hother rfl)

end Addressed

end Session

end DirectoryBrowser
