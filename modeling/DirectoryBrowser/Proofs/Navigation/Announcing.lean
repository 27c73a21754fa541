import DirectoryBrowser.Proofs.Navigation.Addressing
import DirectoryBrowser.Proofs.Navigation.Idleness

/-!
# What a tick announces

A call that asks for the badges of a listing announces those that are fresh
only when it has gone through all children, and status workers go on in the
meantime. `Paced` says what every tick does, down to the child that is asked
for next, and `Steady` is what holds between any two ticks, whatever the cache
held at the start: whoever is asked for is a child of the listing on show, and
no answer on its way can touch a badge that has been found fresh. Whatever a
tick announces is therefore the badge of a child at that moment.
-/

namespace DirectoryBrowser

namespace Session

open StatusCache

/-- No answer on its way can touch a slot that waits for none. -/
def Guards (session : Session) : Prop :=
  ∀ cache, session.status = some cache → Guarded cache (openTickets session.jobs)

/-- The listing is on show, and what has been found for it are fresh badges of its children. -/
structure Found (snapshot : Snapshot) (hits : List (String × String)) (session : Session) :
    Prop where
  current : session.current = some snapshot
  loaded : snapshot.state = .loaded
  fresh : ∀ path text, (path, text) ∈ hits → ∃ entry ∈ snapshot.children, ∃ cache key record,
    path = Path.join snapshot.path entry.name ∧ snapshot.backend.localPath? path = some key ∧
      session.status = some cache ∧ cache.lookup key = .hit record ∧ text = cache.textFor key

variable {snapshot : Snapshot} {entry : Entry} {key : String} {cache : StatusCache}
  {hits : List (String × String)} {session next : Session}

/-- A tick of a listing or of a worker is none of the session's own. -/
theorem background_step (session : Session) {input : Input} (h : input.isBackground = true) :
    (∃ loads inbox, session.step input = { session with loads, inbox } ∧
      SameAnswers session (session.step input)) ∨ Worked session (session.step input) := by
  have hworked (h : session.step input = session ∨ Worked session (session.step input)) :
      (∃ loads inbox, session.step input = { session with loads, inbox } ∧
        SameAnswers session (session.step input)) ∨ Worked session (session.step input) := by
    refine h.imp_left fun hsame ↦ ?_
    rw [hsame]
    exact ⟨_, _, rfl, ⟨rfl, rfl⟩, rfl, rfl⟩
  cases input with
  | respond generation result =>
    left
    simp only [Session.step]
    unfold respond
    split
    case h_1 => exact ⟨_, _, rfl, ⟨⟨rfl, rfl⟩, rfl, rfl⟩⟩
    case h_2 => exact ⟨_, _, rfl, ⟨⟨rfl, rfl⟩, rfl, by simp [Session.answers, Update.answer?]⟩⟩
  | compute index record => exact hworked (session.computeStatus_worked index record)
  | advance index => exact hworked (session.advanceStatus_worked index)
  | _ => cases h

theorem background_current (session : Session) {input : Input} (h : input.isBackground = true) :
    (session.step input).current = session.current := by
  rcases session.background_step h with ⟨loads, inbox, hnext, -⟩ | hworked
  · rw [hnext]
  · obtain ⟨status, jobs, pendingStatus, news, hnext, -⟩ := hworked.eq
    rw [hnext]

theorem not_pending_of_hit {record : StatusRecord} (hlookup : cache.lookup key = .hit record) :
    ∀ slot, cache.slots.find? key = some slot → slot.pending = false := by
  intro slot hslot
  obtain ⟨held, hheld, hpending, -⟩ := lookup_eq_hit_iff.mp hlookup
  cases hslot.symm.trans hheld
  exact hpending

theorem submit_requested
    (hkey : snapshot.backend.localPath? (Path.join snapshot.path entry.name) = some key) :
    Requested snapshot session entry (submit snapshot session entry key) none ∨
      submit snapshot session entry key = session := by
  cases hstatus : session.status with
  | none =>
    right
    unfold submit
    simp only [hstatus]
  | some cache =>
    cases hbegin : (cache.begin key entry.isDir snapshot.generation).1 with
    | true =>
      rw [submit_of_claimed hstatus hbegin]
      exact Or.inl (.submitted cache key hstatus hkey (miss_of_granted hbegin).1 hbegin)
    | false =>
      rw [submit_of_refused hstatus hbegin, begin_of_refused hbegin, ← hstatus]
      exact Or.inr rfl

namespace Found

/-- A step keeps what has been found if it leaves the slots of fresh badges alone. -/
theorem same (h : Found snapshot hits session) (hcurrent : next.current = session.current)
    (hfind : ∀ cache key record, session.status = some cache → cache.lookup key = .hit record →
      ∃ cache', next.status = some cache' ∧ cache'.slots.find? key = cache.slots.find? key) :
    Found snapshot hits next where
  current := hcurrent.trans h.current
  loaded := h.loaded
  fresh path text hhit := by
    obtain ⟨entry, hentry, cache, key, record, hpath, hkey, hstatus, hlookup, htext⟩ :=
      h.fresh path text hhit
    obtain ⟨cache', hstatus', hsame⟩ := hfind cache key record hstatus hlookup
    exact ⟨entry, hentry, cache', key, record, hpath, hkey, hstatus',
      (lookup_of_find? hsame).trans hlookup, htext.trans (textFor_congr hsame).symm⟩

theorem worked (h : Found snapshot hits session) (hguards : session.Guards)
    (hworked : Worked session next) : Found snapshot hits next := by
  cases hworked with
  | cached before after job record cache hjobs hstage hstatus =>
    refine h.same rfl ?_
    intro cache' key held hstatus' hlookup
    obtain rfl : cache = cache' := Option.some.inj (hstatus.symm.trans hstatus')
    have hticket : job.ticket ∈ openTickets session.jobs := by
      rw [hjobs, openTickets_append, openTickets_cons, if_pos (job.isOpen_of_computed hstage)]
      simp
    have hheld := (hguards cache hstatus).awaits_or_lt job.ticket hticket
    exact ⟨_, rfl, find?_complete_of_idle record hheld (not_pending_of_hit hlookup)⟩
  | _ => exact h.same rfl fun cache _ _ hstatus _ ↦ ⟨cache, hstatus, rfl⟩

theorem background (h : Found snapshot hits session) (hguards : session.Guards) {input : Input}
    (hbackground : input.isBackground = true) : Found snapshot hits (session.step input) := by
  rcases session.background_step hbackground with ⟨loads, inbox, hnext, -⟩ | hworked
  · rw [hnext]
    exact h.same rfl fun cache _ _ hstatus _ ↦ ⟨cache, hstatus, rfl⟩
  · exact h.worked hguards hworked

theorem requested (h : Found snapshot hits session) {hit : Option (String × String)}
    (hentry : entry ∈ snapshot.children) (hrequested : Requested snapshot session entry next hit) :
    Found snapshot (hits ++ hit.toList) next := by
  have hnext : Found snapshot hits next := by
    refine h.same (by cases hrequested <;> rfl) ?_
    intro cache key record hstatus hlookup
    exact hrequested.slot?_eq hstatus (by simp [hlookup])
  refine { hnext with fresh := ?_ }
  intro path text hhit
  rcases List.mem_append.mp hhit with hold | hnew
  · exact hnext.fresh path text hold
  · have hfound := Option.mem_toList.mp hnew
    cases hrequested with
    | known cache key record hstatus hkey hlookup =>
      split at hfound
      · cases hfound
      · cases hfound
        exact ⟨entry, hentry, cache, key, record, rfl, hkey, hstatus, hlookup, rfl⟩
    | _ => cases hfound

theorem shows (h : Found snapshot hits session) (htimeline : Timeline session) {path text : String}
    (hhit : (path, text) ∈ hits) : session.Shows path text := by
  obtain ⟨entry, hentry, cache, key, record, hpath, hkey, hstatus, -, htext⟩ :=
    h.fresh path text hhit
  have hbadge := statusText_eq htimeline h.current hkey hstatus
  exact ⟨snapshot, entry, h.current, h.loaded, hentry, hpath, htext.trans hbadge.symm⟩

end Found

end Session

namespace Presentation

open Session StatusCache

inductive Paced (thread : Presentation) : Tick → Presentation → Prop
  | busy (input : Input) (hbusy : thread.activity ≠ .idle) : Paced thread (.input input) thread
  | background (input : Input) (log : List Happening) (hbackground : input.isBackground = true) :
      Paced thread (.input input) ⟨thread.session.step input, thread.activity, log⟩
  | called (input : Input) (hidle : thread.activity = .idle)
      (harrival : input = .process → ∀ snapshot next, ¬ Arrival thread.session snapshot next) :
      Paced thread (.input input) { thread with session := thread.session.step input }
  | refreshing (backend : Backend) (snapshot : Snapshot) (path : String)
      (hidle : thread.activity = .idle) (hbackend : thread.session.backend = some backend) :
      Paced thread (.input .refresh)
        { thread with
          session := { thread.session.openAt backend path with selected := thread.session.selected }
          activity := .distrusting backend snapshot.path }
  | arriving (backend : Backend) (load : Load) (children : List Entry) (later : List Update)
      (hidle : thread.activity = .idle) (hbackend : thread.session.backend = some backend)
      (hinbox : thread.session.inbox = .listed load (.ok children) :: later)
      (hgeneration : load.generation = thread.session.generation) :
      Paced thread (.input .process)
        { thread with
          session := ({ thread.session with
            inbox := later
            loadsInFlight := thread.session.loadsInFlight - 1
            loadToken := none }.onShow
              (Snapshot.loaded backend load.path children load.generation)).persist
          activity := .asking (Snapshot.loaded backend load.path children load.generation)
            (Snapshot.loaded backend load.path children load.generation).children [] }
  | rested (hidle : thread.activity = .idle) : Paced thread .resume thread
  | distrusted (backend : Backend) (path : String)
      (hactivity : thread.activity = .distrusting backend path) :
      Paced thread .resume
        { thread with session := thread.session.distrust backend path, activity := .idle }
  | asked (snapshot : Snapshot) (entry : Entry) (entries : List Entry)
      (hits : List (String × String)) (session : Session) (hit : Option (String × String))
      (hactivity : thread.activity = .asking snapshot (entry :: entries) hits)
      (hrequested : Requested snapshot thread.session entry session hit) :
      Paced thread .resume
        { thread with session, activity := .asking snapshot entries (hits ++ hit.toList) }
  | missed (snapshot : Snapshot) (entry : Entry) (key : String) (entries : List Entry)
      (hits : List (String × String))
      (hactivity : thread.activity = .asking snapshot (entry :: entries) hits)
      (hkey : snapshot.backend.localPath? (Path.join snapshot.path entry.name) = some key) :
      Paced thread .resume { thread with activity := .claiming snapshot entry key entries hits }
  | claimed (snapshot : Snapshot) (entry : Entry) (key : String) (entries : List Entry)
      (hits : List (String × String)) (log : List Happening)
      (hactivity : thread.activity = .claiming snapshot entry key entries hits) :
      Paced thread .resume
        ⟨submit snapshot thread.session entry key, .asking snapshot entries hits, log⟩
  | announced (snapshot : Snapshot) (hits : List (String × String))
      (hactivity : thread.activity = .asking snapshot [] hits) :
      Paced thread .resume
        { thread with session := thread.session.announce hits, activity := .idle }

theorem call_paced (thread : Presentation) {input : Input} (hidle : thread.activity = .idle) :
    Paced thread (.input input) (thread.call input) := by
  unfold call
  dsimp only
  split
  case h_1 =>
    split
    case h_1 backend snapshot hbackend hcurrent =>
      exact .refreshing backend snapshot _ hidle hbackend
    case h_2 hnone =>
      have hsame : thread.session.step .refresh = thread.session := by
        simp only [Session.step, refresh]
      have h := Paced.called .refresh hidle (by simp)
      rwa [hsame] at h
  case h_2 =>
    split
    case h_1 backend load children later hbackend hinbox =>
      split
      case isTrue hgeneration =>
        exact .arriving backend load children later hidle hbackend hinbox hgeneration
      case isFalse hstale =>
        refine .called .process hidle ?_
        rintro - snapshot next ⟨other, arrived, listing, rest, hother, hinbox', hgeneration⟩
        cases hinbox.symm.trans hinbox'
        exact hstale hgeneration
    case h_2 hnone =>
      refine .called .process hidle ?_
      rintro - snapshot next ⟨backend, load, children, later, hbackend, hinbox, hgeneration⟩
      exact hnone backend load children later hbackend hinbox
  case h_3 hrefresh hprocess => exact .called input hidle fun h ↦ absurd h hprocess

theorem resume_paced (thread : Presentation) : Paced thread .resume thread.resume := by
  unfold resume
  dsimp only
  split
  case h_1 hidle => exact .rested hidle
  case h_2 backend path hactivity => exact .distrusted backend path hactivity
  case h_3 snapshot hits hactivity => exact .announced snapshot hits hactivity
  case h_4 snapshot entry entries hits hactivity =>
    split
    case h_1 key hmissed =>
      apply Paced.missed snapshot entry key entries hits hactivity
      unfold missed? at hmissed
      split at hmissed
      case h_1 cache other hstatus hkey =>
        split at hmissed
        · cases hmissed
          exact hkey
        · cases hmissed
      case h_2 => cases hmissed
    case h_2 =>
      exact .asked snapshot entry entries hits _ _ hactivity (requestBadge_requested ..)
  case h_5 snapshot entry key entries hits hactivity =>
    exact .claimed snapshot entry key entries hits _ hactivity

theorem tick_paced (thread : Presentation) (tick : Tick) :
    Paced thread tick (thread.tick tick) := by
  cases tick with
  | resume => exact thread.resume_paced
  | input input =>
    unfold Presentation.tick
    dsimp only
    split
    case isTrue hbackground => exact .background input _ hbackground
    case isFalse =>
      split
      case h_1 hidle => exact thread.call_paced hidle
      case h_2 hbusy => exact .busy input hbusy

/-- Backends that a tick is given from outside. -/
def Tick.backends : Tick → List Backend
  | .input step => step.backends
  | .resume => []

variable {backends : List Backend} {thread next : Presentation}

/-- A tick that gives out a ticket, or takes one back, keeps to the tickets that there are. -/
theorem guards_ticked (h : thread.session.Guards)
    (hlate : ∀ backend path, thread.activity = .distrusting backend path →
      ∀ job ∈ thread.session.jobs, job.generation < thread.session.generation)
    (hticked : Ticked thread next) : next.session.Guards := by
  have hsame {session : Session} (hsame : SameRequests thread.session session) :
      session.Guards := by
    intro cache hstatus
    rw [hsame.jobs]
    exact h cache (hsame.status.symm.trans hstatus)
  have hstaged {before after : List StatusJob} {job : StatusJob} (stage : JobStage)
      (hjobs : thread.session.jobs = before ++ job :: after)
      (hopen : ({ job with stage } : StatusJob).isOpen = job.isOpen) :
      openTickets (before ++ { job with stage } :: after) = openTickets thread.session.jobs := by
    rw [hjobs, openTickets_append, openTickets_append, openTickets_cons, openTickets_cons, hopen]
    rfl
  cases hticked with
  | kept session hrequests => exact hsame hrequests
  | called session hidle hrequests => exact hsame hrequests
  | refreshing session backend path hidle hrequests => exact hsame hrequests
  | shown session snapshot hidle hrequests => exact hsame hrequests
  | asked session snapshot entry entries hits hits' hactivity hrequests => exact hsame hrequests
  | announced session snapshot hits hactivity hrequests => exact hsame hrequests
  | missed => exact h
  | computed before after job record hjobs hstage =>
    intro cache hstatus
    rw [hstaged (.computed record) hjobs (job.isOpen_of_queued hstage).symm]
    exact h cache hstatus
  | cached before after job record cache hjobs hstage hstatus =>
    intro cache' hstatus'
    obtain rfl := Option.some.inj hstatus'
    have hguarded := h cache hstatus
    rw [hjobs, openTickets_append, openTickets_cons, if_pos (job.isOpen_of_computed hstage)]
      at hguarded
    rw [openTickets_append, openTickets_cons, if_neg (by simp [StatusJob.isOpen])]
    exact hguarded.complete record
  | uncached before after job record hjobs hstage hstatus =>
    intro cache hstatus'
    cases hstatus.symm.trans hstatus'
  | posted before after job changed hjobs hstage =>
    intro cache hstatus
    rw [hstaged .posted hjobs (job.isOpen_of_cached hstage).symm]
    exact h cache hstatus
  | retired before after job hjobs hstage =>
    intro cache hstatus
    have hguarded := h cache hstatus
    rw [hjobs, openTickets_append, openTickets_cons, job.isOpen_of_posted hstage] at hguarded
    rw [openTickets_append]
    exact hguarded
  | distrusted backend path hactivity =>
    unfold distrust
    split
    case h_1 cache key hstatus hkey =>
      intro cache' hstatus'
      obtain rfl := Option.some.inj hstatus'
      refine (h cache hstatus).invalidateUnder key ?_
      intro ticket hticket
      obtain ⟨job, hjob, rfl⟩ := List.mem_map.mp hticket
      exact hlate backend path hactivity job (List.mem_filter.mp hjob).1
    case h_2 => exact h
  | claimed snapshot entry key entries hits cache hactivity hstatus hbegin =>
    intro cache' hstatus'
    obtain rfl := Option.some.inj hstatus'
    obtain ⟨hmiss, hbound⟩ := miss_of_granted hbegin
    rw [begin_of_miss entry.isDir hmiss hbound, openTickets_append, openTickets_cons,
      if_pos (StatusJob.isOpen_of_queued rfl)]
    exact (h cache hstatus).claimed entry.isDir hmiss hbound
  | refused snapshot entry key entries hits hactivity hrefused =>
    cases hstatus : thread.session.status with
    | none =>
      have hsubmit : submit snapshot thread.session entry key = thread.session := by
        unfold submit
        simp only [hstatus]
      rw [hsubmit]
      exact h
    | some cache =>
      have hbegin := hrefused cache hstatus
      rw [submit_of_refused hstatus hbegin, begin_of_refused hbegin, ← hstatus]
      exact h

/-- What the call under way relies on when it goes on. -/
def Prepared (session : Session) : Activity → Prop
  | .idle => True
  | .distrusting _ _ => ∃ placeholder, session.current = some placeholder ∧
      placeholder.state ≠ .loaded
  | .asking snapshot entries hits =>
    (∀ entry ∈ entries, entry ∈ snapshot.children) ∧ Found snapshot hits session
  | .claiming snapshot entry key entries hits =>
    snapshot.backend.localPath? (Path.join snapshot.path entry.name) = some key ∧
      (∀ other ∈ entry :: entries, other ∈ snapshot.children) ∧ Found snapshot hits session

structure Steady (backends : List Backend) (thread : Presentation) : Prop where
  kept : Kept thread
  addressed : Addressed backends thread.session
  guards : thread.session.Guards
  prepared : Prepared thread.session thread.activity

namespace Steady

theorem start (backends : List Backend) (status : Option StatusCache) (store : StateStore) :
    Steady backends (ofSession (.start status store)) where
  kept := .start status store
  addressed := .start backends status store
  guards cache _ := .nothing cache
  prepared := trivial

theorem background (h : Steady backends thread) {input : Input}
    (hbackground : input.isBackground = true) :
    Prepared (thread.session.step input) thread.activity := by
  have hprepared := h.prepared
  generalize thread.activity = activity at hprepared ⊢
  cases activity with
  | idle => trivial
  | distrusting backend path =>
    obtain ⟨placeholder, hcurrent, hstate⟩ := hprepared
    exact ⟨placeholder, (thread.session.background_current hbackground).trans hcurrent, hstate⟩
  | asking snapshot entries hits =>
    exact hprepared.imp_right (·.background h.guards hbackground)
  | claiming snapshot entry key entries hits =>
    exact hprepared.imp_right (And.imp_right (·.background h.guards hbackground))

/-- One more child has been asked for. -/
theorem requested (h : Steady backends thread) {snapshot : Snapshot} {entry : Entry}
    {entries : List Entry} {hits : List (String × String)} {session : Session}
    {hit : Option (String × String)}
    (hchildren : ∀ other ∈ entry :: entries, other ∈ snapshot.children)
    (hfound : Found snapshot hits thread.session)
    (hrequested : Requested snapshot thread.session entry session hit) :
    Addressed backends session ∧
      Prepared session (.asking snapshot entries (hits ++ hit.toList)) := by
  obtain ⟨hgeneration, hbackend⟩ := h.kept.timeline.current snapshot hfound.current
  have hentry := hchildren entry (List.mem_cons_self ..)
  exact ⟨h.addressed.requested hfound.current hfound.loaded hgeneration
    (h.addressed.active _ hbackend) hentry hrequested,
    fun other hother ↦ hchildren other (List.mem_cons_of_mem _ hother),
    hfound.requested hentry hrequested⟩

theorem paced (h : Steady backends thread) {tick : Tick} (hpaced : Paced thread tick next)
    (hbackends : ∀ backend ∈ tick.backends, backend ∈ backends) :
    Addressed backends next.session ∧ Prepared next.session next.activity := by
  have hprepared := h.prepared
  cases hpaced with
  | busy => exact ⟨h.addressed, hprepared⟩
  | rested => exact ⟨h.addressed, hprepared⟩
  | background input log hbackground =>
    have hother : input = .process → ∀ snapshot next, ¬ Arrival thread.session snapshot next := by
      rintro rfl
      cases hbackground
    exact ⟨(h.addressed.step h.kept.timeline hbackends hother).1, h.background hbackground⟩
  | called input hidle harrival =>
    rw [hidle]
    exact ⟨(h.addressed.step h.kept.timeline hbackends harrival).1, trivial⟩
  | refreshing backend snapshot path hidle hbackend =>
    have hopened := h.addressed.opened (h.addressed.active backend hbackend) path
    exact ⟨hopened.same rfl rfl rfl (fun _ ↦ id) (fun _ ↦ id) (fun _ ↦ id), _,
      openAt_current thread.session backend path, by simp [Snapshot.loading]⟩
  | arriving backend load children later hidle hbackend hinbox hgeneration =>
    have hcurrent := h.kept.timeline.current_of_inbox hinbox hgeneration
    obtain ⟨store, saves, hpersist, -⟩ := onShow_persist_eq { thread.session with
      inbox := later
      loadsInFlight := thread.session.loadsInFlight - 1
      loadToken := none } (Snapshot.loaded backend load.path children load.generation)
    rw [hpersist]
    have hpopped := h.addressed.popped hinbox (thread.session.loadsInFlight - 1) none
      thread.session.restoring
    exact ⟨hpopped.replaced hcurrent rfl rfl rfl rfl rfl rfl, fun _ ↦ id, rfl, rfl, by simp⟩
  | distrusted backend path =>
    obtain ⟨status, hdistrust⟩ := thread.session.distrust_eq backend path
    rw [hdistrust]
    exact ⟨h.addressed.same rfl rfl rfl (fun _ ↦ id) (fun _ ↦ id) (fun _ ↦ id), trivial⟩
  | asked snapshot entry entries hits session hit hactivity hrequested =>
    rw [hactivity] at hprepared
    exact h.requested hprepared.1 hprepared.2 hrequested
  | missed snapshot entry key entries hits hactivity hkey =>
    rw [hactivity] at hprepared
    exact ⟨h.addressed, hkey, hprepared⟩
  | claimed snapshot entry key entries hits log hactivity =>
    rw [hactivity] at hprepared
    obtain ⟨hkey, hchildren, hfound⟩ := hprepared
    rcases submit_requested hkey with hrequested | hsame
    · have hasked := h.requested hchildren hfound hrequested
      rwa [Option.toList_none, List.append_nil] at hasked
    · rw [hsame]
      exact ⟨h.addressed, fun other hother ↦ hchildren other (List.mem_cons_of_mem _ hother),
        hfound⟩
  | announced snapshot hits hactivity =>
    rw [announce_eq]
    exact ⟨h.addressed.same rfl rfl rfl (fun _ ↦ id) (fun _ ↦ id) (fun _ ↦ id), trivial⟩

theorem tick (h : Steady backends thread) {tick : Tick}
    (hbackends : ∀ backend ∈ tick.backends, backend ∈ backends) :
    Steady backends (thread.tick tick) := by
  obtain ⟨haddressed, hprepared⟩ := h.paced (thread.tick_paced tick) hbackends
  refine ⟨h.kept.tick tick, haddressed, guards_ticked h.guards ?_ (thread.tick_ticked tick),
    hprepared⟩
  intro backend path hactivity job hjob
  have hplaceholder := h.prepared
  rw [hactivity] at hplaceholder
  obtain ⟨placeholder, hcurrent, hstate⟩ := hplaceholder
  exact (h.addressed.jobs job hjob).lt_of_unloaded hcurrent hstate

theorem run (h : Steady backends thread) {ticks : List Tick}
    (hbackends : ∀ backend ∈ ticks.flatMap Tick.backends, backend ∈ backends) :
    Steady backends (thread.run ticks) := by
  induction ticks generalizing thread with
  | nil => exact h
  | cons tick ticks ih =>
    rw [List.flatMap_cons] at hbackends
    have hnext := h.tick fun backend hbackend ↦
      hbackends backend (List.mem_append_left _ hbackend)
    exact ih hnext fun backend hbackend ↦
      hbackends backend (List.mem_append_right _ hbackend)

theorem announces (h : Steady backends thread) (hfaithful : Backend.Faithful backends)
    {tick : Tick} (hpaced : Paced thread tick next)
    (hbackends : ∀ backend ∈ tick.backends, backend ∈ backends) :
    ∃ moment hits, Announces thread.session next.session moment hits := by
  have hprepared := h.prepared
  cases hpaced with
  | background input log hbackground =>
    have hother : input = .process → ∀ snapshot next, ¬ Arrival thread.session snapshot next := by
      rintro rfl
      cases hbackground
    exact (h.addressed.step h.kept.timeline hbackends hother).2 hfaithful
  | called input hidle harrival =>
    exact (h.addressed.step h.kept.timeline hbackends harrival).2 hfaithful
  | refreshing backend snapshot path hidle hbackend =>
    exact announces_nothing _ (openAt_trace thread.session backend path) (by simp)
  | arriving backend load children later hidle hbackend hinbox hgeneration =>
    obtain ⟨store, saves, hpersist, hsaves⟩ := onShow_persist_eq { thread.session with
      inbox := later
      loadsInFlight := thread.session.loadsInFlight - 1
      loadToken := none } (Snapshot.loaded backend load.path children load.generation)
    rw [hpersist]
    refine announces_nothing _ rfl ?_
    intro event hevent
    rcases List.mem_cons.mp hevent with rfl | hsave
    · exact fun _ _ ↦ Event.noConfusion
    · exact announces_saves hsaves event hsave
  | distrusted backend path =>
    obtain ⟨status, hdistrust⟩ := thread.session.distrust_eq backend path
    rw [hdistrust]
    exact announces_nothing [] (by simp) (by simp)
  | asked snapshot entry entries hits session hit hactivity hrequested =>
    cases hrequested <;> exact announces_nothing [] (by simp) (by simp)
  | claimed snapshot entry key entries hits log hactivity =>
    obtain ⟨status, jobs, pendingStatus, hsubmit, -⟩ :=
      submit_eq snapshot thread.session entry key
    rw [hsubmit]
    exact announces_nothing [] (by simp) (by simp)
  | announced snapshot hits hactivity =>
    rw [hactivity] at hprepared
    exact ⟨thread.session, hits, rfl, ⟨[], by simp, by simp⟩,
      fun _ _ ↦ hprepared.2.shows h.kept.timeline⟩
  | _ => exact announces_nothing [] (by simp) (by simp)

end Steady

/-- Where equal local paths come from equal paths, a tick shows badges only as the last thing it
does, and all of them are those of children of the listing that is then on show. -/
theorem badge_updates_show_current (status : Option StatusCache) (store : StateStore)
    (ticks : List Tick) (tick : Tick)
    (hfaithful : Backend.Faithful ((ticks ++ [tick]).flatMap Tick.backends)) :
    let thread := (ofSession (.start status store)).run ticks
    ∃ (moment : Session) (hits : List (String × String)),
      (thread.tick tick).session = moment.announce hits ∧
      (∃ news, moment.trace = thread.session.trace ++ news ∧
        ∀ event ∈ news, ∀ path text, event ≠ .statusUpdated path text) ∧
      ∀ path text, (path, text) ∈ hits →
        ∃ snapshot entry, moment.current = some snapshot ∧ snapshot.state = .loaded ∧
          entry ∈ snapshot.children ∧ path = Path.join snapshot.path entry.name ∧
          text = moment.statusText path := by
  intro thread
  rw [List.flatMap_append] at hfaithful
  generalize hbackends :
    ticks.flatMap Tick.backends ++ [tick].flatMap Tick.backends = backends at hfaithful
  have h : Steady backends thread := (Steady.start backends status store).run
    fun _ hbackend ↦ hbackends ▸ List.mem_append_left _ hbackend
  have hlast : ∀ backend ∈ tick.backends, backend ∈ backends := by
    intro backend hbackend
    rw [← hbackends]
    exact List.mem_append_right _ (by simpa using hbackend)
  obtain ⟨moment, hits, hannounces⟩ := h.announces hfaithful (thread.tick_paced tick) hlast
  exact ⟨moment, hits, hannounces.next_eq, hannounces.silent, hannounces.shown⟩

/-- The second visit finds the badge of the first fresh, and a worker ends while it goes on. -/
def reread : List Tick :=
  (visit 1 (.navigate disk "/r" true)).map .input ++ [.resume, .resume, .resume] ++
    [.input (.compute 0 (some dirty)), .input (.advance 0), .input (.advance 0), .input .process] ++
    (visit 2 (.navigate disk "/r" true)).map .input ++ [.resume, .input (.advance 0)]

theorem badge_updates_show_current_reread :
    let thread := (ofSession (.start (some .empty) .absent)).run reread
    (thread.tick .resume).session.trace =
        thread.session.trace ++ [.statusUpdated "/r/a" "*"] ∧
      ∃ (moment : Session) (hits : List (String × String)),
        (thread.tick .resume).session = moment.announce hits ∧
        ∀ path text, (path, text) ∈ hits → moment.Shows path text := by
  intro thread
  have hfaithful : Backend.Faithful ((reread ++ [Tick.resume]).flatMap Tick.backends) := by
    apply Backend.faithful_of_storage
    intro backend hbackend
    have hdisk : backend = disk := by
      simpa [reread, visit, Tick.backends, Input.backends] using hbackend
    exact ⟨.disk, by rw [hdisk]; rfl⟩
  obtain ⟨moment, hits, hnext, -, hshown⟩ :=
    badge_updates_show_current (some .empty) .absent reread .resume hfaithful
  exact ⟨by with_unfolding_all rfl, moment, hits, hnext, hshown⟩

end Presentation

end DirectoryBrowser
