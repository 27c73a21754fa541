import DirectoryBrowser.Proofs.Navigation.Attending
import DirectoryBrowser.Proofs.Navigation.CanonicalOrder

/-!
# Whether the events tell the badges

A presenter sees the events and nothing else. It can read a badge off them in
two ways: as what has been announced since the last listing came on show, or
as what has been announced at all. Two runs with the same events may still end
with different badges. An answer that leaves a badge as it was is announced to
nobody, even if the listing on show has never been told it; one that belongs
to an earlier listing is announced to nobody, even if it moved the badge that
was told before. `Tells` and `Keeps` are the conditions under which one of the
two ways is right.
-/

namespace DirectoryBrowser

/-- What listeners are given of an event. -/
inductive Notice where
  | published (path : String) (state : SnapshotState) (generation : Nat) (children : List Entry)
  | loadFailed (path : String) (error : BackendError)
  | statusUpdated (path text : String)
  deriving DecidableEq, Repr

def Snapshot.notice (snapshot : Snapshot) : Notice :=
  .published snapshot.path snapshot.state snapshot.generation snapshot.children

def Event.notice? : Event → Option Notice
  | .published snapshot => some snapshot.notice
  | .loadFailed path error => some (.loadFailed path error)
  | .statusUpdated path text => some (.statusUpdated path text)
  | .saved _ | .dispatched _ => none

namespace Notice

/-- Badge of a path as it has been announced for the listing on show. -/
def badge (path text : String) : Notice → String
  | .published .. => ""
  | .loadFailed .. => text
  | .statusUpdated changed news => if changed = path then news else text

/-- Badge of a path as it was last announced, for whichever listing. -/
def heard (path text : String) : Notice → String
  | .published .. | .loadFailed .. => text
  | .statusUpdated changed news => if changed = path then news else text

def isPublished : Notice → Bool
  | .published .. => true
  | _ => false

end Notice

namespace Session

open StatusCache

def notices (session : Session) : List Notice :=
  session.trace.filterMap Event.notice?

def heardBadge (session : Session) (path : String) : String :=
  session.notices.foldl (Notice.heard path) ""

/-- The event as a reader of notices takes it. -/
def readEvent (read : String → Notice → String) (text : String) (event : Event) : String :=
  match event.notice? with
  | some notice => read text notice
  | none => text

theorem told_readEvent (session : Session) (read : String → Notice → String) :
    session.told (readEvent read) = session.notices.foldl read "" := by
  unfold told notices
  rw [List.foldl_filterMap]
  congr 1
  funext text event
  unfold readEvent
  cases event.notice? <;> rfl

theorem follows_heard (path : String) : Follows path (readEvent (Notice.heard path)) :=
  ⟨fun _ _ ↦ rfl, fun _ _ _ ↦ rfl⟩

theorem shownBadge_eq_foldl (session : Session) (path : String) :
    session.shownBadge path = session.notices.foldl (Notice.badge path) "" := by
  have hread : Event.badge path = readEvent (Notice.badge path) := by
    funext text event
    cases event <;> rfl
  rw [← told_readEvent, ← hread]
  rfl

/-- The listing on show is the one that was published last. -/
theorem getLast?_notices (session : Session) :
    (session.notices.filter Notice.isPublished).getLast? =
      session.published.getLast?.map Snapshot.notice := by
  have hfilter : session.notices.filter Notice.isPublished =
      session.published.map Snapshot.notice := by
    unfold notices published
    rw [List.filter_filterMap, List.map_filterMap]
    congr 1
    funext event
    cases event <;> rfl
  rw [hfilter, List.getLast?_map]

/-- The listeners have been told the badge of the path since the listing came on show, or will be:
its own request, if there is one, moves the badge or leaves nothing to show, and if it waits for
earlier requests, only one is due. -/
def Tells (shown settled : Session) (path : String) : Prop :=
  ∀ backend key, shown.backend = some backend → backend.localPath? path = some key →
    if ⟨key, shown.generation⟩ ∈ shown.unhandled then
      shown.HasNews key ∨ shown.statusText path ≠ settled.statusText path ∨
        settled.statusText path = ""
    else key ∈ shown.waiting → (shown.due key).length = 1

/-- The listeners knew the badge of the path when the listing came on show, and no earlier request
is due to move it. -/
def Keeps (shown : Session) (path : String) : Prop :=
  shown.heardBadge path = shown.statusText path ∧
    ∀ backend key, shown.backend = some backend → backend.localPath? path = some key →
      key ∉ shown.waiting

end Session

namespace Presentation

open Session StatusCache

/-- The tick announces the badges of a listing, so that its call returns. -/
def announces (thread : Presentation) : Tick → Bool
  | .input _ => false
  | .resume =>
    match thread.activity with
    | .asking _ [] _ => true
    | _ => false

/-- The thread as it was when the last listing had come on show, with all its badges asked for. -/
def lastShown? (thread : Presentation) : List Tick → Option Presentation
  | [] => none
  | tick :: ticks =>
    ((thread.tick tick).lastShown? ticks).or
      (if thread.announces tick then some (thread.tick tick) else none)

theorem lastShown?_concat (thread : Presentation) (ticks : List Tick) (tick : Tick) :
    thread.lastShown? (ticks ++ [tick]) =
      if (thread.run ticks).announces tick then some ((thread.run ticks).tick tick)
      else thread.lastShown? ticks := by
  induction ticks generalizing thread with
  | nil =>
    simp only [List.nil_append, lastShown?, Option.none_or]
    rfl
  | cons first ticks ih =>
    rw [List.cons_append]
    simp only [lastShown?, ih]
    have hrun : thread.run (first :: ticks) = (thread.tick first).run ticks := rfl
    rw [hrun]
    split
    · rfl
    · rfl

variable {backends : List Backend} {thread next : Presentation} {cache : StatusCache}
  {snapshot : Snapshot} {ticks : List Tick}

/-- What is on show is what has been published last. -/
theorem getLast?_published_tick (h : thread.session.published.getLast? = thread.session.current)
    (tick : Tick) : (thread.tick tick).session.published.getLast? =
      (thread.tick tick).session.current := by
  have hturned := thread.tick_turned tick
  generalize thread.tick tick = next at hturned ⊢
  cases hturned with
  | busy => exact h
  | stepped input => exact getLast?_published_step h input
  | refreshing backend snapshot path =>
    have hpublished : (thread.session.openAt backend path).published =
        thread.session.published ++
          [Snapshot.loading backend path (thread.session.generation + 1)] :=
      published_append (openAt_trace thread.session backend path) rfl
    have hlast : (thread.session.openAt backend path).published.getLast? =
        (thread.session.openAt backend path).current := by
      rw [hpublished, List.getLast?_concat, openAt_current]
    exact hlast
  | arriving backend load children later =>
    obtain ⟨hpublished, hcurrent⟩ := published_onShow_persist { thread.session with
      inbox := later
      loadsInFlight := thread.session.loadsInFlight - 1
      loadToken := none } (Snapshot.loaded backend load.path children load.generation)
    rw [hpublished, hcurrent, List.getLast?_concat]
  | resumed status waiting jobs pendingStatus news activity log hcounted hnews =>
    have hnone : news.filterMap Event.published? = [] :=
      filterMap_published_of_isAside fun event hevent ↦ Or.inr (hnews event hevent)
    have hpublished : { thread.session with
        status, waiting, jobs, pendingStatus,
        trace := thread.session.trace ++ news }.published = thread.session.published ++ [] :=
      published_append rfl hnone
    rw [hpublished, List.append_nil]
    exact h

theorem getLast?_published_start (store : StateStore) (ticks : List Tick) :
    ((start store).run ticks).session.published.getLast? =
      ((start store).run ticks).session.current := by
  induction ticks using List.reverseRecOn with
  | nil => rfl
  | append_singleton ticks tick ih =>
    rw [run_concat]
    exact getLast?_published_tick ih tick

/-- A listing that is on show between two calls has had its badges announced, and nothing else has
come on show since. -/
theorem exists_announced {store : StateStore}
    (hbackends : ∀ backend ∈ ticks.flatMap Tick.backends, backend ∈ backends)
    (hidle : ((start store).run ticks).activity = .idle)
    (hcurrent : ((start store).run ticks).session.current = some snapshot)
    (hloaded : snapshot.state = .loaded) :
    ∃ earlier later hits, ticks = earlier ++ .resume :: later ∧
      ((start store).run earlier).activity = .asking snapshot [] hits ∧
      (start store).lastShown? ticks = some (((start store).run earlier).tick .resume) := by
  induction ticks using List.reverseRecOn with
  | nil => cases hcurrent
  | append_singleton ticks tick ih =>
    have hearlier : ∀ backend ∈ ticks.flatMap Tick.backends, backend ∈ backends := by
      intro backend hbackend
      apply hbackends
      rw [List.flatMap_append]
      exact List.mem_append_left _ hbackend
    have h : Steady backends ((start store).run ticks) :=
      (Steady.start backends (some .empty) store).run hearlier
    have hprepared := h.prepared
    rw [run_concat] at hidle hcurrent
    rw [lastShown?_concat]
    have hpaced := ((start store).run ticks).tick_paced tick
    -- A tick that shows nothing new leaves it to those before it.
    have hkept (hidle : ((start store).run ticks).activity = .idle)
        (hcurrent : ((start store).run ticks).session.current = some snapshot)
        (hsilent : ((start store).run ticks).announces tick = false) :
        ∃ earlier later hits, ticks ++ [tick] = earlier ++ .resume :: later ∧
          ((start store).run earlier).activity = .asking snapshot [] hits ∧
          (if ((start store).run ticks).announces tick = true then
            some (((start store).run ticks).tick tick) else (start store).lastShown? ticks) =
              some (((start store).run earlier).tick .resume) := by
      obtain ⟨earlier, later, hits, hsplit, hasking, hlast⟩ := ih hearlier hidle hcurrent
      refine ⟨earlier, later ++ [tick], hits, ?_, hasking, ?_⟩
      · rw [hsplit, List.append_assoc]
        rfl
      · rw [hsilent]
        exact hlast
    generalize hthread : (start store).run ticks = thread at *
    generalize hnext : thread.tick tick = next at *
    cases hpaced with
    | busy input hbusy => exact absurd hidle hbusy
    | background input log hbackground =>
      exact hkept hidle ((thread.session.background_current hbackground).symm.trans hcurrent) rfl
    | called input _ harrival =>
      exact hkept hidle (current_of_step harrival hcurrent hloaded) rfl
    | rested =>
      refine hkept hidle hcurrent ?_
      simp only [announces, hidle]
    | distrusted backend path hactivity =>
      obtain ⟨status, hdistrust⟩ := thread.session.distrust_eq backend path
      rw [hdistrust] at hcurrent
      rw [hactivity] at hprepared
      obtain ⟨placeholder, hplaceholder, hstate⟩ := hprepared
      cases hcurrent.symm.trans hplaceholder
      exact absurd hloaded hstate
    | announced other hits hactivity =>
      rw [hactivity] at hprepared
      rw [announce_eq] at hcurrent
      cases hcurrent.symm.trans hprepared.2.current
      refine ⟨ticks, [], hits, rfl, hthread ▸ hactivity, ?_⟩
      rw [hthread, hnext, if_pos]
      simp only [announces, hactivity]
    | refreshing => cases hidle
    | arriving => cases hidle
    | asked => cases hidle
    | missed => cases hidle
    | claimed => cases hidle

/-! ### While the listing stays on show -/

/-- A tick that opens no generation is calm, since no listing of the present one is left. -/
theorem calm_tick (h : Attended backends thread cache) (hidle : thread.activity = .idle)
    (hcurrent : thread.session.current = some snapshot) (hloaded : snapshot.state = .loaded)
    (tick : Tick)
    (hgeneration : (thread.tick tick).session.generation = thread.session.generation) :
    (thread.tick tick).activity = .idle ∧
      (thread.tick tick).session.current = some snapshot ∧
      ((thread.tick tick).session = thread.session ∨
        ∃ input, Calm thread.session input (thread.tick tick).session) := by
  have htimeline := h.kept.timeline
  have hpaced := thread.tick_paced tick
  generalize thread.tick tick = next at hpaced hgeneration ⊢
  have hstep (input : Input)
      (hgeneration : (thread.session.step input).generation = thread.session.generation) :
      (thread.session.step input).current = some snapshot ∧
        (thread.session.step input = thread.session ∨
          ∃ input', Calm thread.session input' (thread.session.step input)) := by
    obtain ⟨hcalm, hnext⟩ := calm_step htimeline hcurrent hloaded hgeneration
    exact ⟨hnext, Or.inr ⟨input, hcalm⟩⟩
  cases hpaced with
  | busy => exact ⟨hidle, hcurrent, Or.inl rfl⟩
  | rested => exact ⟨hidle, hcurrent, Or.inl rfl⟩
  | background input => exact ⟨hidle, hstep input hgeneration⟩
  | called input => exact ⟨hidle, hstep input hgeneration⟩
  | refreshing backend other path => exact absurd hgeneration (Nat.succ_ne_self _)
  | arriving backend load children later _ hbackend hinbox hnow =>
    have hexpected := htimeline.current_of_inbox hinbox hnow
    cases hcurrent.symm.trans hexpected
    cases hloaded
  | distrusted backend path hactivity => cases hidle.symm.trans hactivity
  | asked other entry entries hits session hit hactivity => cases hidle.symm.trans hactivity
  | missed other entry key entries hits hactivity => cases hidle.symm.trans hactivity
  | claimed other entry key entries hits log hactivity => cases hidle.symm.trans hactivity
  | announced other hits hactivity => cases hidle.symm.trans hactivity

/-- What calm steps keep holds for as long as the listing stays on show. -/
theorem calm_ticks {motive : Session → StatusCache → Prop} (h : Attended backends thread cache)
    (hbackends : ∀ backend ∈ ticks.flatMap Tick.backends, backend ∈ backends)
    (hidle : thread.activity = .idle) (hcurrent : thread.session.current = some snapshot)
    (hloaded : snapshot.state = .loaded)
    (hfinal : (thread.run ticks).session.generation = thread.session.generation)
    (hstart : motive thread.session cache)
    (hstep : ∀ (thread : Presentation) (cache : StatusCache) (input : Input) (next : Session),
      Attended backends thread cache → thread.session.current = some snapshot →
      motive thread.session cache → Calm thread.session input next →
      next.generation = thread.session.generation →
      ∃ cache, next.status = some cache ∧ motive next cache) :
    ∃ cache, Attended backends (thread.run ticks) cache ∧
      motive (thread.run ticks).session cache := by
  induction ticks generalizing thread cache with
  | nil => exact ⟨cache, h, hstart⟩
  | cons tick ticks ih =>
    have hfirst := thread.generation_le_tick tick
    have hrest := (thread.tick tick).generation_le_run ticks
    have hrun : thread.run (tick :: ticks) = (thread.tick tick).run ticks := rfl
    rw [hrun] at hfinal ⊢
    rw [List.flatMap_cons] at hbackends
    have hgeneration : (thread.tick tick).session.generation = thread.session.generation := by
      omega
    obtain ⟨cache', hnext⟩ := h.tick fun backend hbackend ↦
      hbackends backend (List.mem_append_left _ hbackend)
    obtain ⟨hidle', hcurrent', hmoves⟩ := calm_tick h hidle hcurrent hloaded tick hgeneration
    have hmotive : motive (thread.tick tick).session cache' := by
      rcases hmoves with hsame | ⟨input, hcalm⟩
      · have hstatus := hnext.sound.status
        rw [hsame, h.sound.status, Option.some.injEq] at hstatus
        rwa [hsame, ← hstatus]
      · obtain ⟨other, hother, hmotive⟩ := hstep thread cache input _ h hcurrent hstart hcalm
          hgeneration
        obtain rfl : cache' = other := Option.some.inj (hnext.sound.status.symm.trans hother)
        exact hmotive
    exact ih hnext (fun backend hbackend ↦ hbackends backend (List.mem_append_right _ hbackend))
      hidle' hcurrent' (by omega) hmotive

/-- The thread is between two calls, nothing is on its way to it, and a listing is on show. -/
structure Rests (thread : Presentation) (snapshot : Snapshot) : Prop where
  idle : thread.activity = .idle
  settled : thread.session.isIdle = true
  current : thread.session.current = some snapshot
  loaded : snapshot.state = .loaded

theorem exists_due_of_length {session : Session} {key : String}
    (hlength : (session.due key).length = 1)
    (hother : ⟨key, session.generation⟩ ∉ session.unhandled) :
    ∃ generation ≠ session.generation, session.due key = [⟨key, generation⟩] := by
  obtain ⟨⟨path, generation⟩, hsingle⟩ := List.length_eq_one_iff.mp hlength
  have hmem : (⟨path, generation⟩ : Ticket) ∈ session.due key := by
    rw [hsingle]
    exact List.mem_singleton_self _
  obtain ⟨hunhandled, hpath⟩ := List.mem_filter.mp hmem
  obtain rfl : path = key := beq_iff_eq.mp hpath
  refine ⟨generation, ?_, hsingle⟩
  rintro rfl
  exact hother hunhandled

/-- The ticks keep the listing on show until the session has come to rest. -/
structure Settles (backends : List Backend) (thread : Presentation) (cache : StatusCache)
    (snapshot : Snapshot) (ticks : List Tick) : Prop where
  attended : Attended backends thread cache
  given : ∀ backend ∈ ticks.flatMap Tick.backends, backend ∈ backends
  faithful : Backend.Faithful backends
  idle : thread.activity = .idle
  current : thread.session.current = some snapshot
  rests : (thread.run ticks).Rests snapshot

namespace Settles

variable {path key : String} {follow : String → Event → String}
  {entry : Entry}

theorem generation_eq (h : Settles backends thread cache snapshot ticks) :
    (thread.run ticks).session.generation = thread.session.generation := by
  rw [← (h.attended.kept.timeline.current snapshot h.current).1]
  exact (((h.attended.kept.run ticks).timeline.current snapshot h.rests.current).1).symm

/-- A key that is told of, or marked for one request, is known when the session has come to rest. -/
theorem told (excused : String → Prop) (h : Settles backends thread cache snapshot ticks)
    (hkey : snapshot.backend.localPath? path = some key) (hfollow : Follows path follow)
    (hstart : Marked follow key thread.session ∨
      Informed follow key excused thread.session cache) :
    let settled := (thread.run ticks).session
    settled.told follow = settled.statusText path ∨
      settled.told follow = "" ∧ excused (settled.statusText path) := by
  intro settled
  obtain ⟨cache', hattended, hmotive⟩ := calm_ticks
    (motive := fun session cache ↦ Marked follow key session ∨
      Informed follow key excused session cache)
    h.attended h.given h.idle h.current h.rests.loaded h.generation_eq hstart (by
      intro thread cache input next hattended hcurrent hmotive hcalm hgeneration
      have hroute : ∀ changedPath changedKey generation changed later,
          thread.session.inbox = .status changedPath changedKey generation changed :: later →
          thread.session.isNews changedKey generation changed (cache.textFor changedKey) = true →
          (changedPath = path ↔ changedKey = key) := fun _ _ _ _ _ hinbox hnews ↦
        hattended.addressed.path_iff_key hattended.kept.timeline h.faithful hcurrent hkey hinbox
          hnews
      rcases hmotive with hmarked | hinformed
      · obtain ⟨cache', hstatus, hnext⟩ := hmarked.calm hfollow hattended.sound.status
          hattended.sound.tracked hroute hcalm hgeneration
        exact ⟨cache', hstatus, hnext.imp_right fun hnext ↦ hnext.mono fun _ ↦ False.elim⟩
      · obtain ⟨cache', hstatus, hnext⟩ := hinformed.calm hfollow hattended.sound.status
          hattended.sound.tracked hroute hcalm hgeneration
        exact ⟨cache', hstatus, Or.inr hnext⟩)
  obtain ⟨hjobs, hanswers⟩ :=
    answered_of_isIdle hattended.kept.tallied.requests h.rests.settled
  have htext : settled.statusText path = cache'.textFor key :=
    statusText_eq hattended.kept.timeline h.rests.current hkey hattended.sound.status
  rw [htext]
  rcases hmotive with hmarked | hinformed
  · exact absurd hmarked.exists_due (by simp [hjobs, hanswers])
  · exact hinformed.known hjobs hanswers

/-- Nothing is told of a path that does not lie in the local file system. -/
theorem told_of_remote (h : Settles backends thread cache snapshot ticks)
    (hremote : snapshot.backend.localPath? path = none) (hfollow : Follows path follow) :
    (thread.run ticks).session.told follow = thread.session.told follow := by
  obtain ⟨cache', -, hmotive⟩ := calm_ticks
    (motive := fun session _ ↦ session.told follow = thread.session.told follow)
    h.attended h.given h.idle h.current h.rests.loaded h.generation_eq rfl (by
      intro thread cache input next hattended hcurrent hmotive hcalm hgeneration
      obtain ⟨cache', hstatus, htold⟩ := hcalm.told_eq hfollow hattended.sound.status (by
        rintro changedPath changedKey generation changed later hinbox hnews rfl
        obtain ⟨other, entry, hother, -, -, -, hplace⟩ :=
          hattended.addressed.lists_of_isNews hattended.kept.timeline h.faithful hinbox hnews
        cases hcurrent.symm.trans hother
        cases hremote.symm.trans hplace)
      exact ⟨cache', hstatus, htold.trans hmotive⟩)
  exact hmotive

theorem statusText_of_remote (h : Settles backends thread cache snapshot ticks)
    (hremote : snapshot.backend.localPath? path = none) :
    thread.session.statusText path = "" ∧ (thread.run ticks).session.statusText path = "" := by
  have hnone (thread : Presentation) (hkept : Kept thread)
      (hcurrent : thread.session.current = some snapshot) :
      thread.session.statusText path = "" := by
    unfold statusText
    rw [(hkept.timeline.current snapshot hcurrent).2]
    cases thread.session.status with
    | none => rfl
    | some cache => simp only [hremote, Option.map_none, Option.getD_none]
  exact ⟨hnone _ h.attended.kept h.current, hnone _ (h.attended.kept.run ticks) h.rests.current⟩

/-- A badge that the listeners are told of is the one that they have in the end. -/
theorem shown_of_tells (h : Settles backends thread cache snapshot ticks)
    (hpresented : Presented snapshot thread.session cache) (hentry : entry ∈ snapshot.children)
    (hkey : snapshot.backend.localPath? (Path.join snapshot.path entry.name) = some key)
    (htells : Tells thread.session (thread.run ticks).session
      (Path.join snapshot.path entry.name)) :
    (thread.run ticks).session.shownBadge (Path.join snapshot.path entry.name) =
      (thread.run ticks).session.statusText (Path.join snapshot.path entry.name) := by
  have hbackend := (h.attended.kept.timeline.current snapshot h.current).2
  have htells := htells _ key hbackend hkey
  have hfollow := follows_badge (Path.join snapshot.path entry.name)
  rcases hpresented.shown entry hentry key hkey with ⟨hshown, hbelongs⟩ | ⟨hblank, hcause⟩
  · have htold := h.told (fun _ ↦ False) hkey hfollow
      (Or.inr ⟨hbelongs, Or.inl hshown⟩)
    exact htold.resolve_right And.right
  · by_cases hown : ⟨key, thread.session.generation⟩ ∈ thread.session.unhandled
    · have hbelongs := hpresented.owned key hown
      rw [if_pos hown] at htells
      rcases htells with hnews | hrest
      · have htold := h.told (fun _ ↦ False) hkey hfollow
          (Or.inr ⟨hbelongs, Or.inr (Or.inl hnews)⟩)
        exact htold.resolve_right And.right
      · -- Nothing is told only if the badge is still what it was when the request was begun.
        have htext := statusText_eq h.attended.kept.timeline h.current hkey h.attended.sound.status
        have htold := h.told (· = cache.textFor key) hkey hfollow
          (Or.inr ⟨hbelongs, Or.inr (Or.inr ⟨hblank, rfl⟩)⟩)
        rcases htold with htold | ⟨htold, hsilent⟩
        · exact htold
        · have hempty := hrest.resolve_left fun hmoved ↦ hmoved (htext.trans hsilent.symm)
          exact htold.trans hempty.symm
    · rw [if_neg hown] at htells
      have hwaiting := hcause.resolve_left hown
      have hmarked : Marked (Event.badge (Path.join snapshot.path entry.name)) key
          thread.session :=
        ⟨hwaiting, hblank, exists_due_of_length (htells hwaiting) hown⟩
      exact (h.told (fun _ ↦ False) hkey hfollow (Or.inl hmarked)).resolve_right And.right

theorem shown_of_remote (h : Settles backends thread cache snapshot ticks)
    (hpresented : Presented snapshot thread.session cache)
    (hremote : snapshot.backend.localPath? path = none) :
    (thread.run ticks).session.shownBadge path = (thread.run ticks).session.statusText path := by
  have htold := h.told_of_remote hremote (follows_badge path)
  rw [(h.statusText_of_remote hremote).2]
  exact htold.trans (hpresented.remote path hremote)

/-- A badge that the listeners have known is the one that they have heard of last. -/
theorem heard_of_keeps (h : Settles backends thread cache snapshot ticks)
    (hpresented : Presented snapshot thread.session cache) (hentry : entry ∈ snapshot.children)
    (hkeeps : Keeps thread.session (Path.join snapshot.path entry.name)) :
    (thread.run ticks).session.heardBadge (Path.join snapshot.path entry.name) =
      (thread.run ticks).session.statusText (Path.join snapshot.path entry.name) := by
  obtain ⟨hheard, hunmarked⟩ := hkeeps
  have hfollow := follows_heard (Path.join snapshot.path entry.name)
  unfold heardBadge at hheard ⊢
  rw [← told_readEvent] at hheard ⊢
  cases hkey : snapshot.backend.localPath? (Path.join snapshot.path entry.name) with
  | none =>
    obtain ⟨hbefore, hafter⟩ := h.statusText_of_remote hkey
    rw [h.told_of_remote hkey hfollow, hheard, hbefore, hafter]
  | some key =>
    have hbackend := (h.attended.kept.timeline.current snapshot h.current).2
    have htext := statusText_eq h.attended.kept.timeline h.current hkey h.attended.sound.status
    have hbelongs := hpresented.unmarked entry hentry key hkey (hunmarked _ key hbackend hkey)
    have htold := h.told (fun _ ↦ False) hkey hfollow
      (Or.inr ⟨hbelongs, Or.inl (hheard.trans htext)⟩)
    exact htold.resolve_right And.right

end Settles

/-- When a session has come to rest with a listing on show, the badge of a child can be read off
the events in either of the two ways whose condition it meets. -/
theorem exists_shown (store : StateStore)
    (hfaithful : Backend.Faithful (ticks.flatMap Tick.backends))
    (hrests : ((start store).run ticks).Rests snapshot) :
    let settled := (start store).run ticks
    ∃ shown, (start store).lastShown? ticks = some shown ∧
      shown.session.current = some snapshot ∧
      ∀ entry ∈ snapshot.children,
        let path := Path.join snapshot.path entry.name
        (Tells shown.session settled.session path →
          settled.session.shownBadge path = settled.session.statusText path) ∧
        (Keeps shown.session path →
          settled.session.heardBadge path = settled.session.statusText path) := by
  intro settled
  obtain ⟨earlier, later, hits, rfl, hactivity, hlast⟩ :=
    exists_announced (fun _ ↦ id) hrests.idle hrests.current hrests.loaded
  rw [List.flatMap_append] at hfaithful
  generalize hbackends : earlier.flatMap Tick.backends ++
    (Tick.resume :: later).flatMap Tick.backends = backends at hfaithful
  obtain ⟨cache, h⟩ : ∃ cache, Attended backends ((start store).run earlier) cache :=
    (Attended.start backends store).run fun _ hbackend ↦
      hbackends ▸ List.mem_append_left _ hbackend
  obtain ⟨hidle, cache', hshown, hpresented⟩ := h.announced hactivity
  have hsettled : settled = (((start store).run earlier).tick .resume).run later := by
    simp only [settled, run_append]
    rfl
  have hsettles : Settles backends (((start store).run earlier).tick .resume) cache' snapshot
      later :=
    { attended := hshown
      given := fun _ hbackend ↦ hbackends ▸ List.mem_append_right _ hbackend
      faithful := hfaithful
      idle := hidle
      current := hpresented.current
      rests := hsettled ▸ hrests }
  refine ⟨_, hlast, hpresented.current, ?_⟩
  rw [hsettled]
  intro entry hentry path
  refine ⟨fun htells ↦ ?_, hsettles.heard_of_keeps hpresented hentry⟩
  cases hkey : snapshot.backend.localPath? path with
  | none => exact hsettles.shown_of_remote hpresented hkey
  | some key => exact hsettles.shown_of_tells hpresented hentry hkey htells

/-- Where equal local paths come from equal paths, two runs that come to rest after the same events
show the same listing, with the same badge for every child that the listeners have been told about
in both, or have known about in both. -/
theorem equal_notices_equal_badges (store₁ store₂ : StateStore) (ticks₁ ticks₂ : List Tick)
    {snapshot₁ snapshot₂ : Snapshot}
    (hfaithful₁ : Backend.Faithful (ticks₁.flatMap Tick.backends))
    (hfaithful₂ : Backend.Faithful (ticks₂.flatMap Tick.backends))
    (hrests₁ : ((start store₁).run ticks₁).Rests snapshot₁)
    (hrests₂ : ((start store₂).run ticks₂).Rests snapshot₂)
    (hnotices : ((start store₁).run ticks₁).session.notices =
      ((start store₂).run ticks₂).session.notices) :
    let settled₁ := (start store₁).run ticks₁
    let settled₂ := (start store₂).run ticks₂
    snapshot₁.path = snapshot₂.path ∧ snapshot₁.children = snapshot₂.children ∧
      ∃ shown₁ shown₂, (start store₁).lastShown? ticks₁ = some shown₁ ∧
        shown₁.session.current = some snapshot₁ ∧
        (start store₂).lastShown? ticks₂ = some shown₂ ∧
        shown₂.session.current = some snapshot₂ ∧
        ∀ entry ∈ snapshot₁.children,
          let path := Path.join snapshot₁.path entry.name
          Tells shown₁.session settled₁.session path ∧
              Tells shown₂.session settled₂.session path ∨
            Keeps shown₁.session path ∧ Keeps shown₂.session path →
          settled₁.session.statusText path = settled₂.session.statusText path := by
  intro settled₁ settled₂
  have hlast₁ := settled₁.session.getLast?_notices
  have hlast₂ := settled₂.session.getLast?_notices
  rw [getLast?_published_start store₁ ticks₁, hrests₁.current] at hlast₁
  rw [getLast?_published_start store₂ ticks₂, hrests₂.current, ← hnotices, hlast₁] at hlast₂
  have hsame : snapshot₁.notice = snapshot₂.notice := Option.some.inj hlast₂
  simp only [Snapshot.notice, Notice.published.injEq] at hsame
  obtain ⟨hpath, -, -, hchildren⟩ := hsame
  obtain ⟨shown₁, hshown₁, hcurrent₁, hbadges₁⟩ := exists_shown store₁ hfaithful₁ hrests₁
  obtain ⟨shown₂, hshown₂, hcurrent₂, hbadges₂⟩ := exists_shown store₂ hfaithful₂ hrests₂
  refine ⟨hpath, hchildren, shown₁, shown₂, hshown₁, hcurrent₁, hshown₂, hcurrent₂, ?_⟩
  rw [← hchildren, ← hpath] at hbadges₂
  intro entry hentry path hcondition
  obtain ⟨htells₁, hkeeps₁⟩ := hbadges₁ entry hentry
  obtain ⟨htells₂, hkeeps₂⟩ := hbadges₂ entry hentry
  rcases hcondition with ⟨htold₁, htold₂⟩ | ⟨hkept₁, hkept₂⟩
  · rw [← htells₁ htold₁, ← htells₂ htold₂, shownBadge_eq_foldl, shownBadge_eq_foldl, hnotices]
  · rw [← hkeeps₁ hkept₁, ← hkeeps₂ hkept₂]
    unfold heardBadge
    rw [hnotices]

/-- The badge of the one child has been asked for, but none have been announced. -/
def visited : List Tick :=
  (visit 1 (.navigate disk "/r" true)).map .input ++ [.resume, .resume]

def answered : List Tick := (answer dirty).map .input

/-- The answer comes before the call has returned in one run, and after it in the other. -/
theorem equal_notices_equal_badges_answered :
    let settled₁ := (start .absent).run (visited ++ answered ++ [.resume, .input .process])
    let settled₂ := (start .absent).run (visited ++ [.resume] ++ answered ++ [.input .process])
    settled₁.session.statusText "/r/a" = settled₂.session.statusText "/r/a" ∧
      settled₁.session.statusText "/r/a" = "*" := by
  intro settled₁ settled₂
  have hfaithful (ticks : List Tick)
      (hdisk : ∀ backend ∈ ticks.flatMap Tick.backends, backend = disk) :
      Backend.Faithful (ticks.flatMap Tick.backends) := by
    apply Backend.faithful_of_storage
    intro backend hbackend
    exact ⟨.disk, by rw [hdisk backend hbackend]; rfl⟩
  have hfaithful₁ := hfaithful (visited ++ answered ++ [.resume, .input .process])
    (by simp [visited, answered, visit, answer, Tick.backends, Input.backends])
  have hfaithful₂ := hfaithful (visited ++ [.resume] ++ answered ++ [.input .process])
    (by simp [visited, answered, visit, answer, Tick.backends, Input.backends])
  have hrests₁ : settled₁.Rests (Snapshot.loaded disk "/r" [⟨"a", false, none⟩] 1) := by
    refine ⟨?_, by decide +kernel, ?_, rfl⟩
    · with_unfolding_all rfl
    · with_unfolding_all rfl
  have hrests₂ : settled₂.Rests (Snapshot.loaded disk "/r" [⟨"a", false, none⟩] 1) := by
    refine ⟨?_, by decide +kernel, ?_, rfl⟩
    · with_unfolding_all rfl
    · with_unfolding_all rfl
  have hnotices : settled₁.session.notices = settled₂.session.notices := by decide +kernel
  obtain ⟨-, -, shown₁, shown₂, hshown₁, -, hshown₂, -, hbadges⟩ :=
    equal_notices_equal_badges .absent .absent _ _ hfaithful₁ hfaithful₂ hrests₁ hrests₂ hnotices
  obtain rfl : shown₁ = (start .absent).run (visited ++ answered ++ [.resume]) :=
    Option.some.inj (hshown₁.symm.trans (by with_unfolding_all rfl))
  obtain rfl : shown₂ = (start .absent).run (visited ++ [.resume]) :=
    Option.some.inj (hshown₂.symm.trans (by with_unfolding_all rfl))
  have htells (shown settled : Session) (hdisk : shown.backend = some disk)
      (hasked : ⟨"/r/a", shown.generation⟩ ∈ shown.unhandled)
      (htold : shown.HasNews "/r/a" ∨ shown.statusText "/r/a" ≠ settled.statusText "/r/a") :
      Tells shown settled "/r/a" := by
    rintro backend key hbackend hkey
    cases hdisk.symm.trans hbackend
    cases hkey
    rw [if_pos hasked]
    exact htold.imp_right Or.inl
  have htells₁ : Tells ((start .absent).run (visited ++ answered ++ [.resume])).session
      settled₁.session "/r/a" := by
    apply htells _ _ (by with_unfolding_all rfl) (by decide +kernel)
    exact Or.inl (Or.inr ⟨⟨"/r/a", "/r/a", 1, true⟩, by decide +kernel, rfl, by decide +kernel, rfl⟩)
  have htells₂ : Tells ((start .absent).run (visited ++ [.resume])).session
      settled₂.session "/r/a" := by
    apply htells _ _ (by with_unfolding_all rfl) (by decide +kernel)
    exact Or.inr (by decide +kernel)
  have hentry : (⟨"a", false, none⟩ : Entry) ∈
      (Snapshot.loaded disk "/r" [⟨"a", false, none⟩] 1).children := by decide +kernel
  have hpath : Path.join (Snapshot.loaded disk "/r" [⟨"a", false, none⟩] 1).path "a" = "/r/a" := by
    decide +kernel
  have hsame := hbadges _ hentry
  rw [hpath] at hsame
  exact ⟨hsame (Or.inl ⟨htells₁, htells₂⟩), by decide +kernel⟩

/-! ### Runs with the same events -/

/-- Paths of the children of the listing on show. -/
def childPaths (thread : Presentation) : List String :=
  match thread.session.current with
  | some snapshot => snapshot.children.map fun entry ↦ Path.join snapshot.path entry.name
  | none => []

def isBetweenCalls (thread : Presentation) : Bool :=
  match thread.activity with
  | .idle => true
  | _ => false

theorem exists_rests (hactivity : thread.isBetweenCalls = true)
    (hsettled : thread.session.isIdle = true)
    (hloaded : thread.session.current.any Snapshot.isLoaded = true) :
    ∃ snapshot, thread.Rests snapshot := by
  rw [Option.any_eq_true] at hloaded
  obtain ⟨snapshot, hcurrent, hstate⟩ := hloaded
  refine ⟨snapshot, ?_, hsettled, hcurrent, beq_iff_eq.mp hstate⟩
  unfold isBetweenCalls at hactivity
  split at hactivity
  · assumption
  · cases hactivity

/-- Calls that nothing comes in between. -/
def whole (inputs : List Input) : List Tick :=
  inputs.flatMap fun input ↦ .input input :: List.replicate 5 .resume

/-- A request goes through the workers, and its update is handled. -/
def reply (index : Nat) (record : Option StatusRecord) : List Input :=
  [.compute index record, .advance index, .advance index, .advance index, .process]

/-- A later call overtakes the first request, and the answer to the second, which a refresh has
begun, leaves the badge as it is. -/
def silenced (record : StatusRecord) : List Input :=
  visit 1 (.navigate disk "/r" true) ++ [.navigate disk "/r" true] ++ reply 0 (some record) ++
    [.refresh, .respond 2 (.ok []), .process, .respond 3 (.ok [⟨"a", false, none⟩]), .process] ++
    reply 0 (some record)

/-- A badge that has been told is asked for again, and a later call overtakes the request. -/
def overturned (record : Option StatusRecord) : List Input :=
  visit 1 (.navigate disk "/r" true) ++ reply 0 (some dirty) ++ visit 2 .refresh ++
    [.navigate disk "/r" true] ++ reply 0 record ++
    [.respond 3 (.ok [⟨"a", false, none⟩]), .process] ++ reply 0 none

/-- It has one path at the key of another. -/
def twisted : Backend :=
  ⟨1, Storage.diskRoot, none, fun path ↦ some (if path == "/r/a" then "/r/b" else path)⟩

/-- A request for one path is due to answer the key of another. -/
def aliased (first second : StatusRecord) : List Input :=
  visit 1 (.navigate twisted "/r" true) ++ visit 2 (.navigate disk "/r" true) ++
    [.navigate disk "/r" true] ++ reply 1 (some first) ++
    [.respond 3 (.ok [⟨"a", false, none⟩, ⟨"b", false, none⟩]), .process] ++
    reply 0 (some second)

/-- The two runs come to rest after the same events, and a child has different badges in them. -/
def Confuses (one other : List Input) (path : String) : Prop :=
  let settled₁ := (start .absent).run (whole one)
  let settled₂ := (start .absent).run (whole other)
  (∃ snapshot, settled₁.Rests snapshot) ∧ (∃ snapshot, settled₂.Rests snapshot) ∧
    settled₁.session.notices = settled₂.session.notices ∧
    path ∈ settled₁.childPaths ∧
    settled₁.session.statusText path ≠ settled₂.session.statusText path

/-! ### A listing of two children

The kernel evaluates a run but not the sort, which recurses on two lists at once. Where two children
come on show, their order is proved and the run goes on from there. -/

/-- The next update to be handled brings this listing. -/
def expects (thread : Presentation) (listing : List Entry) : Bool :=
  match thread.activity, thread.session.backend, thread.session.inbox with
  | .idle, some _, .listed load (.ok children) :: _ =>
    load.generation == thread.session.generation && children == listing
  | _, _, _ => false

/-- The listing at the head of the inbox comes on show with these children. -/
def arrived (thread : Presentation) (children : List Entry) : Presentation :=
  match thread.session.backend, thread.session.inbox with
  | some backend, .listed load _ :: later =>
    let snapshot : Snapshot := ⟨backend, load.path, children, load.generation, .loaded⟩
    { thread with
      session := ({ thread.session with
        inbox := later
        loadsInFlight := thread.session.loadsInFlight - 1
        loadToken := none }.onShow snapshot).persist
      activity := .asking snapshot children [] }
  | _, _ => thread

theorem tick_of_expects {thread : Presentation} {listing : List Entry}
    (h : thread.expects listing = true) :
    thread.tick (.input .process) = thread.arrived (Entry.sorted listing) := by
  unfold expects at h
  split at h
  case h_1 hactivity hbackend hinbox =>
    rw [Bool.and_eq_true, beq_iff_eq, beq_iff_eq] at h
    obtain ⟨hgeneration, rfl⟩ := h
    rw [tick_process_of_arrival hactivity hbackend hinbox hgeneration]
    simp only [arrived, hbackend, hinbox]
    rfl
  case h_2 => cases h

def both : List Entry := [⟨"a", false, none⟩, ⟨"b", false, none⟩]

/-- The part of `aliased` that comes before the last listing is handled. -/
def prior (record : StatusRecord) : List Input :=
  visit 1 (.navigate twisted "/r" true) ++ visit 2 (.navigate disk "/r" true) ++
    [.navigate disk "/r" true] ++ reply 1 (some record) ++ [.respond 3 (.ok both)]

theorem run_aliased {first : StatusRecord} (second : StatusRecord)
    (hexpects : ((start .absent).run (whole (prior first))).expects both = true) :
    (start .absent).run (whole (aliased first second)) =
      (((start .absent).run (whole (prior first))).arrived both).run
        (List.replicate 5 .resume ++ whole (reply 0 (some second))) := by
  have hticks : whole (aliased first second) = whole (prior first) ++
      .input .process :: (List.replicate 5 .resume ++ whole (reply 0 (some second))) := by
    simp [whole, aliased, prior, both]
  have hsorted : Entry.sorted both = both := Entry.sorted_eq_self (by decide)
  rw [hticks, run_append, run, List.foldl_cons, tick_of_expects hexpects, hsorted]
  rfl

/-- The first badge has never been told, the second has been overturned in silence, and the third
is told for another path. -/
theorem equal_notices_unequal_badges :
    Confuses (silenced .clean) (silenced dirty) "/r/a" ∧
      Confuses (overturned (some .clean)) (overturned none) "/r/a" ∧
      Confuses (aliased dirty .clean) (aliased .clean dirty) "/r/a" := by
  refine ⟨?_, ?_, ?_⟩
  · exact ⟨exists_rests (by decide +kernel) (by decide +kernel) (by decide +kernel),
      exists_rests (by decide +kernel) (by decide +kernel) (by decide +kernel),
      by decide +kernel, by decide +kernel, by decide +kernel⟩
  · exact ⟨exists_rests (by decide +kernel) (by decide +kernel) (by decide +kernel),
      exists_rests (by decide +kernel) (by decide +kernel) (by decide +kernel),
      by decide +kernel, by decide +kernel, by decide +kernel⟩
  · unfold Confuses
    rw [run_aliased .clean (by decide +kernel), run_aliased dirty (by decide +kernel)]
    exact ⟨exists_rests (by decide +kernel) (by decide +kernel) (by decide +kernel),
      exists_rests (by decide +kernel) (by decide +kernel) (by decide +kernel),
      by decide +kernel, by decide +kernel, by decide +kernel⟩

end Presentation

end DirectoryBrowser
