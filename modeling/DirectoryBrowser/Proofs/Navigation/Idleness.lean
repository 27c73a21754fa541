import DirectoryBrowser.Proofs.Navigation.Counts
import DirectoryBrowser.Proofs.Navigation.Freshness
import DirectoryBrowser.Proofs.Navigation.Turns
import DirectoryBrowser.Proofs.Navigation.WaitingBadges

/-!
# What is left to do when a session is idle

A session looks idle when nothing is counted and its inbox is empty. The two
counts and the inbox are read one after the other, while workers go on posting
answers and counting them off. Since an answer is posted before it is counted
off, an inbox that is read last and found empty has nothing to come.
`Awaiting` adds that no placeholder is left on show without a listing on its
way. It needs listings to be honest: one that was not cancelled may fail, but
does not report that it was.
-/

open scoped List

namespace DirectoryBrowser

namespace Session

variable {session next : Session}

/-- A listing reports that it was cancelled only if its token was. -/
def Input.isHonest (session : Session) : Input → Bool
  | .respond generation (.error error) => !error.isCancelled || session.isCancelled generation
  | _ => true

structure Awaiting (session : Session) : Prop where
  awaited : ∀ snapshot, session.current = some snapshot → snapshot.state = .loading →
    ∃ load ∈ session.outstanding, load.generation = session.generation
  token : ∀ generation, session.loadToken = some generation → generation ≤ session.generation
  revoked : ∀ generation ∈ session.cancelled, generation < session.generation
  excused : ∀ load error, .listed load (.error error) ∈ session.inbox →
    error.isCancelled = true → load.generation < session.generation

namespace Awaiting

theorem start (status : Option StatusCache) (store : StateStore) :
    Awaiting (.start status store) where
  awaited := by simp [Session.start]
  token := by simp [Session.start]
  revoked := by simp [Session.start]
  excused := by simp [Session.start]

/-- A step that shows nothing new and answers no listing of the present generation. -/
theorem same (h : Awaiting session) (hcurrent : next.current = session.current)
    (hgeneration : next.generation = session.generation)
    (houtstanding : ∀ load ∈ session.outstanding, load.generation = session.generation →
      load ∈ next.outstanding)
    (htoken : ∀ generation, next.loadToken = some generation →
      session.loadToken = some generation)
    (hcancelled : next.cancelled = session.cancelled)
    (hinbox : ∀ load error, .listed load (.error error) ∈ next.inbox →
      .listed load (.error error) ∈ session.inbox) : Awaiting next where
  awaited := by
    intro snapshot hsnapshot hloading
    obtain ⟨load, hload, hnow⟩ := h.awaited snapshot (hcurrent ▸ hsnapshot) hloading
    exact ⟨load, houtstanding load hload hnow, hnow.trans hgeneration.symm⟩
  token := by
    rw [hgeneration]
    exact fun generation hnext ↦ h.token generation (htoken generation hnext)
  revoked := by
    rw [hcancelled, hgeneration]
    exact h.revoked
  excused := by
    rw [hgeneration]
    exact fun load error hlisted ↦ h.excused load error (hinbox load error hlisted)

/-- Nothing is waited for once the placeholder has been answered. -/
theorem answered (h : Awaiting session) {answer : Snapshot} (hcurrent : next.current = some answer)
    (hstate : answer.state ≠ .loading) (hgeneration : next.generation = session.generation)
    (htoken : next.loadToken = none) (hcancelled : next.cancelled = session.cancelled)
    (hinbox : ∀ load error, .listed load (.error error) ∈ next.inbox →
      .listed load (.error error) ∈ session.inbox) : Awaiting next where
  awaited := by
    intro snapshot hsnapshot hloading
    cases hcurrent.symm.trans hsnapshot
    exact absurd hloading hstate
  token := by
    rw [htoken]
    exact fun _ hnone ↦ nomatch hnone
  revoked := by
    rw [hcancelled, hgeneration]
    exact h.revoked
  excused := by
    rw [hgeneration]
    exact fun load error hlisted ↦ h.excused load error (hinbox load error hlisted)

/-- The token that an opening cancels is of a generation that it leaves behind. -/
theorem opened (h : Awaiting session) (backend : Backend) (path : String) :
    Awaiting (session.openAt backend path) where
  awaited := by
    intro snapshot _ _
    exact ⟨⟨session.generation + 1, path, backend⟩, by simp [outstanding], rfl⟩
  token := by
    intro generation hgeneration
    cases hgeneration
    exact Nat.le_refl _
  revoked := by
    intro generation hrevoked
    have hmem : generation ∈ session.loadToken.toList ++ session.cancelled := hrevoked
    rcases List.mem_append.mp hmem with htoken | hold
    · exact Nat.lt_succ_of_le (h.token generation (Option.mem_toList.mp htoken))
    · exact Nat.lt_succ_of_lt (h.revoked generation hold)
  excused := by
    intro load error hlisted hcancelled
    exact Nat.lt_succ_of_lt (h.excused load error hlisted hcancelled)

theorem called {input : Input} (h : Awaiting session) (hcalled : Called session input next) :
    Awaiting next := by
  cases hcalled with
  | stayed => exact h
  | opened _ backend path =>
    exact (h.opened backend path).same rfl rfl (fun _ hload _ ↦ hload) (fun _ ↦ id) rfl
      (fun _ _ ↦ id)
  | refreshed backend snapshot path =>
    obtain ⟨status, hdistrust⟩ := distrust_eq
      { session.openAt backend path with selected := session.selected } backend snapshot.path
    rw [hdistrust]
    exact (h.opened backend path).same rfl rfl (fun _ hload _ ↦ hload) (fun _ ↦ id) rfl
      (fun _ _ ↦ id)
  | selected name =>
    obtain ⟨store, saves, hpersist, -⟩ := persist_eq { session with selected := some name }
    rw [hpersist]
    exact h.same rfl rfl (fun _ hload _ ↦ hload) (fun _ ↦ id) rfl (fun _ _ ↦ id)

theorem responded (h : Awaiting session) (htimeline : Timeline session) {generation : Nat}
    {load : Load} (result : Except BackendError (List Entry))
    (hload : session.loads.find? (fun load ↦ load.generation == generation) = some load)
    (hhonest : (Input.respond generation result).isHonest session = true) :
    Awaiting { session with
      loads := session.loads.filter (fun load ↦ load.generation != generation)
      inbox := session.inbox ++ [.listed load result] } where
  awaited := by
    intro snapshot hsnapshot hloading
    obtain ⟨expected, hexpected, hnow⟩ := h.awaited snapshot hsnapshot hloading
    have hperm := (Passed.responded htimeline result hload).perm
    rw [List.append_nil] at hperm
    exact ⟨expected, hperm.subset hexpected, hnow⟩
  token := h.token
  revoked := h.revoked
  excused := by
    intro other error hlisted hcancelled
    rcases List.mem_append.mp hlisted with hold | hnew
    · exact h.excused other error hold hcancelled
    · cases List.mem_singleton.mp hnew
      obtain rfl : load.generation = generation := by simpa using List.find?_some hload
      simp only [Input.isHonest, hcancelled, Bool.not_true, Bool.false_or, isCancelled,
        List.contains_iff_mem] at hhonest
      exact h.revoked _ hhonest

theorem worked (h : Awaiting session) (hworked : Worked session next) : Awaiting next := by
  have hperm := (Passed.worked hworked).perm
  obtain ⟨status, jobs, pendingStatus, news, rfl, hnews⟩ := hworked.eq
  rw [List.append_nil] at hperm
  refine h.same rfl rfl (fun load hload _ ↦ hperm.subset hload) (fun _ ↦ id) rfl ?_
  intro load error hlisted
  rcases List.mem_append.mp hlisted with hold | hnew
  · exact hold
  · obtain ⟨path, key, generation, changed, hupdate⟩ := hnews _ hnew
    cases hupdate

theorem handled (h : Awaiting session) (htimeline : Timeline session) {update : Update}
    {later : List Update} (hinbox : session.inbox = update :: later)
    (hhandled : Handled { session with inbox := later } update next) : Awaiting next := by
  have hlater : ∀ load error, .listed load (.error error) ∈ later →
      .listed load (.error error) ∈ session.inbox := by
    intro load error hlisted
    rw [hinbox]
    exact List.mem_cons_of_mem _ hlisted
  cases hhandled with
  | stale load result hstale =>
    -- Without a backend nothing has been shown, so the listing is one of an earlier generation.
    have hpopped : session.outstanding.Perm
        (load :: ({ session with inbox := later } : Session).outstanding) := by
      unfold outstanding
      rw [hinbox]
      exact List.perm_middle
    have hne : load.generation ≠ session.generation := by
      rcases hstale with hnone | hne
      · intro hnow
        have hshown := htimeline.current_of_inbox hinbox hnow
        have hactive := (htimeline.current _ hshown).2
        rw [hnone] at hactive
        cases hactive
      · exact hne
    refine h.same rfl rfl ?_ (fun _ ↦ id) rfl hlater
    intro other hother hnow
    rcases List.mem_cons.mp (hpopped.subset hother) with rfl | hrest
    · exact absurd hnow hne
    · exact hrest
  | cancelled load error hgeneration hcancelled =>
    have hlt := h.excused load error (hinbox ▸ List.mem_cons_self ..) hcancelled
    exact absurd hgeneration (Nat.ne_of_lt hlt)
  | loaded load children backend =>
    obtain ⟨selected, store, status, waiting, jobs, pendingStatus, asides, hshown, -⟩ :=
      showLoaded_eq { session with
        inbox := later
        loadsInFlight := session.loadsInFlight - 1
        loadToken := none } backend load children
    rw [hshown]
    exact h.answered rfl (by simp [Snapshot.loaded]) rfl rfl rfl hlater
  | reopened load error backend =>
    have hclosed : Awaiting { session with
        current := some (Snapshot.failed backend load.path error.message load.generation)
        inbox := later
        loadsInFlight := session.loadsInFlight - 1
        loadToken := none
        restoring := none } :=
      h.answered rfl (by simp [Snapshot.failed]) rfl rfl rfl hlater
    exact hclosed.opened _ _
  | failed load error backend =>
    exact h.answered rfl (by simp [Snapshot.failed]) rfl rfl rfl hlater
  | status path key generation changed =>
    obtain ⟨waiting, news, hstatus, -⟩ :=
      handleStatus_eq { session with inbox := later } path key generation changed
    rw [hstatus]
    refine h.same rfl rfl ?_ (fun _ ↦ id) rfl hlater
    intro other hother _
    unfold outstanding at hother ⊢
    rwa [hinbox] at hother

theorem step (h : Awaiting session) (htimeline : Timeline session) {input : Input}
    (hhonest : input.isHonest session = true) : Awaiting (session.step input) := by
  have hmoved := session.step_moved input
  generalize session.step input = next at hmoved ⊢
  cases hmoved with
  | called hcalled => exact h.called hcalled
  | responded generation result load hload => exact h.responded htimeline result hload hhonest
  | worked _ hworked => exact h.worked hworked
  | handled update later hinbox hhandled => exact h.handled htimeline hinbox hhandled

/-- An idle session shows a listing, a failure or nothing, but no placeholder. -/
theorem not_loading (h : Awaiting session) (hnone : session.outstanding = []) {snapshot : Snapshot}
    (hcurrent : session.current = some snapshot) : snapshot.state ≠ .loading := by
  intro hloading
  obtain ⟨load, hload, -⟩ := h.awaited snapshot hcurrent hloading
  rw [hnone] at hload
  cases hload

end Awaiting

/-- An answer that has not been posted has not been counted off either. -/
theorem Tallied.unposted_le (h : Tallied session) :
    (session.jobs.filter StatusJob.isUnposted).length ≤ session.pendingStatus := by
  rw [h.requests]
  exact List.length_filter_le _ _

end Session

namespace Presentation

open Session

variable {thread next : Presentation}

/-! ### Any interleaving -/

/-- Listing whose response a tick handles. -/
def handling? (thread : Presentation) (tick : Tick) : Option Load :=
  match thread.activity, tick with
  | .idle, .input input => thread.session.handled? input
  | _, _ => none

def handledLoads (thread : Presentation) : List Tick → List Load
  | [] => []
  | tick :: ticks => (thread.handling? tick).toList ++ (thread.tick tick).handledLoads ticks

def Tick.isHonest (session : Session) : Tick → Bool
  | .resume => true
  | .input step => step.isHonest session

def honest (thread : Presentation) : List Tick → Bool
  | [] => true
  | tick :: ticks => tick.isHonest thread.session && (thread.tick tick).honest ticks

theorem handled?_of_background (session : Session) {input : Input}
    (hbackground : input.isBackground = true) : session.handled? input = none := by
  cases input with
  | process => cases hbackground
  | _ => rfl

theorem passed_turned {tick : Tick} (htimeline : Timeline thread.session)
    (hturned : Turned thread tick next) :
    ∃ news, Passed thread.session next.session news (thread.handling? tick).toList := by
  cases hturned with
  | busy input hown hbusy =>
    have hnone : thread.handling? (.input input) = none := by
      unfold handling?
      split
      case h_1 hidle _ => exact absurd hidle hbusy
      case h_2 => rfl
    rw [hnone]
    exact ⟨[], .same rfl rfl rfl⟩
  | stepped input log hfree =>
    have hhandling : thread.handling? (.input input) = thread.session.handled? input := by
      rcases hfree with hbackground | hidle
      · unfold handling?
        split
        case h_1 hinput =>
          cases hinput
          rfl
        case h_2 => exact (handled?_of_background _ hbackground).symm
      · unfold handling?
        rw [hidle]
    rw [hhandling]
    exact Passed.step htimeline input
  | refreshing backend snapshot path hidle =>
    have hnone : thread.handling? (.input .refresh) = none := by
      unfold handling?
      rw [hidle]
      rfl
    have hopened := Passed.opened thread.session backend path
    rw [hnone]
    exact ⟨_, hopened.dispatched, hopened.perm, hopened.due, hopened.counted⟩
  | arriving backend load children later hidle hbackend hinbox hgeneration =>
    have hload : thread.handling? (.input .process) = some load := by
      unfold handling?
      rw [hidle]
      simp [handled?, hinbox, Update.load?]
    obtain ⟨store, saves, hpersist, hsaves⟩ := onShow_persist_eq { thread.session with
      inbox := later
      loadsInFlight := thread.session.loadsInFlight - 1
      loadToken := none } (Snapshot.loaded backend load.path children load.generation)
    have hnone : saves.filterMap Event.dispatched? = [] :=
      filterMap_dispatched_of_isAside fun event hevent ↦ Or.inl (hsaves event hevent)
    rw [hload, hpersist]
    exact ⟨[], .popped hinbox (List.append_nil _).symm rfl (dispatched_append rfl hnone) rfl⟩
  | resumed status waiting jobs pendingStatus news activity log hcounted hnews =>
    have hnone : news.filterMap Event.dispatched? = [] :=
      filterMap_dispatched_of_isAside fun event hevent ↦ Or.inr (hnews event hevent)
    have hhandling : thread.handling? .resume = none := by
      unfold handling?
      split
      case h_1 hresume => cases hresume
      case h_2 => rfl
    rw [hhandling]
    refine ⟨[], .same ?_ rfl rfl⟩
    rw [dispatched_append rfl hnone, List.append_nil]

theorem tallied_turned {tick : Tick} (h : Tallied thread.session)
    (htimeline : Timeline thread.session) (hturned : Turned thread tick next) :
    Tallied next.session := by
  obtain ⟨news, hpassed⟩ := passed_turned htimeline hturned
  refine h.passed hpassed ?_
  cases hturned with
  | busy => exact h.requests
  | stepped input => exact Tallied.requests_step input h.requests
  | refreshing => exact h.requests
  | arriving backend load children later =>
    obtain ⟨store, saves, hpersist, -⟩ := onShow_persist_eq { thread.session with
      inbox := later
      loadsInFlight := thread.session.loadsInFlight - 1
      loadToken := none } (Snapshot.loaded backend load.path children load.generation)
    rw [hpersist]
    exact h.requests
  | resumed status waiting jobs pendingStatus news activity log hcounted =>
    have hrequests := h.requests
    dsimp only
    omega

theorem awaiting_turned {tick : Tick} (h : Awaiting thread.session)
    (htimeline : Timeline thread.session) (hhonest : tick.isHonest thread.session = true)
    (hturned : Turned thread tick next) : Awaiting next.session := by
  cases hturned with
  | busy => exact h
  | stepped input => exact h.step htimeline hhonest
  | refreshing backend snapshot path =>
    exact (h.opened backend path).same rfl rfl (fun _ hload _ ↦ hload) (fun _ ↦ id) rfl
      (fun _ _ ↦ id)
  | arriving backend load children later hidle hbackend hinbox =>
    obtain ⟨store, saves, hpersist, -⟩ := onShow_persist_eq { thread.session with
      inbox := later
      loadsInFlight := thread.session.loadsInFlight - 1
      loadToken := none } (Snapshot.loaded backend load.path children load.generation)
    rw [hpersist]
    refine h.answered rfl (by simp [Snapshot.loaded]) rfl rfl rfl ?_
    intro other error hlisted
    rw [hinbox]
    exact List.mem_cons_of_mem _ hlisted
  | resumed => exact h.same rfl rfl (fun _ hload _ ↦ hload) (fun _ ↦ id) rfl (fun _ _ ↦ id)

/-- Between any two ticks the order of navigations is kept and the counts are exact. -/
structure Kept (thread : Presentation) : Prop where
  timeline : Timeline thread.session
  tallied : Tallied thread.session

theorem Kept.start (status : Option StatusCache) (store : StateStore) :
    Kept (ofSession (.start status store)) :=
  ⟨Timeline.start status store, Tallied.start status store⟩

theorem Kept.tick (h : Kept thread) (tick : Tick) : Kept (thread.tick tick) where
  timeline := h.timeline.turned (thread.tick_turned tick)
  tallied := tallied_turned h.tallied h.timeline (thread.tick_turned tick)

theorem Kept.run (h : Kept thread) (ticks : List Tick) : Kept (thread.run ticks) := by
  induction ticks generalizing thread with
  | nil => exact h
  | cons tick ticks ih => exact ih (h.tick tick)

theorem awaiting_run {ticks : List Tick} (h : Kept thread) (hawaiting : Awaiting thread.session)
    (hhonest : thread.honest ticks = true) : Awaiting (thread.run ticks).session := by
  induction ticks generalizing thread with
  | nil => exact hawaiting
  | cons tick ticks ih =>
    simp only [honest, Bool.and_eq_true] at hhonest
    have hnext := awaiting_turned hawaiting h.timeline hhonest.1 (thread.tick_turned tick)
    exact ih (h.tick tick) hnext hhonest.2

/-- Whatever has been dispatched has been handled, or is outstanding. -/
theorem dispatched_run (h : Kept thread) (ticks : List Tick) : ∃ news,
    (thread.run ticks).session.dispatched = thread.session.dispatched ++ news ∧
      thread.session.outstanding ++ news ~
        thread.handledLoads ticks ++ (thread.run ticks).session.outstanding := by
  induction ticks generalizing thread with
  | nil => exact ⟨[], (List.append_nil _).symm, by simp [handledLoads, run]⟩
  | cons tick ticks ih =>
    obtain ⟨first, hfirst⟩ := passed_turned h.timeline (thread.tick_turned tick)
    obtain ⟨rest, hdispatched, hperm⟩ := ih (h.tick tick)
    have hrun : thread.run (tick :: ticks) = (thread.tick tick).run ticks := rfl
    refine ⟨first ++ rest, ?_, ?_⟩
    · rw [hrun, hdispatched, hfirst.dispatched, List.append_assoc]
    · rw [hrun, handledLoads]
      calc thread.session.outstanding ++ (first ++ rest)
        _ = thread.session.outstanding ++ first ++ rest := (List.append_assoc ..).symm
        _ ~ (thread.handling? tick).toList ++ (thread.tick tick).session.outstanding ++ rest :=
          hfirst.perm.append_right rest
        _ = (thread.handling? tick).toList ++
            ((thread.tick tick).session.outstanding ++ rest) := List.append_assoc ..
        _ ~ (thread.handling? tick).toList ++ ((thread.tick tick).handledLoads ticks ++
            ((thread.tick tick).run ticks).session.outstanding) := hperm.append_left _
        _ = (thread.handling? tick).toList ++ (thread.tick tick).handledLoads ticks ++
            ((thread.tick tick).run ticks).session.outstanding := (List.append_assoc ..).symm

/-! ### Looking idle -/

/-- The listings in flight are read at once, the pending requests after the ticks of `counting`, and
the inbox after those of `draining`. -/
def seesIdle (thread : Presentation) (counting draining : List Tick) : Bool :=
  thread.session.loadsInFlight == 0 &&
    (thread.run counting).session.pendingStatus == 0 &&
    ((thread.run counting).run draining).session.inbox.isEmpty

theorem seesIdle_nil (thread : Presentation) : thread.seesIdle [] [] = thread.session.isIdle := rfl

def Tick.isCall : Tick → Bool
  | .resume => false
  | .input step => step.isCall

/-- Nothing is left for the workers, so all that they and a poll can find is the inbox. -/
theorem tick_eq_self {tick : Tick} (hidle : thread.activity = .idle)
    (hloads : thread.session.loads = []) (hjobs : thread.session.jobs = [])
    (hcall : tick.isCall = false) (hinbox : tick.isBackground = true ∨ thread.session.inbox = []) :
    thread.tick tick = thread := by
  have hstored (index : Nat) : thread.session.storing? index = none := by
    unfold storing?
    rw [hjobs]
    split
    case h_1 _ _ hjob => simp at hjob
    case h_2 => rfl
  cases tick with
  | resume =>
    unfold Presentation.tick resume
    rw [hidle]
  | input input =>
    cases input with
    | respond generation result =>
      simp [Presentation.tick, Input.isBackground, Session.step, respond, hloads]
    | compute index record =>
      simp [Presentation.tick, Input.isBackground, Session.step, computeStatus, hjobs]
    | advance index =>
      simp [Presentation.tick, Input.isBackground, Session.step, advanceStatus, hjobs, hstored]
    | process =>
      have hempty : thread.session.inbox = [] := hinbox.resolve_left Bool.false_ne_true
      have hsame : thread.session.step .process = thread.session := by
        simp only [Session.step, handleNext, hempty]
      have hcalled : thread.call .process = thread := by
        simp only [call, hempty, hsame]
        split
        case h_1 hnil => cases hnil
        case h_2 => rfl
      simp only [Presentation.tick, Input.isBackground, Bool.false_eq_true, if_false, hidle, hcalled]
    | _ => cases hcall

theorem run_eq_self {ticks : List Tick} (hidle : thread.activity = .idle)
    (hloads : thread.session.loads = []) (hjobs : thread.session.jobs = [])
    (hticks : ∀ tick ∈ ticks, tick.isCall = false ∧
      (tick.isBackground = true ∨ thread.session.inbox = [])) : thread.run ticks = thread := by
  induction ticks with
  | nil => rfl
  | cons tick ticks ih =>
    obtain ⟨hcall, hinbox⟩ := hticks tick (List.mem_cons_self ..)
    have hrun : thread.run (tick :: ticks) = (thread.tick tick).run ticks := rfl
    rw [hrun, tick_eq_self hidle hloads hjobs hcall hinbox]
    exact ih fun other hother ↦ hticks other (List.mem_cons_of_mem _ hother)

theorem isCall_of_background {tick : Tick} (hbackground : tick.isBackground = true) :
    tick.isCall = false := by
  cases tick with
  | resume => cases hbackground
  | input input =>
    cases input with
    | respond => rfl
    | compute => rfl
    | advance => rfl
    | _ => cases hbackground

/-- Workers neither bring a listing back nor take one off the show. -/
theorem background_tick {tick : Tick} (hbackground : tick.isBackground = true)
    (hnone : thread.session.outstanding = []) :
    (thread.tick tick).session.outstanding = [] ∧
      (thread.tick tick).session.current = thread.session.current := by
  have hloads : thread.session.loads = [] := (List.append_eq_nil_iff.mp hnone).1
  have hworked {session : Session}
      (h : session = thread.session ∨ Worked thread.session session) :
      session.outstanding = [] ∧ session.current = thread.session.current := by
    rcases h with rfl | hworked
    · exact ⟨hnone, rfl⟩
    · have hperm := (Passed.worked hworked).perm
      obtain ⟨status, jobs, pendingStatus, news, rfl, -⟩ := hworked.eq
      rw [hnone] at hperm
      exact ⟨List.nil_perm.mp hperm, rfl⟩
  cases tick with
  | resume => cases hbackground
  | input input =>
    cases input with
    | respond generation result =>
      have hsame : (thread.tick (.input (.respond generation result))).session =
          thread.session := by
        simp [Presentation.tick, Input.isBackground, Session.step, respond, hloads]
      rw [hsame]
      exact ⟨hnone, rfl⟩
    | compute index record => exact hworked (thread.session.computeStatus_worked index record)
    | advance index => exact hworked (thread.session.advanceStatus_worked index)
    | _ => cases hbackground

theorem background_run {ticks : List Tick} (hticks : ∀ tick ∈ ticks, tick.isBackground = true)
    (hnone : thread.session.outstanding = []) :
    (thread.run ticks).session.outstanding = [] ∧
      (thread.run ticks).session.current = thread.session.current := by
  induction ticks generalizing thread with
  | nil => exact ⟨hnone, rfl⟩
  | cons tick ticks ih =>
    obtain ⟨hnone', hcurrent⟩ := background_tick (hticks tick (List.mem_cons_self ..)) hnone
    obtain ⟨hnone'', hcurrent'⟩ :=
      ih (fun other hother ↦ hticks other (List.mem_cons_of_mem _ hother)) hnone'
    exact ⟨hnone'', hcurrent'.trans hcurrent⟩

/-- What has been read as idle, in whatever order the workers went on in between, has nothing left
to do, and what is on show is what was on show when the reading began. -/
theorem settled_of_seesIdle {counting draining : List Tick} (h : Kept thread)
    (hidle : thread.activity = .idle)
    (hbackground : ∀ tick ∈ counting ++ draining, tick.isBackground = true)
    (hseen : thread.seesIdle counting draining = true) :
    let settled := (thread.run counting).run draining
    thread.session.outstanding = [] ∧ settled.activity = .idle ∧ settled.session.loads = [] ∧
      settled.session.jobs = [] ∧ settled.session.inbox = [] ∧
      settled.session.current = thread.session.current := by
  simp only [seesIdle, Bool.and_eq_true, beq_iff_eq, List.isEmpty_iff] at hseen
  obtain ⟨⟨hinFlight, hpending⟩, hinbox⟩ := hseen
  have hcounting : ∀ tick ∈ counting, tick.isBackground = true :=
    fun tick htick ↦ hbackground tick (List.mem_append_left _ htick)
  have hdraining : ∀ tick ∈ draining, tick.isBackground = true :=
    fun tick htick ↦ hbackground tick (List.mem_append_right _ htick)
  have hnone : thread.session.outstanding = [] := by
    rw [h.tallied.loads] at hinFlight
    exact List.length_eq_zero_iff.mp hinFlight
  obtain ⟨hnone', hcurrent⟩ := background_run hcounting hnone
  have hloads : (thread.run counting).session.loads = [] := (List.append_eq_nil_iff.mp hnone').1
  have hjobs : (thread.run counting).session.jobs = [] := by
    rw [(h.run counting).tallied.requests] at hpending
    exact List.length_eq_zero_iff.mp hpending
  have hactivity : (thread.run counting).activity = .idle :=
    (run_background_activity hcounting).trans hidle
  have hstill : (thread.run counting).run draining = thread.run counting :=
    run_eq_self hactivity hloads hjobs fun tick htick ↦
      ⟨isCall_of_background (hdraining tick htick), Or.inl (hdraining tick htick)⟩
  rw [hstill] at hinbox ⊢
  exact ⟨hnone, hactivity, hloads, hjobs, hinbox, hcurrent⟩

/-- However listings and workers come in between, the listings in flight are those whose responses
have not been handled, and no request is counted off before its answer is posted. A session that is
read as idle then has nothing outstanding and no placeholder on show, and nothing happens to it any
more until the next call. -/
theorem idle_is_settled (status : Option StatusCache) (store : StateStore) (ticks : List Tick)
    (hhonest : (ofSession (.start status store)).honest ticks = true) :
    let first := ofSession (.start status store)
    let thread := first.run ticks
    let session := thread.session
    session.dispatched ~ first.handledLoads ticks ++ session.outstanding ∧
    session.loadsInFlight = session.outstanding.length ∧
    (∀ load result later, session.inbox = .listed load result :: later →
      0 < session.loadsInFlight) ∧
    (session.jobs.filter StatusJob.isUnposted).length ≤ session.pendingStatus ∧
    ∀ counting draining, thread.activity = .idle →
      (∀ tick ∈ counting ++ draining, tick.isBackground = true) →
      thread.seesIdle counting draining = true →
      let settled := (thread.run counting).run draining
      settled.session.loads = [] ∧ settled.session.jobs = [] ∧ settled.session.inbox = [] ∧
        (∀ snapshot, settled.session.current = some snapshot → snapshot.state ≠ .loading) ∧
        settled.session.processUpdates = (0, settled.session) ∧
        ∀ later, (∀ tick ∈ later, tick.isCall = false) → settled.run later = settled := by
  intro first thread session
  have hfirst : Kept first := .start status store
  have h : Kept thread := hfirst.run ticks
  have hawaiting : Awaiting session := awaiting_run hfirst (Awaiting.start status store) hhonest
  refine ⟨?_, h.tallied.loads, ?_, h.tallied.unposted_le, ?_⟩
  · obtain ⟨news, hdispatched, hperm⟩ := dispatched_run hfirst ticks
    have hnews : session.dispatched = news := hdispatched
    rw [hnews]
    exact hperm
  · intro load result later hinbox
    rw [h.tallied.loads]
    unfold outstanding
    rw [hinbox, List.length_append]
    exact Nat.add_pos_right _ (Nat.succ_pos _)
  · intro counting draining hidle hbackground hseen settled
    obtain ⟨hnone, hactivity, hloads, hjobs, hinbox, hcurrent⟩ :=
      settled_of_seesIdle h hidle hbackground hseen
    refine ⟨hloads, hjobs, hinbox, ?_, ?_, ?_⟩
    · intro snapshot hsnapshot
      exact hawaiting.not_loading hnone (hcurrent.symm.trans hsnapshot)
    · have hsame : ({ settled.session with inbox := [] } : Session) = settled.session := by
        rw [← hinbox]
      unfold processUpdates
      rw [hinbox]
      exact congrArg (Prod.mk 0) hsame
    · intro later hlater
      exact run_eq_self hactivity hloads hjobs fun tick htick ↦ ⟨hlater tick htick, Or.inr hinbox⟩

/-- The first of two navigations is cancelled, and the request of the second has posted its answer
but has not been counted off. -/
def overtaken : List Tick :=
  [.input (.navigate disk "/r" true), .input (.navigate disk "/r" true),
    .input (.respond 1 (.error (.cancelled "/r"))),
    .input (.respond 2 (.ok [⟨"a", false, none⟩])), .input .process, .input .process,
    .resume, .resume, .resume, .input (.compute 0 (some dirty)), .input (.advance 0),
    .input (.advance 0), .input .process]

theorem idle_is_settled_overtaken :
    let thread := (ofSession (.start (some .empty) .absent)).run overtaken
    let settled := thread.run [.input (.advance 0)]
    thread.session.isIdle = false ∧ thread.seesIdle [.input (.advance 0)] [] = true ∧
      settled.session.loads = [] ∧ settled.session.jobs = [] ∧ settled.session.inbox = [] ∧
      (∀ snapshot, settled.session.current = some snapshot → snapshot.state ≠ .loading) ∧
      settled.session.processUpdates = (0, settled.session) ∧
      ∀ later, (∀ tick ∈ later, tick.isCall = false) → settled.run later = settled := by
  intro thread settled
  have hhonest : (ofSession (.start (some .empty) .absent)).honest overtaken = true := by
    decide +kernel
  have hidle : thread.activity = .idle := by with_unfolding_all rfl
  have hseen : thread.seesIdle [.input (.advance 0)] [] = true := by decide +kernel
  have hbackground : ∀ tick ∈ [Tick.input (.advance 0)] ++ [], tick.isBackground = true := by
    simp [Tick.isBackground, Input.isBackground]
  obtain ⟨-, -, -, -, hsettled⟩ := idle_is_settled (some .empty) .absent overtaken hhonest
  exact ⟨by decide +kernel, hseen,
    hsettled [.input (.advance 0)] [] hidle hbackground hseen⟩

end Presentation

end DirectoryBrowser
