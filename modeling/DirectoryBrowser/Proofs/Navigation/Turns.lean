import DirectoryBrowser.Proofs.Navigation.Interleaving
import DirectoryBrowser.Proofs.Navigation.LatestWins

/-!
# Turns of the presentation thread

For the cache it is enough to know which slots and requests a tick touches.
What is on show and what is outstanding needs the session itself. `Turned`
gives it for every tick: a call that runs to its end is a step of the session,
the two that are cut begin with their own first part, and whatever is left of
a call after that has to do with badges alone. The order of navigations is
therefore kept between any two accesses to the cache, too.
-/

namespace DirectoryBrowser.Presentation

open Session

def ofSession (session : Session) : Presentation := ⟨session, .idle, []⟩

inductive Turned (thread : Presentation) : Tick → Presentation → Prop
  | busy (input : Input) (hown : input.isBackground = false) (hbusy : thread.activity ≠ .idle) :
      Turned thread (.input input) thread
  | stepped (input : Input) (log : List Happening)
      (hfree : input.isBackground = true ∨ thread.activity = .idle) :
      Turned thread (.input input) ⟨thread.session.step input, thread.activity, log⟩
  | refreshing (backend : Backend) (snapshot : Snapshot) (path : String)
      (hidle : thread.activity = .idle) (hbackend : thread.session.backend = some backend)
      (hcurrent : thread.session.current = some snapshot) :
      Turned thread (.input .refresh)
        { thread with
          session := { thread.session.openAt backend path with selected := thread.session.selected }
          activity := .distrusting backend snapshot.path }
  | arriving (backend : Backend) (load : Load) (children : List Entry) (later : List Update)
      (hidle : thread.activity = .idle) (hbackend : thread.session.backend = some backend)
      (hinbox : thread.session.inbox = .listed load (.ok children) :: later)
      (hgeneration : load.generation = thread.session.generation) :
      Turned thread (.input .process)
        { thread with
          session := ({ thread.session with
            inbox := later
            loadsInFlight := thread.session.loadsInFlight - 1
            loadToken := none }.onShow
              (Snapshot.loaded backend load.path children load.generation)).persist
          activity := .asking (Snapshot.loaded backend load.path children load.generation)
            (Snapshot.loaded backend load.path children load.generation).children [] }
  | resumed (status : Option StatusCache) (waiting : List String) (jobs : List StatusJob)
      (pendingStatus : Nat) (news : List Event) (activity : Activity) (log : List Happening)
      (hcounted : pendingStatus + thread.session.jobs.length =
        thread.session.pendingStatus + jobs.length)
      (hnews : ∀ event ∈ news, ∃ path text, event = .statusUpdated path text) :
      Turned thread .resume
        ⟨{ thread.session with
          status, waiting, jobs, pendingStatus, trace := thread.session.trace ++ news },
          activity, log⟩

theorem call_turned (thread : Presentation) {input : Input} (hidle : thread.activity = .idle) :
    Turned thread (.input input) (thread.call input) := by
  have hstepped : Turned thread (.input input)
      { thread with session := thread.session.step input } :=
    .stepped input thread.log (Or.inr hidle)
  unfold call
  dsimp only
  split
  case h_1 =>
    split
    case h_1 backend snapshot hbackend hcurrent =>
      exact .refreshing backend snapshot _ hidle hbackend hcurrent
    case h_2 hnone =>
      have hsame : thread.session.step .refresh = thread.session := by
        simp only [Session.step, refresh]
      rwa [hsame] at hstepped
  case h_2 =>
    split
    case h_1 backend load children later hbackend hinbox =>
      split
      case isTrue hgeneration =>
        exact .arriving backend load children later hidle hbackend hinbox hgeneration
      case isFalse => exact hstepped
    case h_2 => exact hstepped
  case h_3 => exact hstepped

theorem submit_eq (snapshot : Snapshot) (session : Session) (entry : Entry) (key : String) :
    ∃ status jobs pendingStatus,
      submit snapshot session entry key = { session with status, jobs, pendingStatus } ∧
      pendingStatus + session.jobs.length = session.pendingStatus + jobs.length := by
  unfold submit
  split
  · exact ⟨_, _, _, rfl, rfl⟩
  · dsimp only
    split
    · refine ⟨_, _, _, rfl, ?_⟩
      rw [List.length_append, List.length_singleton]
      omega
    · exact ⟨_, _, _, rfl, rfl⟩

theorem requestBadge_eq (snapshot : Snapshot) (session : Session) (entry : Entry) :
    ∃ status waiting jobs pendingStatus, (requestBadge snapshot session entry).1 =
      { session with status, waiting, jobs, pendingStatus } ∧
      pendingStatus + session.jobs.length = session.pendingStatus + jobs.length := by
  have hrequested := requestBadge_requested snapshot session entry
  generalize (requestBadge snapshot session entry).1 = next at hrequested ⊢
  generalize (requestBadge snapshot session entry).2 = hit at hrequested
  cases hrequested with
  | submitted =>
    refine ⟨_, _, _, _, rfl, ?_⟩
    rw [List.length_append, List.length_singleton]
    omega
  | _ => exact ⟨_, _, _, _, rfl, rfl⟩

theorem resume_turned (thread : Presentation) : Turned thread .resume thread.resume := by
  have hquiet (status : Option StatusCache) (waiting : List String) (jobs : List StatusJob)
      (pendingStatus : Nat) (activity : Activity) (log : List Happening)
      (hcounted : pendingStatus + thread.session.jobs.length =
        thread.session.pendingStatus + jobs.length) :
      Turned thread .resume
        ⟨{ thread.session with status, waiting, jobs, pendingStatus }, activity, log⟩ := by
    have h := Turned.resumed status waiting jobs pendingStatus [] activity log hcounted (by simp)
    rwa [List.append_nil] at h
  unfold resume
  dsimp only
  split
  case h_1 => exact hquiet _ _ _ _ _ _ rfl
  case h_2 backend path _ =>
    obtain ⟨status, hdistrust⟩ := thread.session.distrust_eq backend path
    rw [hdistrust]
    exact hquiet status _ _ _ _ _ rfl
  case h_3 snapshot hits _ =>
    rw [announce_eq]
    refine .resumed _ _ _ _ _ _ _ rfl ?_
    intro event hevent
    obtain ⟨hit, -, rfl⟩ := List.mem_map.mp hevent
    exact ⟨_, _, rfl⟩
  case h_4 snapshot entry entries hits _ =>
    split
    case h_1 => exact hquiet _ _ _ _ _ _ rfl
    case h_2 =>
      obtain ⟨status, waiting, jobs, pendingStatus, hrequest, hcounted⟩ :=
        requestBadge_eq snapshot thread.session entry
      rw [hrequest]
      exact hquiet status waiting jobs pendingStatus _ _ hcounted
  case h_5 snapshot entry key entries hits _ =>
    obtain ⟨status, jobs, pendingStatus, hsubmit, hcounted⟩ :=
      submit_eq snapshot thread.session entry key
    rw [hsubmit]
    exact hquiet status _ jobs pendingStatus _ _ hcounted

theorem tick_turned (thread : Presentation) (tick : Tick) :
    Turned thread tick (thread.tick tick) := by
  cases tick with
  | resume => exact thread.resume_turned
  | input input =>
    unfold Presentation.tick
    dsimp only
    split
    case isTrue hbackground => exact .stepped input _ (Or.inl hbackground)
    case isFalse hown =>
      split
      case h_1 hidle => exact thread.call_turned hidle
      case h_2 hbusy => exact .busy input (Bool.not_eq_true _ ▸ hown) hbusy

theorem generation_le_tick (thread : Presentation) (tick : Tick) :
    thread.session.generation ≤ (thread.tick tick).session.generation := by
  have hturned := thread.tick_turned tick
  generalize thread.tick tick = next at hturned ⊢
  cases hturned with
  | busy => exact Nat.le_refl _
  | stepped input => exact thread.session.generation_le_step input
  | refreshing => exact Nat.le_succ _
  | arriving backend load children later =>
    obtain ⟨store, saves, hpersist, -⟩ := onShow_persist_eq { thread.session with
      inbox := later
      loadsInFlight := thread.session.loadsInFlight - 1
      loadToken := none } (Snapshot.loaded backend load.path children load.generation)
    rw [hpersist]
  | resumed => exact Nat.le_refl _

theorem generation_le_run (thread : Presentation) (ticks : List Tick) :
    thread.session.generation ≤ (thread.run ticks).session.generation := by
  induction ticks generalizing thread with
  | nil => exact Nat.le_refl _
  | cons tick ticks ih => exact (thread.generation_le_tick tick).trans (ih _)

end Presentation

namespace Session.Timeline

open Presentation

variable {thread next : Presentation}

/-- A listing comes on show before its badges are asked for. -/
theorem arrived {session : Session} (h : Timeline session) {backend : Backend} {load : Load}
    {children : List Entry} {later : List Update} (hbackend : session.backend = some backend)
    (hinbox : session.inbox = .listed load (.ok children) :: later)
    (hgeneration : load.generation = session.generation) :
    Timeline ({ session with
      inbox := later
      loadsInFlight := session.loadsInFlight - 1
      loadToken := none }.onShow
        (Snapshot.loaded backend load.path children load.generation)).persist := by
  have hcurrent := h.current_of_inbox hinbox hgeneration
  have hactive : some backend = some load.backend :=
    hbackend.symm.trans (h.current _ hcurrent).2
  cases hactive
  obtain ⟨store, saves, hpersist, hsaves⟩ := onShow_persist_eq { session with
    inbox := later
    loadsInFlight := session.loadsInFlight - 1
    loadToken := none } (Snapshot.loaded load.backend load.path children load.generation)
  have hnews : saves.filterMap Event.published? = [] :=
    filterMap_published_of_isAside fun event hevent ↦ Or.inl (hsaves event hevent)
  rw [hpersist]
  refine (h.popped hinbox).answered hcurrent rfl (Snapshot.loaded_answers load children)
    (hgeneration ▸ h.gone hinbox) rfl rfl rfl rfl ?_ ?_
  · simp [published, Event.published?, hnews]
  · simp [Snapshot.Settles, Snapshot.loaded]

theorem turned {tick : Tick} (h : Timeline thread.session) (hturned : Turned thread tick next) :
    Timeline next.session := by
  cases hturned with
  | busy => exact h
  | stepped input => exact h.step input
  | refreshing backend snapshot path =>
    have hopened := h.opened backend path
    exact hopened.frame rfl rfl rfl rfl rfl (fun _ hload ↦ hload) hopened.distinct
  | arriving backend load children later hidle hbackend hinbox hgeneration =>
    exact h.arrived hbackend hinbox hgeneration
  | resumed status waiting jobs pendingStatus news activity log hcounted hnews =>
    have hnone : news.filterMap Event.published? = [] :=
      filterMap_published_of_isAside fun event hevent ↦ Or.inr (hnews event hevent)
    refine h.frame rfl rfl rfl rfl ?_ (fun _ hload ↦ hload) h.distinct
    simp [published, hnone]

end Session.Timeline

end DirectoryBrowser
