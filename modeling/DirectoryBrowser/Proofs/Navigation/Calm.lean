import DirectoryBrowser.Proofs.Navigation.Answers

/-!
# While a listing stays on show

A step either shows a snapshot or leaves the one on show where it is. Between
two that do, a session with a listing on show can only select, take answers
from the workers, and handle them: no listing of the present generation is left
to be handled. `Calm` lists these steps with the events that they add.
-/

namespace DirectoryBrowser.Session

/-! ### What comes on show -/

/-- The response that is waited for is handled, and brings a listing. -/
inductive Arrival (session : Session) : Snapshot → Session → Prop
  | mk (backend : Backend) (load : Load) (children : List Entry) (later : List Update)
      (hbackend : session.backend = some backend)
      (hinbox : session.inbox = .listed load (.ok children) :: later)
      (hgeneration : load.generation = session.generation) :
      Arrival session (Snapshot.loaded backend load.path children load.generation)
        ({ session with
          inbox := later
          loadsInFlight := session.loadsInFlight - 1
          loadToken := none }.showLoaded backend load children)

/-- What a step may do to what is on show. -/
inductive Shown (session : Session) (input : Input) (next : Session) : Prop
  | kept (hcurrent : next.current = session.current) (hpublished : next.published = session.published)
  | bare (snapshot : Snapshot) (hstate : snapshot.state ≠ .loaded)
      (hcurrent : next.current = some snapshot)
      (hpublished : next.published = session.published ++ [snapshot])
  | listed (snapshot : Snapshot) (hinput : input = .process)
      (harrival : Arrival session snapshot next) (hcurrent : next.current = some snapshot)
      (hpublished : next.published = session.published ++ [snapshot])

theorem published_append {session next : Session} {news : List Event} {snapshots : List Snapshot}
    (htrace : next.trace = session.trace ++ news)
    (hnews : news.filterMap Event.published? = snapshots) :
    next.published = session.published ++ snapshots := by
  unfold published
  rw [htrace, List.filterMap_append, hnews]

theorem published_onShow_persist (session : Session) (snapshot : Snapshot) :
    (session.onShow snapshot).persist.published = session.published ++ [snapshot] ∧
      (session.onShow snapshot).persist.current = some snapshot := by
  obtain ⟨store, saves, hpersist, hsaves⟩ := session.onShow_persist_eq snapshot
  have hnone := filterMap_published_of_isAside fun event hevent ↦ Or.inl (hsaves event hevent)
  have hnews : (.published snapshot :: saves).filterMap Event.published? = [snapshot] :=
    congrArg (snapshot :: ·) hnone
  rw [hpersist]
  exact ⟨published_append rfl hnews, rfl⟩

theorem called_shown {session next : Session} {input : Input}
    (hcalled : Called session input next) : Shown session input next := by
  cases hcalled with
  | stayed => exact .kept rfl rfl
  | opened _ backend path =>
    exact .bare _ (by simp [Snapshot.loading]) (openAt_current session backend path)
      (published_append (openAt_trace session backend path) rfl)
  | refreshed backend snapshot path =>
    obtain ⟨status, hdistrust⟩ := distrust_eq
      { session.openAt backend path with selected := session.selected } backend snapshot.path
    rw [hdistrust]
    exact .bare _ (by simp [Snapshot.loading]) (openAt_current session backend path)
      (published_append (openAt_trace session backend path) rfl)
  | selected name =>
    obtain ⟨store, saves, hpersist, hsaves⟩ := persist_eq { session with selected := some name }
    have hnone : saves.filterMap Event.published? = [] :=
      filterMap_published_of_isAside fun event hevent ↦ Or.inl (hsaves event hevent)
    rw [hpersist]
    exact .kept rfl ((published_append rfl hnone).trans (List.append_nil _))

theorem handled_shown {session next : Session} {update : Update} {later : List Update}
    (hinbox : session.inbox = update :: later)
    (hhandled : Handled { session with inbox := later } update next) :
    Shown session .process next := by
  cases hhandled with
  | stale => exact .kept rfl rfl
  | cancelled => exact .kept rfl rfl
  | loaded load children backend hbackend hgeneration =>
    obtain ⟨selected, store, status, waiting, jobs, pendingStatus, asides, hshown, hasides⟩ :=
      showLoaded_eq { session with
        inbox := later
        loadsInFlight := session.loadsInFlight - 1
        loadToken := none } backend load children
    have hnews : (.published (Snapshot.loaded backend load.path children load.generation) ::
        asides).filterMap Event.published? =
          [Snapshot.loaded backend load.path children load.generation] :=
      congrArg (_ :: ·) (filterMap_published_of_isAside hasides)
    refine .listed _ rfl (.mk backend load children later hbackend hinbox hgeneration) ?_ ?_
    · rw [hshown]
    · rw [hshown]
      exact published_append rfl hnews
  | reopened load error backend =>
    exact .bare _ (by simp [Snapshot.loading]) (openAt_current _ backend _)
      (published_append (openAt_trace _ backend _) rfl)
  | failed load error backend =>
    exact .bare (Snapshot.failed backend load.path error.message load.generation)
      (by simp [Snapshot.failed]) rfl
      (by simp [published, Event.published?, showFailed, publish, emit])
  | status path key generation changed =>
    obtain ⟨waiting, news, hstatus, hnews⟩ :=
      handleStatus_eq { session with inbox := later } path key generation changed
    have hnone : news.filterMap Event.published? = [] :=
      filterMap_published_of_isAside fun event hevent ↦ Or.inr ⟨path, hnews event hevent⟩
    rw [hstatus]
    exact .kept rfl ((published_append rfl hnone).trans (List.append_nil _))

theorem step_shown (session : Session) (input : Input) :
    Shown session input (session.step input) := by
  have hmoved := session.step_moved input
  generalize session.step input = next at hmoved ⊢
  cases hmoved with
  | called hcalled => exact called_shown hcalled
  | responded => exact .kept rfl rfl
  | worked _ hworked =>
    obtain ⟨status, jobs, pendingStatus, news, rfl, -⟩ := hworked.eq
    exact .kept rfl rfl
  | handled update later hinbox hhandled => exact handled_shown hinbox hhandled

/-- Only the arrival of a listing puts one on show. -/
theorem current_of_step {session : Session} {input : Input} {snapshot : Snapshot}
    (harrival : input = .process → ∀ snapshot next, ¬ Arrival session snapshot next)
    (hcurrent : (session.step input).current = some snapshot) (hloaded : snapshot.state = .loaded) :
    session.current = some snapshot := by
  cases session.step_shown input with
  | kept hsame => rwa [hsame] at hcurrent
  | bare other hstate hother =>
    cases hother.symm.trans hcurrent
    exact absurd hloaded hstate
  | listed other hinput hlisted => exact absurd hlisted (harrival hinput _ _)

/-- What is on show is what has been published last. -/
theorem getLast?_published_step {session : Session}
    (h : session.published.getLast? = session.current) (input : Input) :
    (session.step input).published.getLast? = (session.step input).current := by
  cases session.step_shown input with
  | kept hcurrent hpublished => rw [hpublished, hcurrent, h]
  | bare snapshot _ hcurrent hpublished => rw [hpublished, hcurrent, List.getLast?_concat]
  | listed snapshot _ _ hcurrent hpublished => rw [hpublished, hcurrent, List.getLast?_concat]

/-! ### Steps that show nothing -/

inductive Calm (session : Session) : Input → Session → Prop
  | kept {next : Session} (input : Input) (saves : List Event) (hsame : SameAnswers session next)
      (hwaiting : next.waiting = session.waiting) (htrace : next.trace = session.trace ++ saves)
      (hsaves : ∀ event ∈ saves, ∃ state, event = .saved state) :
      Calm session input next
  | worked {next : Session} (input : Input) (hworked : Worked session next) :
      Calm session input next
  | answered (path key : String) (generation : Nat) (changed : Bool) (later : List Update)
      (hinbox : session.inbox = .status path key generation changed :: later) :
      Calm session .process
        (({ session with inbox := later } : Session).handleStatus path key generation changed)

/-- A step that opens no generation is calm, since no listing of the present one is left. -/
theorem calm_step {session : Session} {snapshot : Snapshot} {input : Input}
    (htimeline : Timeline session) (hcurrent : session.current = some snapshot)
    (hloaded : snapshot.state = .loaded)
    (hgeneration : (session.step input).generation = session.generation) :
    Calm session input (session.step input) ∧ (session.step input).current = some snapshot := by
  have hmoved := session.step_moved input
  generalize session.step input = next at hmoved hgeneration ⊢
  cases hmoved with
  | called hcalled =>
    cases hcalled with
    | stayed => exact ⟨.kept _ [] ⟨⟨rfl, rfl⟩, rfl, rfl⟩ rfl (by simp) (by simp), hcurrent⟩
    | opened _ backend path => exact absurd hgeneration (Nat.succ_ne_self _)
    | refreshed backend other path =>
      obtain ⟨status, hdistrust⟩ := distrust_eq
        { session.openAt backend path with selected := session.selected } backend other.path
      rw [hdistrust] at hgeneration
      exact absurd hgeneration (Nat.succ_ne_self _)
    | selected name =>
      obtain ⟨store, saves, hpersist, hsaves⟩ := persist_eq { session with selected := some name }
      rw [hpersist]
      exact ⟨.kept _ saves ⟨⟨rfl, rfl⟩, rfl, rfl⟩ rfl rfl hsaves, hcurrent⟩
  | responded generation result load hload =>
    refine ⟨.kept _ [] ⟨⟨rfl, rfl⟩, rfl, ?_⟩ rfl (by simp) (by simp), hcurrent⟩
    simp [answers, Update.answer?]
  | worked _ hworked =>
    refine ⟨.worked _ hworked, ?_⟩
    obtain ⟨status, jobs, pendingStatus, news, rfl, -⟩ := hworked.eq
    exact hcurrent
  | handled update later hinbox hhandled =>
    have hkept (load : Load) (result : Except BackendError (List Entry)) (loadToken : Option Nat)
        (hupdate : update = .listed load result) :
        Calm session .process { session with
          inbox := later, loadsInFlight := session.loadsInFlight - 1, loadToken } := by
      refine .kept _ [] ⟨⟨rfl, rfl⟩, rfl, ?_⟩ rfl (by simp) (by simp)
      unfold answers
      rw [hinbox, hupdate]
      rfl
    have hgone (load : Load) (result : Except BackendError (List Entry))
        (hupdate : update = .listed load result) : load.generation ≠ session.generation := by
      intro heq
      have hexpected := htimeline.current_of_inbox (hupdate ▸ hinbox) heq
      rw [hcurrent, Option.some.injEq] at hexpected
      rw [hexpected] at hloaded
      cases hloaded
    cases hhandled with
    | stale load result => exact ⟨hkept load result _ rfl, hcurrent⟩
    | cancelled load error hnow => exact absurd hnow (hgone load _ rfl)
    | loaded load children backend hbackend hnow => exact absurd hnow (hgone load _ rfl)
    | reopened load error backend hbackend hnow => exact absurd hnow (hgone load _ rfl)
    | failed load error backend hbackend hnow => exact absurd hnow (hgone load _ rfl)
    | status path key generation changed =>
      refine ⟨.answered path key generation changed later hinbox, ?_⟩
      obtain ⟨waiting, news, hstatus, -⟩ :=
        handleStatus_eq { session with inbox := later } path key generation changed
      rw [hstatus]
      exact hcurrent

/-- What calm steps keep holds for as long as a loaded snapshot stays on show. -/
theorem calm_run {motive : Session → Prop} {session : Session} {snapshot : Snapshot}
    {inputs : List Input} (htimeline : Timeline session)
    (hcurrent : session.current = some snapshot) (hloaded : snapshot.state = .loaded)
    (hfinal : (session.run inputs).generation = session.generation) (hstart : motive session)
    (hstep : ∀ (session : Session) (input : Input), input ∈ inputs → Timeline session →
      session.current = some snapshot → motive session → Calm session input (session.step input) →
      (session.step input).generation = session.generation → motive (session.step input)) :
    motive (session.run inputs) ∧ (session.run inputs).current = some snapshot := by
  induction inputs generalizing session with
  | nil => exact ⟨hstart, hcurrent⟩
  | cons input inputs ih =>
    have hfirst := session.generation_le_step input
    have hrest := (session.step input).generation_le_run inputs
    have hrun : session.run (input :: inputs) = (session.step input).run inputs := rfl
    rw [hrun] at hfinal ⊢
    have hgeneration : (session.step input).generation = session.generation := by omega
    obtain ⟨hcalm, hnext⟩ := calm_step htimeline hcurrent hloaded hgeneration
    have hmotive :=
      hstep session input (List.mem_cons_self ..) htimeline hcurrent hstart hcalm hgeneration
    refine ih (htimeline.step input) hnext (by omega) hmotive ?_
    exact fun other next hnext ↦ hstep other next (List.mem_cons_of_mem _ hnext)

end DirectoryBrowser.Session
