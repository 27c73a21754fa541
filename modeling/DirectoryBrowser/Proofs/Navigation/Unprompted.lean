import DirectoryBrowser.Proofs.Navigation.Calm
import DirectoryBrowser.Proofs.Navigation.Counts

/-!
# What happens without a call

Between two calls of the user a session is moved on by its workers and by the
updates that it handles. Only the handling of the listing that is waited for
changes what is on show: it brings the listing, a failure, or, in the replay of
a saved location, the placeholder of the root. `Unprompted` gives these outcomes
with what each of them tells the listeners.
-/

namespace DirectoryBrowser

/-- Tells how a navigation goes: what it shows, sends for, and finds to fail. -/
def Event.isNavigation : Event → Bool
  | .published _ | .loadFailed .. | .dispatched _ => true
  | .statusUpdated .. | .saved _ => false

theorem filter_isNavigation_of_isAside {events : List Event}
    (h : ∀ event ∈ events, event.IsAside) : events.filter Event.isNavigation = [] := by
  rw [← List.filterMap_eq_filter]
  exact filterMap_of_isAside (fun _ ↦ rfl) (fun _ _ ↦ rfl) h

namespace Load

def placeholder (load : Load) : Snapshot :=
  Snapshot.loading load.backend load.path load.generation

def loaded (load : Load) (children : List Entry) : Snapshot :=
  Snapshot.loaded load.backend load.path children load.generation

def failed (load : Load) (error : BackendError) : Snapshot :=
  Snapshot.failed load.backend load.path error.message load.generation

/-- The load that takes the place of one that has failed in a replay. -/
def retreat (load : Load) : Load :=
  ⟨load.generation + 1, Session.target load.backend load.backend.root.path, load.backend⟩

/-- What is told when a load is begun. -/
def opening (load : Load) : List Event :=
  [.published load.placeholder, .dispatched load]

end Load

/-- What a session shows, and what it remembers of how it came to show it. -/
structure View where
  backend : Option Backend
  current : Option Snapshot
  generation : Nat
  restoring : Option Nat
  selected : Option String

namespace View

def awaiting (load : Load) (restoring : Option Nat) (selected : Option String) : View :=
  ⟨some load.backend, some load.placeholder, load.generation, restoring, selected⟩

def showing (snapshot : Snapshot) (selected : Option String) : View :=
  ⟨some snapshot.backend, some snapshot, snapshot.generation, none, selected⟩

end View

namespace Session

variable {session next : Session}

def view (session : Session) : View :=
  ⟨session.backend, session.current, session.generation, session.restoring, session.selected⟩

def navigations (session : Session) : List Event :=
  session.trace.filter Event.isNavigation

theorem navigations_append {news told : List Event} (htrace : next.trace = session.trace ++ news)
    (hnews : news.filter Event.isNavigation = told) :
    next.navigations = session.navigations ++ told := by
  unfold navigations
  rw [htrace, List.filter_append, hnews]

theorem navigations_of_isAside {news : List Event} (htrace : next.trace = session.trace ++ news)
    (hnews : ∀ event ∈ news, event.IsAside) : next.navigations = session.navigations := by
  rw [navigations_append htrace (filter_isNavigation_of_isAside hnews), List.append_nil]

/-! ### Steps -/

inductive Unprompted (session : Session) (input : Input) (next : Session) : Prop
  | quiet (hview : next.view = session.view) (hnavigations : next.navigations = session.navigations)
      (hquiet : ∀ load result, input = .process →
        session.inbox.head? = some (.listed load result) → load.generation = session.generation →
        ∃ error, result = .error error ∧ error.isCancelled = true)
  | loaded (load : Load) (children : List Entry)
      (hinbox : session.inbox.head? = some (.listed load (.ok children)))
      (hview : session.view = .awaiting load session.restoring session.selected)
      (hnext : next.view = .showing (load.loaded children)
        (keepSelected (load.loaded children) session.selected))
      (hnavigations : next.navigations =
        session.navigations ++ [.published (load.loaded children)])
  | reopened (load : Load) (error : BackendError)
      (hinbox : session.inbox.head? = some (.listed load (.error error)))
      (hcancelled : error.isCancelled = false)
      (hview : session.view = .awaiting load (some load.generation) session.selected)
      (hnext : next.view = .awaiting load.retreat none none)
      (hnavigations : next.navigations = session.navigations ++ load.retreat.opening)
  | failed (load : Load) (error : BackendError)
      (hinbox : session.inbox.head? = some (.listed load (.error error)))
      (hcancelled : error.isCancelled = false)
      (hview : session.view = .awaiting load session.restoring session.selected)
      (hrestoring : session.restoring ≠ some load.generation)
      (hnext : next.view = .showing (load.failed error) session.selected)
      (hnavigations : next.navigations = session.navigations ++
        [.published (load.failed error), .loadFailed load.path error])

/-- The listing of the present generation finds its placeholder on show. -/
theorem view_of_inbox (h : Timeline session) {load : Load}
    {result : Except BackendError (List Entry)} {later : List Update}
    (hinbox : session.inbox = .listed load result :: later)
    (hgeneration : load.generation = session.generation) :
    session.view = .awaiting load session.restoring session.selected := by
  have hcurrent := h.current_of_inbox hinbox hgeneration
  have hbackend : session.backend = some load.backend := (h.current _ hcurrent).2
  unfold view View.awaiting
  rw [hcurrent, hbackend, ← hgeneration]
  rfl

theorem showLoaded_selected (session : Session) (backend : Backend) (load : Load)
    (children : List Entry) : (session.showLoaded backend load children).selected =
      keepSelected (Snapshot.loaded backend load.path children load.generation)
        session.selected := by
  unfold showLoaded
  generalize Snapshot.loaded backend load.path children load.generation = snapshot
  obtain ⟨store, saves, hpersist, -⟩ := session.onShow_persist_eq snapshot
  obtain ⟨status, waiting, jobs, pendingStatus, news, hrequest, -⟩ :=
    (session.onShow snapshot).persist.requestStatus_eq snapshot
  rw [hrequest, hpersist]

theorem handled_unprompted (h : Timeline session) {update : Update} {later : List Update}
    (hinbox : session.inbox = update :: later)
    (hhandled : Handled { session with inbox := later } update next) :
    Unprompted session .process next := by
  have hhead : session.inbox.head? = some update := by
    rw [hinbox]
    rfl
  cases hhandled with
  | stale load result hstale =>
    refine .quiet rfl rfl fun other otherResult _ hother hgeneration ↦ ?_
    cases hhead.symm.trans hother
    rcases hstale with hnone | hne
    · have hview := congrArg View.backend (view_of_inbox h hinbox hgeneration)
      exact absurd (hview.symm.trans hnone) (Option.some_ne_none _)
    · exact absurd hgeneration hne
  | cancelled load error hgeneration hcancelled =>
    refine .quiet rfl rfl fun other otherResult _ hother _ ↦ ?_
    cases hhead.symm.trans hother
    exact ⟨error, rfl, hcancelled⟩
  | loaded load children backend hbackend hgeneration =>
    have hview := view_of_inbox h hinbox hgeneration
    cases hbackend.symm.trans (congrArg View.backend hview)
    obtain ⟨selected, store, status, waiting, jobs, pendingStatus, asides, hshown, hasides⟩ :=
      showLoaded_eq { session with
        inbox := later
        loadsInFlight := session.loadsInFlight - 1
        loadToken := none } load.backend load children
    have hselected : selected = keepSelected (load.loaded children) session.selected := by
      have hkept := congrArg Session.selected hshown
      rw [showLoaded_selected] at hkept
      exact hkept.symm
    refine .loaded load children hhead hview ?_ ?_
    · rw [hshown, hselected]
      unfold view View.showing
      rw [hbackend, ← hgeneration]
      rfl
    · rw [hshown]
      exact navigations_append rfl
        (congrArg (_ :: ·) (filter_isNavigation_of_isAside hasides))
  | reopened load error backend hbackend hgeneration hcancelled hrestoring =>
    have hview := view_of_inbox h hinbox hgeneration
    cases hbackend.symm.trans (congrArg View.backend hview)
    refine .reopened load error hhead (Bool.not_eq_true _ ▸ hcancelled) (hrestoring ▸ hview) ?_ ?_
    · unfold view View.awaiting Load.placeholder Load.retreat
      simp only [openAt_backend, openAt_current, openAt_generation, hgeneration]
      rfl
    · refine navigations_append (openAt_trace _ load.backend _) ?_
      unfold Load.opening Load.placeholder Load.retreat
      rw [hgeneration]
      rfl
  | failed load error backend hbackend hgeneration hcancelled hrestoring =>
    have hview := view_of_inbox h hinbox hgeneration
    cases hbackend.symm.trans (congrArg View.backend hview)
    refine .failed load error hhead (Bool.not_eq_true _ ▸ hcancelled) hview hrestoring ?_ ?_
    · have hsame : session.backend = some load.backend := hbackend
      unfold view View.showing showFailed publish emit Load.failed
      dsimp only
      rw [hsame, ← hgeneration]
      rfl
    · exact navigations_append (List.append_assoc ..) rfl
  | status path key generation changed =>
    obtain ⟨waiting, news, hstatus, hnews⟩ :=
      handleStatus_eq { session with inbox := later } path key generation changed
    rw [hstatus]
    refine .quiet rfl (navigations_of_isAside rfl fun event hevent ↦ Or.inr
      ⟨path, hnews event hevent⟩) fun other otherResult _ hother _ ↦ ?_
    cases hhead.symm.trans hother

theorem step_unprompted (h : Timeline session) {input : Input} (hcall : input.isCall = false) :
    Unprompted session input (session.step input) := by
  by_cases hprocess : input = .process
  · subst hprocess
    cases hinbox : session.inbox with
    | nil =>
      have hsame : session.step .process = session := by
        simp only [Session.step, handleNext, hinbox]
      rw [hsame]
      refine .quiet rfl rfl fun load result _ hhead _ ↦ ?_
      rw [hinbox] at hhead
      cases hhead
    | cons update later =>
      have hnext : session.step .process =
          ({ session with inbox := later } : Session).handle update := by
        simp only [Session.step, handleNext, hinbox]
      rw [hnext]
      exact handled_unprompted h hinbox (handle_handled _ update)
  · have hworked (next : Session) (hnext : next = session ∨ Worked session next) :
        Unprompted session input next := by
      rcases hnext with rfl | hworked
      · exact .quiet rfl rfl fun _ _ hinput ↦ absurd hinput hprocess
      · obtain ⟨status, jobs, pendingStatus, news, rfl, -⟩ := hworked.eq
        exact .quiet rfl rfl fun _ _ hinput ↦ absurd hinput hprocess
    cases input with
    | respond generation result =>
      simp only [Session.step, respond]
      split
      · exact .quiet rfl rfl fun _ _ hinput ↦ absurd hinput hprocess
      · exact .quiet rfl rfl fun _ _ hinput ↦ absurd hinput hprocess
    | compute index record => exact hworked _ (session.computeStatus_worked index record)
    | advance index => exact hworked _ (session.advanceStatus_worked index)
    | process => exact absurd rfl hprocess
    | _ => cases hcall

end Session

end DirectoryBrowser
