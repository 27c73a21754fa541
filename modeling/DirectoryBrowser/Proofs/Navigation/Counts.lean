import DirectoryBrowser.Proofs.Navigation.LatestWins

/-!
# The counts of a session

A session counts the listings that it has sent for until their responses are
handled, and its status requests until a worker has counted them off. `Passed`
follows the listings themselves: what a step dispatches becomes outstanding,
and what it handles has been outstanding before. `Tallied` says that both
counts are exact, so that no subtraction is ever cut short.
-/

open scoped List

namespace DirectoryBrowser

def Event.dispatched? : Event → Option Load
  | .dispatched load => some load
  | _ => none

theorem filterMap_dispatched_of_isAside {events : List Event}
    (h : ∀ event ∈ events, event.IsAside) : events.filterMap Event.dispatched? = [] :=
  filterMap_of_isAside (fun _ ↦ rfl) (fun _ _ ↦ rfl) h

namespace Session

variable {session next : Session}

def dispatched (session : Session) : List Load :=
  session.trace.filterMap Event.dispatched?

theorem dispatched_append {news : List Event} {loads : List Load}
    (htrace : next.trace = session.trace ++ news)
    (hnews : news.filterMap Event.dispatched? = loads) :
    next.dispatched = session.dispatched ++ loads := by
  unfold dispatched
  rw [htrace, List.filterMap_append, hnews]

/-- Listing whose response a step handles. -/
def handled? (session : Session) : Input → Option Load
  | .process => session.inbox.head?.bind Update.load?
  | _ => none

/-! ### From a listing's dispatch to its handling -/

/-- The listings in `news` are dispatched, and those in `handled` are outstanding no more. -/
structure Passed (session next : Session) (news handled : List Load) : Prop where
  dispatched : next.dispatched = session.dispatched ++ news
  perm : session.outstanding ++ news ~ handled ++ next.outstanding
  due : handled.length ≤ session.outstanding.length
  counted : next.loadsInFlight = session.loadsInFlight - handled.length + news.length

namespace Passed

theorem same (hdispatched : next.dispatched = session.dispatched)
    (houtstanding : next.outstanding = session.outstanding)
    (hcounted : next.loadsInFlight = session.loadsInFlight) : Passed session next [] [] where
  dispatched := by rw [hdispatched, List.append_nil]
  perm := by
    rw [houtstanding, List.append_nil]
    exact List.Perm.refl _
  due := Nat.zero_le _
  counted := by simpa using hcounted

/-- What is handled comes out of the inbox, and what is new joins the listings under way. -/
theorem popped {load : Load} {result : Except BackendError (List Entry)} {later : List Update}
    {news : List Load} (hinbox : session.inbox = .listed load result :: later)
    (hloads : next.loads = session.loads ++ news) (hlater : next.inbox = later)
    (hdispatched : next.dispatched = session.dispatched ++ news)
    (hcounted : next.loadsInFlight = session.loadsInFlight - 1 + news.length) :
    Passed session next news [load] where
  dispatched := hdispatched
  perm := by
    unfold outstanding
    rw [hinbox, hloads, hlater]
    calc session.loads ++ (load :: later.filterMap Update.load?) ++ news
      _ = session.loads ++ load :: (later.filterMap Update.load? ++ news) := by simp
      _ ~ load :: (session.loads ++ (later.filterMap Update.load? ++ news)) := List.perm_middle
      _ ~ load :: (session.loads ++ (news ++ later.filterMap Update.load?)) :=
        (List.perm_append_comm.append_left _).cons _
      _ = [load] ++ (session.loads ++ news ++ later.filterMap Update.load?) := by simp
  due := by
    unfold outstanding
    rw [hinbox, List.length_append]
    exact Nat.le_add_left_of_le (Nat.succ_le_succ (Nat.zero_le _))
  counted := hcounted

theorem opened (session : Session) (backend : Backend) (path : String) :
    Passed session (session.openAt backend path)
      [⟨session.generation + 1, path, backend⟩] [] where
  dispatched := dispatched_append (openAt_trace session backend path) rfl
  perm := by
    simp only [outstanding, openAt_loads, openAt_inbox, List.append_assoc, List.nil_append]
    exact List.perm_append_comm.append_left _
  due := Nat.zero_le _
  counted := rfl

theorem perm_cons_filter {loads : List Load} {load : Load}
    (hdistinct : (loads.map Load.generation).Nodup) (hload : load ∈ loads) :
    loads.Perm (load :: loads.filter fun other ↦ other.generation != load.generation) := by
  induction loads with
  | nil => cases hload
  | cons first loads ih =>
    rw [List.map_cons, List.nodup_cons] at hdistinct
    rcases List.mem_cons.mp hload with rfl | hrest
    · have hothers : ∀ other ∈ loads, (other.generation != load.generation) = true := by
        intro other hother
        rw [bne_iff_ne]
        intro heq
        exact hdistinct.1 (heq ▸ List.mem_map_of_mem hother)
      rw [List.filter_cons, if_neg (by simp), List.filter_eq_self.mpr hothers]
    · have hfirst : (first.generation != load.generation) = true := by
        rw [bne_iff_ne]
        intro heq
        exact hdistinct.1 (heq ▸ List.mem_map_of_mem hrest)
      rw [List.filter_cons, if_pos hfirst]
      exact ((ih hdistinct.2 hrest).cons first).trans (List.Perm.swap ..)

theorem responded {generation : Nat} {load : Load} (h : Timeline session)
    (result : Except BackendError (List Entry))
    (hload : session.loads.find? (fun load ↦ load.generation == generation) = some load) :
    Passed session { session with
      loads := session.loads.filter (fun load ↦ load.generation != generation)
      inbox := session.inbox ++ [.listed load result] } [] [] where
  dispatched := (List.append_nil _).symm
  perm := by
    obtain rfl : load.generation = generation := by simpa using List.find?_some hload
    have hdistinct := h.distinct
    unfold outstanding at hdistinct
    rw [List.map_append, List.nodup_append] at hdistinct
    have hkept := perm_cons_filter hdistinct.1 (List.mem_of_find?_eq_some hload)
    unfold outstanding
    simp only [List.append_nil, List.nil_append, List.filterMap_append]
    calc session.loads ++ session.inbox.filterMap Update.load?
      _ ~ load :: session.loads.filter (fun other ↦ other.generation != load.generation) ++
          session.inbox.filterMap Update.load? := hkept.append_right _
      _ ~ session.loads.filter (fun other ↦ other.generation != load.generation) ++
          load :: session.inbox.filterMap Update.load? := List.perm_middle.symm
      _ ~ session.loads.filter (fun other ↦ other.generation != load.generation) ++
          (session.inbox.filterMap Update.load? ++ [load]) :=
        (List.perm_append_singleton ..).symm.append_left _
  due := Nat.zero_le _
  counted := rfl

theorem worked (hworked : Worked session next) : Passed session next [] [] := by
  obtain ⟨status, jobs, pendingStatus, news, rfl, hnews⟩ := hworked.eq
  have hnone : news.filterMap Update.load? = [] := by
    rw [List.filterMap_eq_nil_iff]
    intro update hupdate
    obtain ⟨path, key, generation, changed, rfl⟩ := hnews update hupdate
    rfl
  exact same rfl (by simp [outstanding, hnone]) rfl

theorem called {input : Input} (hcalled : Called session input next) :
    ∃ news, Passed session next news [] := by
  cases hcalled with
  | stayed => exact ⟨[], same rfl rfl rfl⟩
  | opened _ backend path =>
    have hopened := opened session backend path
    exact ⟨_, hopened.dispatched, hopened.perm, hopened.due, hopened.counted⟩
  | refreshed backend snapshot path =>
    have hopened := opened session backend path
    obtain ⟨status, hdistrust⟩ := distrust_eq
      { session.openAt backend path with selected := session.selected } backend snapshot.path
    rw [hdistrust]
    exact ⟨_, hopened.dispatched, hopened.perm, hopened.due, hopened.counted⟩
  | selected name =>
    obtain ⟨store, saves, hpersist, hsaves⟩ := persist_eq { session with selected := some name }
    have hnone : saves.filterMap Event.dispatched? = [] :=
      filterMap_dispatched_of_isAside fun event hevent ↦ Or.inl (hsaves event hevent)
    rw [hpersist]
    exact ⟨[], same (by simp [Session.dispatched, hnone]) rfl rfl⟩

theorem handled {update : Update} {later : List Update} (hinbox : session.inbox = update :: later)
    (hhandled : Handled { session with inbox := later } update next) :
    ∃ news, Passed session next news update.load?.toList := by
  cases hhandled with
  | stale => exact ⟨[], popped hinbox (by simp) rfl (by simp [Session.dispatched]) rfl⟩
  | cancelled => exact ⟨[], popped hinbox (by simp) rfl (by simp [Session.dispatched]) rfl⟩
  | loaded load children backend =>
    obtain ⟨selected, store, status, waiting, jobs, pendingStatus, asides, hshown, hasides⟩ :=
      showLoaded_eq { session with
        inbox := later
        loadsInFlight := session.loadsInFlight - 1
        loadToken := none } backend load children
    have hnone : asides.filterMap Event.dispatched? = [] :=
      filterMap_dispatched_of_isAside hasides
    rw [hshown]
    exact ⟨[], popped hinbox (by simp) rfl (dispatched_append rfl hnone) rfl⟩
  | reopened load error backend =>
    have hopened := openAt_trace session backend (target backend backend.root.path)
    exact ⟨[_], popped hinbox (openAt_loads _ backend _) rfl (dispatched_append hopened rfl) rfl⟩
  | failed load error backend =>
    have hshown : ({ session with
        inbox := later
        loadsInFlight := session.loadsInFlight - 1
        loadToken := none
        restoring := none }.showFailed backend load error).trace = session.trace ++
          [.published (Snapshot.failed backend load.path error.message load.generation),
            .loadFailed load.path error] := List.append_assoc ..
    exact ⟨[], popped hinbox (List.append_nil _).symm rfl (dispatched_append hshown rfl) rfl⟩
  | status path key generation changed =>
    obtain ⟨waiting, news, hstatus, hnews⟩ :=
      handleStatus_eq { session with inbox := later } path key generation changed
    have hnone : news.filterMap Event.dispatched? = [] :=
      filterMap_dispatched_of_isAside fun event hevent ↦ Or.inr ⟨path, hnews event hevent⟩
    have houtstanding : session.outstanding =
        ({ session with inbox := later } : Session).outstanding := by
      unfold outstanding
      rw [hinbox]
      rfl
    rw [hstatus]
    exact ⟨[], same (by simp [Session.dispatched, hnone]) houtstanding.symm rfl⟩

theorem step (h : Timeline session) (input : Input) :
    ∃ news, Passed session (session.step input) news (session.handled? input).toList := by
  by_cases hprocess : input = .process
  · rw [hprocess]
    unfold handled?
    cases hinbox : session.inbox with
    | nil =>
      have hsame : session.step .process = session := by
        simp only [Session.step, handleNext, hinbox]
      rw [hsame]
      exact ⟨[], same rfl rfl rfl⟩
    | cons update later =>
      have hnext : session.step .process =
          ({ session with inbox := later } : Session).handle update := by
        simp only [Session.step, handleNext, hinbox]
      rw [hnext]
      exact handled hinbox (handle_handled _ update)
  · have hnone : session.handled? input = none := by
      cases input with
      | process => exact absurd rfl hprocess
      | _ => rfl
    rw [hnone, Option.toList_none]
    have hmoved := session.step_moved input
    generalize session.step input = next at hmoved ⊢
    cases hmoved with
    | called hcalled => exact called hcalled
    | responded generation result load hload => exact ⟨[], responded h result hload⟩
    | worked _ hworked => exact ⟨[], worked hworked⟩
    | handled => exact absurd rfl hprocess

/-- What is outstanding has been sent for. -/
theorem outstanding_subset {news handled : List Load} (h : Passed session next news handled)
    (hsent : session.outstanding ⊆ session.dispatched) : next.outstanding ⊆ next.dispatched := by
  intro load hload
  rw [h.dispatched]
  rcases List.mem_append.mp (h.perm.mem_iff.mpr (List.mem_append_right handled hload)) with
    hold | hnew
  · exact List.mem_append_left _ (hsent hold)
  · exact List.mem_append_right _ hnew

end Passed

/-! ### The counts are exact -/

structure Tallied (session : Session) : Prop where
  loads : session.loadsInFlight = session.outstanding.length
  requests : session.pendingStatus = session.jobs.length

namespace Tallied

theorem start (status : Option StatusCache) (store : StateStore) :
    Tallied (.start status store) where
  loads := rfl
  requests := rfl

/-- What is handled has been counted, so taking it off the count is exact. -/
theorem passed (h : Tallied session) {news handled : List Load}
    (hpassed : Passed session next news handled) (hrequests : next.pendingStatus = next.jobs.length) :
    Tallied next where
  loads := by
    have hlength := hpassed.perm.length_eq
    have hdue := hpassed.due
    have hcounted := hpassed.counted
    have hloads := h.loads
    simp only [List.length_append] at hlength
    omega
  requests := hrequests

theorem requests_requestBadges (snapshot : Snapshot) (entries : List Entry)
    (h : session.pendingStatus = session.jobs.length) :
    (requestBadges snapshot session entries).1.pendingStatus =
      (requestBadges snapshot session entries).1.jobs.length := by
  apply requestBadges_induction (motive := fun next ↦ next.pendingStatus = next.jobs.length) h
  rintro entry - before after hit hbefore hrequested
  cases hrequested with
  | submitted =>
    rw [List.length_append, hbefore]
    rfl
  | _ => exact hbefore

theorem requests_showLoaded (backend : Backend) (load : Load) (children : List Entry)
    (h : session.pendingStatus = session.jobs.length) :
    (session.showLoaded backend load children).pendingStatus =
      (session.showLoaded backend load children).jobs.length := by
  unfold showLoaded requestStatus
  generalize Snapshot.loaded backend load.path children load.generation = snapshot
  obtain ⟨store, saves, hpersist, -⟩ := session.onShow_persist_eq snapshot
  have hshown : (session.onShow snapshot).persist.pendingStatus =
      (session.onShow snapshot).persist.jobs.length := by
    rw [hpersist]
    exact h
  dsimp only
  rw [announce_eq]
  exact requests_requestBadges snapshot snapshot.children hshown

theorem requests_worked (hworked : Worked session next)
    (h : session.pendingStatus = session.jobs.length) : next.pendingStatus = next.jobs.length := by
  cases hworked with
  | retired before after job hjobs =>
    rw [hjobs] at h
    simp only [List.length_append, List.length_cons] at h ⊢
    omega
  | computed before after job record hjobs => simpa [hjobs] using h
  | cached before after job record cache hjobs => simpa [hjobs] using h
  | uncached before after job record hjobs => simpa [hjobs] using h
  | posted before after job changed hjobs => simpa [hjobs] using h

theorem requests_step (input : Input) (h : session.pendingStatus = session.jobs.length) :
    (session.step input).pendingStatus = (session.step input).jobs.length := by
  have hmoved := session.step_moved input
  generalize session.step input = next at hmoved ⊢
  cases hmoved with
  | called hcalled =>
    cases hcalled with
    | stayed => exact h
    | opened => exact h
    | refreshed backend snapshot path =>
      obtain ⟨status, hdistrust⟩ := distrust_eq
        { session.openAt backend path with selected := session.selected } backend snapshot.path
      rw [hdistrust]
      exact h
    | selected name =>
      obtain ⟨store, saves, hpersist, -⟩ := persist_eq { session with selected := some name }
      rw [hpersist]
      exact h
  | responded => exact h
  | worked _ hworked => exact requests_worked hworked h
  | handled update later hinbox hhandled =>
    cases hhandled with
    | loaded load children backend =>
      have hanswered : ({ session with
          inbox := later
          loadsInFlight := session.loadsInFlight - 1
          loadToken := none } : Session).pendingStatus = session.jobs.length := h
      exact requests_showLoaded backend load children hanswered
    | status path key generation changed =>
      obtain ⟨waiting, news, hstatus, -⟩ :=
        handleStatus_eq { session with inbox := later } path key generation changed
      rw [hstatus]
      exact h
    | _ => exact h

theorem step (h : Tallied session) (htimeline : Timeline session) (input : Input) :
    Tallied (session.step input) := by
  obtain ⟨news, hpassed⟩ := Passed.step htimeline input
  exact h.passed hpassed (requests_step input h.requests)

theorem run (h : Tallied session) (htimeline : Timeline session) (inputs : List Input) :
    Tallied (session.run inputs) := by
  induction inputs generalizing session with
  | nil => exact h
  | cons input inputs ih => exact ih (h.step htimeline input) (htimeline.step input)

end Tallied

end Session

end DirectoryBrowser
