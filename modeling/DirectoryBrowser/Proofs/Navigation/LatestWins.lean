import DirectoryBrowser.Proofs.Navigation.Badges

/-!
# The last navigation wins

Listings return in any order, and the session tells them apart by generation
alone. `Timeline` ties together what is on show, what the listeners have been
given and which listings are still outstanding. Every step keeps it, so a
generation shows its placeholder once, answers it at most once, and nothing of
an older generation is shown after it.
-/

namespace DirectoryBrowser

def Event.published? : Event → Option Snapshot
  | .published snapshot => some snapshot
  | _ => none

def Update.load? : Update → Option Load
  | .listed load _ => some load
  | .status .. => none

/-- The failure that is remembered fits what is on show. -/
def Snapshot.Settles (snapshot : Snapshot) (failure : Option LoadFailure) : Prop :=
  (snapshot.state = .loaded → failure = none) ∧
    ∀ message, snapshot.state = .failed message →
      failure = some ⟨snapshot.path, message⟩ ∧ snapshot.children = []

/-- A loaded or failed snapshot that takes the place of a placeholder. -/
structure Snapshot.Answers (answer placeholder : Snapshot) : Prop where
  state : answer.state ≠ .loading
  backend : answer.backend = placeholder.backend
  path : answer.path = placeholder.path
  generation : answer.generation = placeholder.generation

theorem Snapshot.loaded_answers (load : Load) (children : List Entry) :
    (Snapshot.loaded load.backend load.path children load.generation).Answers
      (Snapshot.loading load.backend load.path load.generation) where
  state := by simp [Snapshot.loaded]
  backend := rfl
  path := rfl
  generation := rfl

theorem Snapshot.failed_answers (load : Load) (message : String) :
    (Snapshot.failed load.backend load.path message load.generation).Answers
      (Snapshot.loading load.backend load.path load.generation) where
  state := by simp [Snapshot.failed]
  backend := rfl
  path := rfl
  generation := rfl

/-- All that one generation publishes. -/
def Snapshot.IsEpisode (generation : Nat) (shown : List Snapshot) : Prop :=
  ∃ backend path,
    shown = [Snapshot.loading backend path generation] ∨
      ∃ answer : Snapshot, answer.Answers (Snapshot.loading backend path generation) ∧
        shown = [Snapshot.loading backend path generation, answer]

theorem filterMap_published_of_isAside {events : List Event}
    (h : ∀ event ∈ events, event.IsAside) : events.filterMap Event.published? = [] :=
  filterMap_of_isAside (fun _ ↦ rfl) (fun _ _ ↦ rfl) h

namespace Session

def published (session : Session) : List Snapshot :=
  session.trace.filterMap Event.published?

def publishedBy (session : Session) (generation : Nat) : List Snapshot :=
  session.published.filter fun snapshot ↦ snapshot.generation == generation

/-- Listings that have not been handled, whether or not they have returned. -/
def outstanding (session : Session) : List Load :=
  session.loads ++ session.inbox.filterMap Update.load?

structure Timeline (session : Session) : Prop where
  unopened : session.current = none → session.generation = 0
  current : ∀ snapshot, session.current = some snapshot →
    snapshot.generation = session.generation ∧ session.backend = some snapshot.backend
  settled : ∀ snapshot, session.current = some snapshot → snapshot.Settles session.failure
  expected : ∀ load ∈ session.outstanding, load.generation ≤ session.generation ∧
    (load.generation = session.generation →
      session.current = some (Snapshot.loading load.backend load.path load.generation))
  distinct : (session.outstanding.map Load.generation).Nodup
  ranged : ∀ snapshot ∈ session.published,
    1 ≤ snapshot.generation ∧ snapshot.generation ≤ session.generation
  ordered : session.published.Pairwise fun earlier later ↦
    earlier.generation ≤ later.generation
  episodes : ∀ generation, 1 ≤ generation → generation ≤ session.generation →
    Snapshot.IsEpisode generation (session.publishedBy generation)
  placeholder : ∀ snapshot, session.current = some snapshot → snapshot.state = .loading →
    session.publishedBy session.generation = [snapshot]

theorem publishedBy_append {session next : Session} {news : List Snapshot} {generation : Nat}
    (h : next.published = session.published ++ news) :
    next.publishedBy generation = session.publishedBy generation ++
      news.filter fun snapshot ↦ snapshot.generation == generation := by
  unfold publishedBy
  rw [h, List.filter_append]

namespace Timeline

variable {session next : Session}

theorem start (status : Option StatusCache) (store : StateStore) :
    Timeline (Session.start status store) where
  unopened _ := rfl
  current := by simp [Session.start]
  settled := by simp [Session.start]
  expected := by simp [Session.start, outstanding]
  distinct := by simp [Session.start, outstanding]
  ranged := by simp [Session.start, published]
  ordered := by simp [Session.start, published]
  episodes := by
    intro generation hpos hle
    simp only [Session.start] at hle
    omega
  placeholder := by simp [Session.start]

/-- A step that shows nothing may only drop listings. -/
theorem frame (h : Timeline session) (hcurrent : next.current = session.current)
    (hgeneration : next.generation = session.generation)
    (hbackend : next.backend = session.backend) (hfailure : next.failure = session.failure)
    (hpublished : next.published = session.published)
    (hsub : ∀ load ∈ next.outstanding, load ∈ session.outstanding)
    (hdistinct : (next.outstanding.map Load.generation).Nodup) : Timeline next where
  unopened := by
    rw [hcurrent, hgeneration]
    exact h.unopened
  current := by
    rw [hcurrent, hgeneration, hbackend]
    exact h.current
  settled := by
    rw [hcurrent, hfailure]
    exact h.settled
  expected := by
    rw [hcurrent, hgeneration]
    intro load hload
    exact h.expected load (hsub load hload)
  distinct := hdistinct
  ranged := by
    rw [hpublished, hgeneration]
    exact h.ranged
  ordered := by
    rw [hpublished]
    exact h.ordered
  episodes := by
    unfold publishedBy
    rw [hpublished, hgeneration]
    exact h.episodes
  placeholder := by
    unfold publishedBy
    rw [hcurrent, hpublished, hgeneration]
    exact h.placeholder

theorem publishedBy_of_lt (h : Timeline session) {generation : Nat}
    (hlt : session.generation < generation) : session.publishedBy generation = [] := by
  unfold publishedBy
  rw [List.filter_eq_nil_iff]
  intro snapshot hsnapshot
  have hle := (h.ranged snapshot hsnapshot).2
  simp only [beq_iff_eq]
  omega

theorem opened (h : Timeline session) (backend : Backend) (path : String) :
    Timeline (session.openAt backend path) := by
  have hpublished : (session.openAt backend path).published =
      session.published ++ [Snapshot.loading backend path (session.generation + 1)] := by
    simp [published, Event.published?]
  have hmem : ∀ load, load ∈ (session.openAt backend path).outstanding →
      load ∈ session.outstanding ∨ load = ⟨session.generation + 1, path, backend⟩ := by
    intro load hload
    simp only [outstanding, openAt_loads, openAt_inbox, List.mem_append, List.mem_singleton]
      at hload ⊢
    tauto
  constructor
  case unopened => simp
  case current =>
    intro snapshot hsnapshot
    cases hsnapshot
    exact ⟨rfl, rfl⟩
  case settled =>
    intro snapshot hsnapshot
    cases hsnapshot
    simp [Snapshot.Settles, Snapshot.loading]
  case expected =>
    intro load hload
    rw [openAt_generation]
    rcases hmem load hload with hold | rfl
    · have hle := (h.expected load hold).1
      exact ⟨by omega, fun heq ↦ by omega⟩
    · exact ⟨Nat.le_refl _, fun _ ↦ rfl⟩
  case distinct =>
    -- The new load stands between the loads and the inbox, but no older one has its generation.
    have hperm : (session.openAt backend path).outstanding.Perm
        (⟨session.generation + 1, path, backend⟩ :: session.outstanding) := by
      simp only [outstanding, openAt_loads, openAt_inbox, List.append_assoc]
      exact List.perm_middle
    rw [(hperm.map Load.generation).nodup_iff, List.map_cons, List.nodup_cons]
    refine ⟨?_, h.distinct⟩
    intro hload
    obtain ⟨load, hload, hgeneration⟩ := List.mem_map.mp hload
    have hle := (h.expected load hload).1
    rw [hgeneration] at hle
    exact Nat.not_succ_le_self _ hle
  case ranged =>
    rw [hpublished, openAt_generation]
    intro snapshot hsnapshot
    rcases List.mem_append.mp hsnapshot with hold | hnew
    · have hrange := h.ranged snapshot hold
      omega
    · rw [List.mem_singleton.mp hnew]
      exact ⟨Nat.le_add_left 1 _, Nat.le_refl _⟩
  case ordered =>
    rw [hpublished, List.pairwise_append]
    refine ⟨h.ordered, List.pairwise_singleton _ _, ?_⟩
    intro earlier hearlier later hlater
    rw [List.mem_singleton.mp hlater]
    exact (h.ranged earlier hearlier).2.trans (Nat.le_succ _)
  case episodes =>
    intro generation hpos hle
    rw [openAt_generation] at hle
    rw [publishedBy_append hpublished]
    by_cases hnew : generation = session.generation + 1
    · refine ⟨backend, path, Or.inl ?_⟩
      rw [h.publishedBy_of_lt (by omega), hnew]
      simp [Snapshot.loading]
    · have hold := h.episodes generation hpos (by omega)
      simpa [Snapshot.loading, Ne.symm hnew] using hold
  case placeholder =>
    intro snapshot hsnapshot _
    cases hsnapshot
    rw [publishedBy_append hpublished, openAt_generation, h.publishedBy_of_lt (Nat.lt_succ_self _)]
    simp [Snapshot.loading]

/-- The listing that is waited for is answered, and no other of its generation is left. -/
theorem answered (h : Timeline session) {placeholder answer : Snapshot}
    (hcurrent : session.current = some placeholder) (hloading : placeholder.state = .loading)
    (hanswer : answer.Answers placeholder)
    (hgone : ∀ load ∈ session.outstanding, load.generation ≠ session.generation)
    (hnext : next.current = some answer) (hgeneration : next.generation = session.generation)
    (hbackend : next.backend = session.backend)
    (houtstanding : next.outstanding = session.outstanding)
    (hpublished : next.published = session.published ++ [answer])
    (hsettled : answer.Settles next.failure) : Timeline next := by
  obtain ⟨hlatest, hactive⟩ := h.current placeholder hcurrent
  have hlatest : answer.generation = session.generation := hanswer.generation.trans hlatest
  constructor
  case unopened => simp [hnext]
  case current =>
    rw [hnext, hgeneration, hbackend]
    intro snapshot hsnapshot
    cases hsnapshot
    exact ⟨hlatest, by rw [hactive, hanswer.backend]⟩
  case settled =>
    rw [hnext]
    intro snapshot hsnapshot
    cases hsnapshot
    exact hsettled
  case expected =>
    rw [houtstanding, hgeneration]
    intro load hload
    exact ⟨(h.expected load hload).1, fun heq ↦ absurd heq (hgone load hload)⟩
  case distinct =>
    rw [houtstanding]
    exact h.distinct
  case ranged =>
    rw [hpublished, hgeneration]
    intro snapshot hsnapshot
    rcases List.mem_append.mp hsnapshot with hold | hnew
    · exact h.ranged snapshot hold
    · rw [List.mem_singleton.mp hnew, hlatest]
      refine ⟨?_, Nat.le_refl _⟩
      have hmem : placeholder ∈ session.publishedBy session.generation := by
        rw [h.placeholder placeholder hcurrent hloading]
        exact List.mem_singleton_self _
      have hrange := h.ranged placeholder (List.mem_filter.mp hmem).1
      omega
  case ordered =>
    rw [hpublished, List.pairwise_append]
    refine ⟨h.ordered, List.pairwise_singleton _ _, ?_⟩
    intro earlier hearlier later hlater
    rw [List.mem_singleton.mp hlater, hlatest]
    exact (h.ranged earlier hearlier).2
  case episodes =>
    intro generation hpos hle
    rw [hgeneration] at hle
    rw [publishedBy_append hpublished]
    by_cases hnow : generation = session.generation
    · subst hnow
      have hepisode := h.episodes session.generation hpos (Nat.le_refl _)
      rw [h.placeholder placeholder hcurrent hloading] at hepisode ⊢
      obtain ⟨backend, path, honly | ⟨other, -, htwo⟩⟩ := hepisode
      · rw [List.singleton_inj] at honly
        rw [honly] at hanswer ⊢
        refine ⟨backend, path, Or.inr ⟨answer, hanswer, ?_⟩⟩
        simp [hlatest]
      · simp at htwo
    · have hold := h.episodes generation hpos hle
      simpa [hlatest, Ne.symm hnow] using hold
  case placeholder =>
    rw [hnext]
    intro snapshot hsnapshot hstate
    cases hsnapshot
    exact absurd hstate hanswer.state

theorem called {input : Input} (h : Timeline session) (hcalled : Called session input next) :
    Timeline next := by
  cases hcalled with
  | stayed => exact h
  | opened _ backend path restoring selected =>
    have hopened := h.opened backend path
    exact hopened.frame rfl rfl rfl rfl rfl (fun _ hload ↦ hload) hopened.distinct
  | refreshed backend snapshot path =>
    have hopened := h.opened backend path
    obtain ⟨status, hdistrust⟩ :=
      distrust_eq { session.openAt backend path with selected := session.selected } backend
        snapshot.path
    rw [hdistrust]
    exact hopened.frame rfl rfl rfl rfl rfl (fun _ hload ↦ hload) hopened.distinct
  | selected name snapshot =>
    obtain ⟨store, saves, hpersist, hsaves⟩ := persist_eq { session with selected := some name }
    rw [hpersist]
    have hnews : saves.filterMap Event.published? = [] :=
      filterMap_published_of_isAside fun event hevent ↦ Or.inl (hsaves event hevent)
    refine h.frame rfl rfl rfl rfl ?_ (fun _ hload ↦ hload) h.distinct
    simp [published, hnews]

theorem responded {generation : Nat} {load : Load} (h : Timeline session)
    (result : Except BackendError (List Entry))
    (hload : session.loads.find? (fun load ↦ load.generation == generation) = some load) :
    Timeline { session with
      loads := session.loads.filter (fun load ↦ load.generation != generation)
      inbox := session.inbox ++ [.listed load result] } := by
  have hgeneration : load.generation = generation := by simpa using List.find?_some hload
  have hmem : load ∈ session.loads := List.mem_of_find?_eq_some hload
  have hkept : (session.loads.filter fun load ↦ load.generation != generation).Sublist
      session.loads := List.filter_sublist
  have hposted : (session.inbox ++ [Update.listed load result]).filterMap Update.load? =
      session.inbox.filterMap Update.load? ++ [load] := by
    rw [List.filterMap_append]
    rfl
  refine h.frame rfl rfl rfl rfl rfl ?_ ?_
  · intro other hother
    simp only [outstanding, hposted, List.mem_append, List.mem_singleton] at hother ⊢
    rcases hother with hloads | hinbox | rfl
    · exact Or.inl (hkept.subset hloads)
    · exact Or.inr hinbox
    · exact Or.inl hmem
  · have hdistinct := h.distinct
    simp only [outstanding, hposted, List.map_append, List.nodup_append, List.map_cons,
      List.map_nil] at hdistinct ⊢
    obtain ⟨hloads, hinbox, hapart⟩ := hdistinct
    refine ⟨(hkept.map _).nodup hloads, ⟨hinbox, by simp, ?_⟩, ?_⟩
    · intro older holder newer hnewer
      rw [List.mem_singleton.mp hnewer]
      exact (hapart _ (List.mem_map_of_mem hmem) older holder).symm
    · intro older holder newer hnewer
      rcases List.mem_append.mp hnewer with hnewer | hnewer
      · exact hapart older ((hkept.map _).subset holder) newer hnewer
      · obtain ⟨other, hother, rfl⟩ := List.mem_map.mp holder
        rw [List.mem_singleton.mp hnewer, hgeneration]
        simpa using (List.mem_filter.mp hother).2

theorem worked (h : Timeline session) (hworked : Worked session next) : Timeline next := by
  obtain ⟨status, jobs, pendingStatus, news, rfl, hnews⟩ := hworked.eq
  have hloads : news.filterMap Update.load? = [] := by
    rw [List.filterMap_eq_nil_iff]
    intro update hupdate
    obtain ⟨path, key, generation, changed, rfl⟩ := hnews update hupdate
    rfl
  have houtstanding : ({ session with
      status, jobs, pendingStatus, inbox := session.inbox ++ news } : Session).outstanding =
        session.outstanding := by
    simp [outstanding, hloads]
  refine h.frame rfl rfl rfl rfl rfl ?_ ?_
  · rw [houtstanding]
    exact fun _ hload ↦ hload
  · rw [houtstanding]
    exact h.distinct

theorem popped {update : Update} {later : List Update} (h : Timeline session)
    (hinbox : session.inbox = update :: later) : Timeline { session with inbox := later } := by
  have hsub : ({ session with inbox := later } : Session).outstanding.Sublist
      session.outstanding := by
    unfold outstanding
    rw [hinbox]
    exact ((List.sublist_cons_self _ _).filterMap _).append_left _
  exact h.frame rfl rfl rfl rfl rfl (fun _ hload ↦ hsub.subset hload)
    ((hsub.map _).nodup h.distinct)

/-- The listing of the present generation finds its placeholder on show. -/
theorem current_of_inbox {load : Load} {result : Except BackendError (List Entry)}
    {later : List Update} (h : Timeline session)
    (hinbox : session.inbox = .listed load result :: later)
    (hgeneration : load.generation = session.generation) :
    session.current = some (Snapshot.loading load.backend load.path load.generation) := by
  refine (h.expected load ?_).2 hgeneration
  simp [outstanding, hinbox, Update.load?]

/-- Of the listings that are left, none has the generation of the one that is handled. -/
theorem gone {load : Load} {result : Except BackendError (List Entry)} {later : List Update}
    (h : Timeline session) (hinbox : session.inbox = .listed load result :: later) :
    ∀ other ∈ ({ session with inbox := later } : Session).outstanding,
      other.generation ≠ load.generation := by
  have hperm : session.outstanding.Perm
      (load :: ({ session with inbox := later } : Session).outstanding) := by
    unfold outstanding
    rw [hinbox]
    exact List.perm_middle
  have hdistinct := ((hperm.map Load.generation).nodup_iff).mp h.distinct
  rw [List.map_cons, List.nodup_cons] at hdistinct
  intro other hother heq
  exact hdistinct.1 (heq ▸ List.mem_map_of_mem hother)

theorem handled {update : Update} {later : List Update} (h : Timeline session)
    (hinbox : session.inbox = update :: later)
    (hhandled : Handled { session with inbox := later } update next) : Timeline next := by
  have hpopped := h.popped hinbox
  cases hhandled with
  | stale load result =>
    exact hpopped.frame rfl rfl rfl rfl rfl (fun _ hload ↦ hload) hpopped.distinct
  | cancelled load error =>
    exact hpopped.frame rfl rfl rfl rfl rfl (fun _ hload ↦ hload) hpopped.distinct
  | loaded load children backend hbackend hgeneration =>
    have hcurrent := h.current_of_inbox hinbox hgeneration
    have hactive : some backend = some load.backend :=
      hbackend.symm.trans (h.current _ hcurrent).2
    cases hactive
    obtain ⟨selected, store, status, waiting, jobs, pendingStatus, asides, hshown, hasides⟩ :=
      showLoaded_eq { session with
        inbox := later
        loadsInFlight := session.loadsInFlight - 1
        loadToken := none } load.backend load children
    have hnews := filterMap_published_of_isAside hasides
    rw [hshown]
    refine hpopped.answered hcurrent rfl (Snapshot.loaded_answers load children) ?_ rfl rfl rfl rfl
      ?_ ?_
    · exact hgeneration ▸ h.gone hinbox
    · simp [published, Event.published?, hnews]
    · simp [Snapshot.Settles, Snapshot.loaded]
  | reopened load error backend =>
    have hclosed : Timeline { session with
        inbox := later
        loadsInFlight := session.loadsInFlight - 1
        loadToken := none
        restoring := none } :=
      hpopped.frame rfl rfl rfl rfl rfl (fun _ hload ↦ hload) hpopped.distinct
    exact hclosed.opened _ _
  | failed load error backend hbackend hgeneration =>
    have hcurrent := h.current_of_inbox hinbox hgeneration
    have hactive : some backend = some load.backend :=
      hbackend.symm.trans (h.current _ hcurrent).2
    cases hactive
    refine hpopped.answered hcurrent rfl (Snapshot.failed_answers load error.message) ?_
      rfl rfl rfl rfl ?_ ?_
    · exact hgeneration ▸ h.gone hinbox
    · simp [published, Event.published?, showFailed, publish, emit]
    · refine ⟨fun hloaded ↦ (by cases hloaded), ?_⟩
      intro message hmessage
      cases hmessage
      exact ⟨rfl, rfl⟩
  | status path key generation changed =>
    obtain ⟨waiting, news, hstatus, hnews⟩ :=
      handleStatus_eq { session with inbox := later } path key generation changed
    rw [hstatus]
    have hnone : news.filterMap Event.published? = [] :=
      filterMap_published_of_isAside fun event hevent ↦ Or.inr ⟨path, hnews event hevent⟩
    refine hpopped.frame rfl rfl rfl rfl ?_ (fun _ hload ↦ hload) hpopped.distinct
    simp [published, hnone]

theorem step (h : Timeline session) (input : Input) : Timeline (session.step input) := by
  have hmoved := session.step_moved input
  generalize session.step input = next at hmoved ⊢
  cases hmoved with
  | called hcalled => exact h.called hcalled
  | responded generation result load hload => exact h.responded result hload
  | worked _ hworked => exact h.worked hworked
  | handled update later hinbox hhandled => exact h.handled hinbox hhandled

theorem run (h : Timeline session) (inputs : List Input) : Timeline (session.run inputs) := by
  induction inputs generalizing session with
  | nil => exact h
  | cons input inputs ih => exact ih (h.step input)

end Timeline

/-- A listing that nobody waits for any more leaves only the count of listings in flight changed. -/
theorem step_process_of_ne {session : Session} {load : Load}
    {result : Except BackendError (List Entry)} {later : List Update}
    (hinbox : session.inbox = .listed load result :: later)
    (hstale : load.generation ≠ session.generation) :
    session.step .process =
      { session with inbox := later, loadsInFlight := session.loadsInFlight - 1 } := by
  have hnext : session.step .process = ({ session with inbox := later } : Session).handle
      (.listed load result) := by
    simp [Session.step, handleNext, hinbox]
  rw [hnext]
  have hhandled := handle_handled { session with inbox := later } (.listed load result)
  generalize ({ session with inbox := later } : Session).handle (.listed load result) = next
    at hhandled ⊢
  cases hhandled with
  | stale => rfl
  | cancelled => contradiction
  | loaded => contradiction
  | reopened => contradiction
  | failed => contradiction

/-- In every state that a session can reach, what is on show belongs to the last navigation, each
generation has shown its placeholder once and then at most one answer to it, and the failure that
is remembered is the one on show. -/
theorem latest_navigation_wins (status : Option StatusCache) (store : StateStore)
    (inputs : List Input) :
    let session := (start status store).run inputs
    (∀ snapshot, session.current = some snapshot →
      snapshot.generation = session.generation ∧ session.backend = some snapshot.backend) ∧
    (session.published.Pairwise fun earlier later ↦ earlier.generation ≤ later.generation) ∧
    (∀ snapshot ∈ session.published,
      1 ≤ snapshot.generation ∧ snapshot.generation ≤ session.generation) ∧
    (∀ generation, 1 ≤ generation → generation ≤ session.generation →
      Snapshot.IsEpisode generation (session.publishedBy generation)) ∧
    (∀ load result later, session.inbox = .listed load result :: later →
      load.generation ≠ session.generation →
      session.step .process =
        { session with inbox := later, loadsInFlight := session.loadsInFlight - 1 }) ∧
    ∀ snapshot, session.current = some snapshot → snapshot.Settles session.failure := by
  have h : Timeline ((start status store).run inputs) := (Timeline.start status store).run inputs
  refine ⟨h.current, h.ordered, h.ranged, h.episodes, ?_, h.settled⟩
  intro load result later hinbox hstale
  exact step_process_of_ne hinbox hstale

end Session

end DirectoryBrowser
