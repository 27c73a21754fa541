import DirectoryBrowser.Proofs.Navigation.Moves
import DirectoryBrowser.Proofs.Status.Tickets

/-!
# Asking for the badges of a snapshot

When a listing has been loaded, its children are gone through one by one. A
child may lie outside the local file system, its badge may be fresh or on its
way, or a new request may be submitted for it. `Requested` lists these
outcomes for one child, and a loaded listing is then described as a whole by
the few fields that it touches.
-/

namespace DirectoryBrowser

/-- Tells nothing about what is on show. -/
def Event.IsAside (event : Event) : Prop :=
  (∃ state, event = .saved state) ∨ ∃ path text, event = .statusUpdated path text

/-- Who reads neither what is saved nor what the badges are gets nothing from such events. -/
theorem filterMap_of_isAside {α : Type} {reader : Event → Option α} {events : List Event}
    (hsaved : ∀ state, reader (.saved state) = none)
    (hstatus : ∀ path text, reader (.statusUpdated path text) = none)
    (h : ∀ event ∈ events, event.IsAside) : events.filterMap reader = [] := by
  rw [List.filterMap_eq_nil_iff]
  intro event hevent
  rcases h event hevent with ⟨state, rfl⟩ | ⟨path, text, rfl⟩
  · exact hsaved state
  · exact hstatus path text

namespace Session

inductive Requested (snapshot : Snapshot) (session : Session) (entry : Entry) :
    Session → Option (String × String) → Prop
  | remote (hremote : session.status = none ∨
        snapshot.backend.localPath? (Path.join snapshot.path entry.name) = none) :
      Requested snapshot session entry session none
  | known (cache : StatusCache) (key : String) (record : StatusRecord)
      (hstatus : session.status = some cache)
      (hkey : snapshot.backend.localPath? (Path.join snapshot.path entry.name) = some key)
      (hlookup : cache.lookup key = .hit record) :
      Requested snapshot session entry session
        (if (cache.textFor key).isEmpty then none
          else some (Path.join snapshot.path entry.name, cache.textFor key))
  | awaited (cache : StatusCache) (key : String) (hstatus : session.status = some cache)
      (hkey : snapshot.backend.localPath? (Path.join snapshot.path entry.name) = some key)
      (hlookup : cache.lookup key = .inFlight) :
      Requested snapshot session entry { session with waiting := key :: session.waiting } none
  | submitted (cache : StatusCache) (key : String) (hstatus : session.status = some cache)
      (hkey : snapshot.backend.localPath? (Path.join snapshot.path entry.name) = some key)
      (hlookup : cache.lookup key = .miss)
      (hbegin : (cache.begin key entry.isDir snapshot.generation).1 = true) :
      Requested snapshot session entry
        { session with
          status := some (cache.begin key entry.isDir snapshot.generation).2
          pendingStatus := session.pendingStatus + 1
          jobs := session.jobs ++ [.ofChild snapshot entry key] } none
  | refused (cache : StatusCache) (key : String) (hstatus : session.status = some cache)
      (hkey : snapshot.backend.localPath? (Path.join snapshot.path entry.name) = some key)
      (hlookup : cache.lookup key = .miss)
      (hbegin : (cache.begin key entry.isDir snapshot.generation).1 = false) :
      Requested snapshot session entry
        { session with status := some (cache.begin key entry.isDir snapshot.generation).2 } none

theorem submit_of_claimed {snapshot : Snapshot} {session : Session} {cache : StatusCache}
    {entry : Entry} {key : String} (hstatus : session.status = some cache)
    (hbegin : (cache.begin key entry.isDir snapshot.generation).1 = true) :
    submit snapshot session entry key =
      { session with
        status := some (cache.begin key entry.isDir snapshot.generation).2
        pendingStatus := session.pendingStatus + 1
        jobs := session.jobs ++ [.ofChild snapshot entry key] } := by
  unfold submit
  rw [hstatus]
  exact if_pos hbegin

theorem submit_of_refused {snapshot : Snapshot} {session : Session} {cache : StatusCache}
    {entry : Entry} {key : String} (hstatus : session.status = some cache)
    (hbegin : (cache.begin key entry.isDir snapshot.generation).1 = false) :
    submit snapshot session entry key =
      { session with status := some (cache.begin key entry.isDir snapshot.generation).2 } := by
  have hrefused : ¬ (cache.begin key entry.isDir snapshot.generation).1 = true := by
    rw [hbegin]
    exact Bool.false_ne_true
  unfold submit
  rw [hstatus]
  exact if_neg hrefused

theorem requestBadge_requested (snapshot : Snapshot) (session : Session) (entry : Entry) :
    Requested snapshot session entry (requestBadge snapshot session entry).1
      (requestBadge snapshot session entry).2 := by
  unfold requestBadge
  dsimp only
  split
  case h_1 cache key hstatus hkey =>
    split
    case h_1 record hlookup => exact .known cache key record hstatus hkey hlookup
    case h_2 hlookup => exact .awaited cache key hstatus hkey hlookup
    case h_3 hlookup =>
      cases hbegin : (cache.begin key entry.isDir snapshot.generation).1 with
      | true =>
        rw [submit_of_claimed hstatus hbegin]
        exact .submitted cache key hstatus hkey hlookup hbegin
      | false =>
        rw [submit_of_refused hstatus hbegin]
        exact .refused cache key hstatus hkey hlookup hbegin
  case h_2 hremote =>
    apply Requested.remote
    cases hstatus : session.status with
    | none => exact Or.inl rfl
    | some cache =>
      right
      cases hkey : snapshot.backend.localPath? (Path.join snapshot.path entry.name) with
      | none => rfl
      | some key => exact absurd hkey (hremote cache key hstatus)

/-- What every request keeps holds once all children have been gone through. -/
theorem requestBadges_induction {snapshot : Snapshot} {motive : Session → Prop} {session : Session}
    {entries : List Entry} (hstart : motive session)
    (hstep : ∀ entry ∈ entries, ∀ before after hit, motive before →
      Requested snapshot before entry after hit → motive after) :
    motive (requestBadges snapshot session entries).1 := by
  induction entries generalizing session with
  | nil => exact hstart
  | cons entry entries ih =>
    have hnext := hstep entry (by simp) _ _ _ hstart
      (requestBadge_requested snapshot session entry)
    exact ih hnext fun other hother ↦ hstep other (List.mem_cons_of_mem _ hother)

theorem requestBadges_eq (snapshot : Snapshot) (session : Session) (entries : List Entry) :
    ∃ status waiting jobs pendingStatus,
      (requestBadges snapshot session entries).1 =
        { session with status, waiting, jobs, pendingStatus } := by
  apply requestBadges_induction (motive := fun next ↦ ∃ status waiting jobs pendingStatus,
    next = { session with status, waiting, jobs, pendingStatus })
  · exact ⟨_, _, _, _, rfl⟩
  · rintro entry - before after hit ⟨status, waiting, jobs, pendingStatus, rfl⟩ h
    cases h <;> exact ⟨_, _, _, _, rfl⟩

theorem requestStatus_eq (session : Session) (snapshot : Snapshot) :
    ∃ status waiting jobs pendingStatus news,
      session.requestStatus snapshot =
        { session with status, waiting, jobs, pendingStatus, trace := session.trace ++ news } ∧
      ∀ event ∈ news, ∃ path text, event = .statusUpdated path text := by
  obtain ⟨status, waiting, jobs, pendingStatus, h⟩ :=
    requestBadges_eq snapshot session snapshot.children
  unfold requestStatus
  dsimp only
  rw [announce_eq, h]
  refine ⟨status, waiting, jobs, pendingStatus, _, rfl, ?_⟩
  intro event hevent
  obtain ⟨hit, -, rfl⟩ := List.mem_map.mp hevent
  exact ⟨_, _, rfl⟩

theorem handleStatus_of_some {session : Session} {cache : StatusCache}
    (hstatus : session.status = some cache) (path key : String) (generation : Nat)
    (changed : Bool) :
    session.handleStatus path key generation changed =
      { session with
        waiting := session.waiting.filter (· != key)
        trace := session.trace ++
          if session.isNews key generation changed (cache.textFor key) then
            [.statusUpdated path (cache.textFor key)]
          else [] } := by
  unfold handleStatus
  rw [hstatus]
  dsimp only
  split
  · rfl
  · rw [List.append_nil]

theorem handleStatus_eq (session : Session) (path key : String) (generation : Nat)
    (changed : Bool) : ∃ waiting news,
      session.handleStatus path key generation changed =
        { session with waiting, trace := session.trace ++ news } ∧
      ∀ event ∈ news, ∃ text, event = .statusUpdated path text := by
  by_cases hnone : session.status = none
  · refine ⟨session.waiting.filter (· != key), [], ?_, by simp⟩
    rw [List.append_nil]
    unfold handleStatus
    rw [hnone]
  · obtain ⟨cache, hstatus⟩ := Option.ne_none_iff_exists'.mp hnone
    refine ⟨_, _, handleStatus_of_some hstatus path key generation changed, ?_⟩
    intro event hevent
    split at hevent
    · exact ⟨_, List.mem_singleton.mp hevent⟩
    · cases hevent

theorem showLoaded_eq (session : Session) (backend : Backend) (load : Load)
    (children : List Entry) :
    ∃ selected store status waiting jobs pendingStatus asides,
      session.showLoaded backend load children =
        { session with
          current := some (Snapshot.loaded backend load.path children load.generation)
          failure := none
          restoring := none
          selected, store, status, waiting, jobs, pendingStatus
          trace := session.trace ++
            .published (Snapshot.loaded backend load.path children load.generation) :: asides } ∧
      ∀ event ∈ asides, event.IsAside := by
  generalize hsnapshot : Snapshot.loaded backend load.path children load.generation = snapshot
  have hshow : session.showLoaded backend load children =
      (session.onShow snapshot).persist.requestStatus snapshot := by
    rw [← hsnapshot]
    rfl
  obtain ⟨store, saves, hpersist, hsaves⟩ := session.onShow_persist_eq snapshot
  obtain ⟨status, waiting, jobs, pendingStatus, news, hrequest, hnews⟩ :=
    (session.onShow snapshot).persist.requestStatus_eq snapshot
  rw [hshow, hrequest, hpersist]
  refine ⟨keepSelected snapshot session.selected, store, status, waiting, jobs, pendingStatus,
    saves ++ news, ?_, ?_⟩
  · simp
  · intro event hevent
    rcases List.mem_append.mp hevent with hsave | hupdate
    · exact Or.inl (hsaves event hsave)
    · exact Or.inr (hnews event hupdate)

theorem generation_le_step (session : Session) (input : Input) :
    session.generation ≤ (session.step input).generation := by
  have hmoved := session.step_moved input
  generalize session.step input = next at hmoved ⊢
  cases hmoved with
  | called hcalled =>
    cases hcalled with
    | stayed => exact Nat.le_refl _
    | opened => exact Nat.le_succ _
    | refreshed backend snapshot path =>
      obtain ⟨status, hdistrust⟩ := distrust_eq
        { session.openAt backend path with selected := session.selected } backend snapshot.path
      rw [hdistrust]
      exact Nat.le_succ _
    | selected name =>
      obtain ⟨store, saves, hpersist, -⟩ := persist_eq { session with selected := some name }
      rw [hpersist]
  | responded => exact Nat.le_refl _
  | worked _ hworked =>
    obtain ⟨status, jobs, pendingStatus, news, rfl, -⟩ := hworked.eq
    exact Nat.le_refl _
  | handled update later hinbox hhandled =>
    cases hhandled with
    | loaded load children backend =>
      obtain ⟨selected, store, status, waiting, jobs, pendingStatus, asides, hshown, -⟩ :=
        showLoaded_eq { session with
          inbox := later
          loadsInFlight := session.loadsInFlight - 1
          loadToken := none } backend load children
      rw [hshown]
    | reopened => exact Nat.le_succ _
    | status path key generation changed =>
      obtain ⟨waiting, news, hstatus, -⟩ :=
        handleStatus_eq { session with inbox := later } path key generation changed
      rw [hstatus]
    | _ => exact Nat.le_refl _

theorem generation_le_run (session : Session) (inputs : List Input) :
    session.generation ≤ (session.run inputs).generation := by
  induction inputs generalizing session with
  | nil => exact Nat.le_refl _
  | cons input inputs ih => exact (session.generation_le_step input).trans (ih _)

/-! ### Steps that ask for nothing -/

/-- Key of a child whose badge has to be asked for. -/
def missed? (session : Session) (snapshot : Snapshot) (entry : Entry) : Option String :=
  match session.status, snapshot.backend.localPath? (Path.join snapshot.path entry.name) with
  | some cache, some key => if cache.lookup key = .miss then some key else none
  | _, _ => none

theorem requestBadge_of_missed {snapshot : Snapshot} {session : Session} {entry : Entry}
    {key : String} (hmissed : session.missed? snapshot entry = some key) :
    requestBadge snapshot session entry = (submit snapshot session entry key, none) := by
  unfold missed? at hmissed
  cases hstatus : session.status with
  | none => simp [hstatus] at hmissed
  | some cache =>
    cases hplace : snapshot.backend.localPath? (Path.join snapshot.path entry.name) with
    | none => simp [hstatus, hplace] at hmissed
    | some place =>
      simp only [hstatus, hplace] at hmissed
      split at hmissed
      case isTrue hmiss =>
        cases hmissed
        simp only [requestBadge, hstatus, hplace, hmiss]
      case isFalse => cases hmissed

/-- Neither the cache nor the requests that are under way have changed. -/
structure SameRequests (session next : Session) : Prop where
  status : next.status = session.status
  jobs : next.jobs = session.jobs

theorem sameRequests_called {session next : Session} {input : Input}
    (hcalled : Called session input next) (hinput : input ≠ .refresh) :
    SameRequests session next ∧ session.generation ≤ next.generation := by
  cases hcalled with
  | stayed => exact ⟨⟨rfl, rfl⟩, Nat.le_refl _⟩
  | opened => exact ⟨⟨rfl, rfl⟩, Nat.le_succ _⟩
  | refreshed => exact absurd rfl hinput
  | selected name =>
    obtain ⟨store, saves, hpersist, -⟩ := persist_eq { session with selected := some name }
    rw [hpersist]
    exact ⟨⟨rfl, rfl⟩, Nat.le_refl _⟩

/-- Only a listing that is waited for leads to new requests. -/
theorem sameRequests_handled {session next : Session} {update : Update}
    (hhandled : Handled session update next)
    (hstray : ∀ backend load children, session.backend = some backend →
      update = .listed load (.ok children) → load.generation ≠ session.generation) :
    SameRequests session next ∧ session.generation ≤ next.generation := by
  cases hhandled with
  | loaded load children backend hbackend hgeneration =>
    exact absurd hgeneration (hstray backend load children hbackend rfl)
  | reopened => exact ⟨⟨rfl, rfl⟩, Nat.le_succ _⟩
  | status path key generation changed =>
    obtain ⟨waiting, news, hstatus, -⟩ := session.handleStatus_eq path key generation changed
    rw [hstatus]
    exact ⟨⟨rfl, rfl⟩, Nat.le_refl _⟩
  | _ => exact ⟨⟨rfl, rfl⟩, Nat.le_refl _⟩

theorem sameRequests_handleNext (session : Session)
    (hstray : ∀ backend load children later, session.backend = some backend →
      session.inbox = .listed load (.ok children) :: later →
      load.generation ≠ session.generation) :
    SameRequests session session.handleNext ∧
      session.generation ≤ session.handleNext.generation := by
  unfold handleNext
  split
  case h_1 => exact ⟨⟨rfl, rfl⟩, Nat.le_refl _⟩
  case h_2 update later hinbox =>
    obtain ⟨⟨hstatus, hjobs⟩, hle⟩ :=
      sameRequests_handled (handle_handled { session with inbox := later } update) (by
        rintro backend load children hbackend rfl
        exact hstray backend load children later hbackend hinbox)
    exact ⟨⟨hstatus, hjobs⟩, hle⟩

theorem sameRequests_requestBadge (session : Session) {snapshot : Snapshot} {entry : Entry}
    (hmissed : session.missed? snapshot entry = none) :
    SameRequests session (requestBadge snapshot session entry).1 ∧
      (requestBadge snapshot session entry).1.generation = session.generation := by
  have hrequested := requestBadge_requested snapshot session entry
  generalize (requestBadge snapshot session entry).1 = next at hrequested ⊢
  generalize (requestBadge snapshot session entry).2 = hit at hrequested
  cases hrequested with
  | submitted cache key hstatus hkey hlookup =>
    simp [missed?, hstatus, hkey, hlookup] at hmissed
  | refused cache key hstatus hkey hlookup =>
    simp [missed?, hstatus, hkey, hlookup] at hmissed
  | _ => exact ⟨⟨rfl, rfl⟩, rfl⟩

end Session

end DirectoryBrowser
