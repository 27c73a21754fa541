import DirectoryBrowser.Proofs.Navigation.Replaying

/-!
# Where a step leads

A step leaves the place that is on show as it is, or leads to another one:
where its caller asks for, to the directory above, to a child, to a saved
location, or back to a root. `Leads` lists these destinations, so that what
holds of each of them holds of every place that is ever on show.
-/

namespace DirectoryBrowser.Session

/-- Paths that a step may begin to load, as it loads them. -/
inductive Leads (session : Session) : Input → Backend → String → Prop
  | navigated (backend : Backend) (path : String) (rootChange : Bool) :
      Leads session (.navigate backend path rootChange) backend (target backend path)
  | refreshed (snapshot : Snapshot) (hcurrent : session.current = some snapshot) :
      Leads session .refresh snapshot.backend (target snapshot.backend snapshot.path)
  | wentUp (snapshot : Snapshot) (above : String) (hcurrent : session.current = some snapshot)
      (hroot : Path.normalize snapshot.path ≠ Path.normalize snapshot.backend.root.path)
      (hparent : Path.parent? snapshot.path = some above) :
      Leads session .goUp snapshot.backend (target snapshot.backend above)
  | entered (snapshot : Snapshot) (name : String) (hcurrent : session.current = some snapshot) :
      Leads session (.enter name) snapshot.backend
        (target snapshot.backend (Path.join snapshot.path name))
  | replayed (input : Input) (backend : Backend) (state : NavState)
      (hbackend : backend ∈ input.backends) (hreplayable : Replayable backend state) :
      Leads session input backend (Path.normalize state.directory)
  | restored (input : Input) (backend : Backend) (hbackend : backend ∈ input.backends) :
      Leads session input backend (target backend backend.root.path)
  | retreated (input : Input) (snapshot : Snapshot) (hcurrent : session.current = some snapshot) :
      Leads session input snapshot.backend (target snapshot.backend snapshot.backend.root.path)

/-- What is on show, however it has come out. -/
def place? (session : Session) : Option (Backend × String) :=
  session.current.map fun snapshot ↦ (snapshot.backend, snapshot.path)

/-- A step either stays or leads to one of its destinations. -/
inductive Went (session : Session) (input : Input) (next : Session) : Prop
  | stayed (hplace : next.place? = session.place?)
  | led (backend : Backend) (path : String) (hleads : Leads session input backend path)
      (hplace : next.place? = some (backend, path))

variable {session next : Session} {input : Input}

theorem place?_of_current (h : next.current = session.current) : next.place? = session.place? := by
  unfold place?
  rw [h]

theorem navigateTo_went (backend : Backend) (path : String) (rootChange : Bool)
    (hleads : Leads session input backend (target backend path)) :
    Went session input (session.navigateTo backend path rootChange).2 := by
  rcases session.navigateTo_eq backend path rootChange with hsame | hopened
  · rw [hsame]
    exact .stayed rfl
  · rw [hopened]
    exact .led backend _ hleads rfl

theorem refresh_went (htimeline : Timeline session) :
    Went session .refresh session.refresh.2 := by
  unfold refresh
  split
  case h_1 backend snapshot hbackend hcurrent =>
    obtain rfl : backend = snapshot.backend :=
      Option.some.inj (hbackend.symm.trans (htimeline.current snapshot hcurrent).2)
    dsimp only
    obtain ⟨status, hdistrust⟩ := distrust_eq
      { (session.navigateTo snapshot.backend snapshot.path true).2 with
        selected := session.selected } snapshot.backend snapshot.path
    rw [hdistrust]
    exact .led _ _ (.refreshed snapshot hcurrent) rfl
  case h_2 => exact .stayed rfl

theorem goUp_went (htimeline : Timeline session) : Went session .goUp session.goUp.2 := by
  unfold goUp
  split
  case h_1 backend snapshot hbackend hcurrent =>
    obtain rfl : backend = snapshot.backend :=
      Option.some.inj (hbackend.symm.trans (htimeline.current snapshot hcurrent).2)
    split
    case isTrue => exact .stayed rfl
    case isFalse hroot =>
      split
      case h_1 above hparent =>
        exact navigateTo_went _ above false (.wentUp snapshot above hcurrent
          (by simpa using hroot) hparent)
      case h_2 => exact .stayed rfl
  case h_2 => exact .stayed rfl

theorem enter_went (htimeline : Timeline session) (name : String) :
    Went session (.enter name) (session.enter name).2 := by
  unfold enter
  split
  case h_1 backend snapshot hbackend hcurrent =>
    obtain rfl : backend = snapshot.backend :=
      Option.some.inj (hbackend.symm.trans (htimeline.current snapshot hcurrent).2)
    split
    · split
      · exact navigateTo_went _ _ false (.entered snapshot name hcurrent)
      · exact .stayed rfl
    · exact .stayed rfl
  case h_2 => exact .stayed rfl

theorem selectEntry_went (name : String) :
    Went session (.select name) (session.selectEntry name).2 := by
  unfold selectEntry
  split
  · obtain ⟨store, saves, hpersist, -⟩ := persist_eq { session with selected := some name }
    dsimp only
    rw [hpersist]
    exact .stayed rfl
  · exact .stayed rfl

theorem mem_of_chosen? {backends : List Backend} {state : NavState} {backend : Backend}
    (h : chosen? backends state = some backend) : backend ∈ backends := by
  unfold chosen? at h
  rcases Option.or_eq_some_iff.mp h with hfound | ⟨-, hfirst⟩
  · exact List.mem_of_find?_eq_some hfound
  · exact List.mem_of_head? hfirst

theorem restore_went (backends : List Backend) (state : NavState)
    (hbackends : ∀ backend ∈ backends, backend ∈ input.backends) :
    Went session input (session.restore backends state).2 := by
  cases hchosen : chosen? backends state with
  | none =>
    rw [eq_nil_of_chosen? hchosen, restore_nil]
    exact .stayed rfl
  | some backend =>
    have hbackend := hbackends backend (mem_of_chosen? hchosen)
    by_cases hreplayable : Replayable backend state
    · rw [session.restore_of_replayable hchosen hreplayable]
      exact .led backend _ (.replayed input backend state hbackend hreplayable) rfl
    · rw [session.restore_of_not_replayable hchosen hreplayable]
      exact .led backend _ (.restored input backend hbackend) rfl

theorem restoreSaved_went (backends : List Backend) :
    Went session (.restoreSaved backends) (session.restoreSaved backends).2 := by
  unfold restoreSaved
  split
  · exact restore_went backends _ fun _ hbackend ↦ hbackend
  · exact .stayed rfl

theorem place?_of_awaiting {load : Load} {restoring : Option Nat} {selected : Option String}
    (h : session.view = .awaiting load restoring selected) :
    session.place? = some (load.backend, load.path) := by
  have hcurrent : session.current = some load.placeholder := congrArg View.current h
  unfold place?
  rw [hcurrent]
  rfl

theorem place?_of_showing {snapshot : Snapshot} {selected : Option String}
    (h : session.view = .showing snapshot selected) :
    session.place? = some (snapshot.backend, snapshot.path) := by
  have hcurrent : session.current = some snapshot := congrArg View.current h
  unfold place?
  rw [hcurrent]
  rfl

theorem unprompted_went (hstep : Unprompted session input next) : Went session input next := by
  cases hstep with
  | quiet hview => exact .stayed (place?_of_current (congrArg View.current hview))
  | loaded load children _ hawaiting hnext =>
    exact .stayed ((place?_of_showing hnext).trans (place?_of_awaiting hawaiting).symm)
  | reopened load error _ _ hawaiting hnext =>
    exact .led load.backend _ (.retreated input load.placeholder (congrArg View.current hawaiting))
      (place?_of_awaiting hnext)
  | failed load error _ _ hawaiting _ hnext =>
    exact .stayed ((place?_of_showing hnext).trans (place?_of_awaiting hawaiting).symm)

theorem step_went (htimeline : Timeline session) (input : Input) :
    Went session input (session.step input) := by
  cases input with
  | navigate backend path rootChange =>
    exact navigateTo_went backend path rootChange (.navigated backend path rootChange)
  | refresh => exact refresh_went htimeline
  | goUp => exact goUp_went htimeline
  | enter name => exact enter_went htimeline name
  | select name => exact selectEntry_went name
  | restore backends state => exact restore_went backends state fun _ hbackend ↦ hbackend
  | restoreSaved backends => exact restoreSaved_went backends
  | _ => exact unprompted_went (step_unprompted htimeline rfl)

/-- What is true of every place that a step leads to, and stays true, is true of what is on show. -/
theorem step_place {P : Backend → String → Prop} (htimeline : Timeline session) (input : Input)
    (h : ∀ snapshot, session.current = some snapshot → P snapshot.backend snapshot.path)
    (hleads : ∀ backend path, Leads session input backend path → P backend path) :
    ∀ snapshot, (session.step input).current = some snapshot →
      P snapshot.backend snapshot.path := by
  intro snapshot hnext
  have hplace : (session.step input).place? = some (snapshot.backend, snapshot.path) := by
    unfold place?
    rw [hnext]
    rfl
  cases step_went htimeline input with
  | stayed hsame =>
    obtain ⟨before, hcurrent, hbefore⟩ := Option.map_eq_some_iff.mp (hsame.symm.trans hplace)
    obtain ⟨hbackend, hpath⟩ := Prod.mk.inj hbefore
    rw [← hbackend, ← hpath]
    exact h before hcurrent
  | led backend path hled hthere =>
    obtain ⟨rfl, rfl⟩ := Prod.mk.inj (Option.some.inj (hthere.symm.trans hplace))
    exact hleads _ _ hled

end DirectoryBrowser.Session
