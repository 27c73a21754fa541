import DirectoryBrowser.Proofs.Navigation.Settling
import DirectoryBrowser.Proofs.Navigation.Unprompted
import DirectoryBrowser.Proofs.Paths

/-!
# Replaying a saved location

A saved location may name a backend that is gone, a path that is not in it, or
a directory that cannot be listed any more. All three give way to a root, and a
root gives way to nothing. `Landing` gives the course of a load that was opened
to stay, and `Replay` that of a load which may still be given up, each as what
the session shows together with what it has told since. Both are kept by every
step that is not a call of the user.
-/

namespace DirectoryBrowser

/-- Tells that a directory cannot be shown. -/
def Event.isFailure : Event → Bool
  | .published snapshot =>
    match snapshot.state with
    | .failed _ => true
    | .loading | .loaded => false
  | .loadFailed .. => true
  | .statusUpdated .. | .saved _ | .dispatched _ => false

namespace Session

theorem target_of_isAbsolute (backend : Backend) {path : String} (h : Path.IsAbsolute path) :
    target backend path = Path.normalize path := by
  unfold target
  rw [Path.expandHome_of_isAbsolute h]

/-- The backend that a saved location leads to: its own, if it is among those given. -/
def chosen? (backends : List Backend) (state : NavState) : Option Backend :=
  (backends.find? fun backend ↦ backend.root.key == state.rootUrl).or backends.head?

theorem eq_nil_of_chosen? {backends : List Backend} {state : NavState}
    (h : chosen? backends state = none) : backends = [] := by
  unfold chosen? at h
  rw [Option.or_eq_none_iff] at h
  exact List.head?_eq_none_iff.mp h.2

/-- The saved directory is one of the backend. -/
structure Replayable (backend : Backend) (state : NavState) : Prop where
  key : backend.root.key = state.rootUrl
  isAbsolute : Path.IsAbsolute (Path.normalize state.directory)
  liesIn : Path.LiesIn backend.root.path (Path.normalize state.directory)

theorem restore_nil (session : Session) (state : NavState) :
    session.restore [] state = (false, session) := rfl

theorem navigateTo_of_rootChange (session : Session) (backend : Backend) (path : String) :
    session.navigateTo backend path true = (true, session.openAt backend (target backend path)) := rfl

theorem restore_of_replayable (session : Session) {backends : List Backend} {state : NavState}
    {backend : Backend} (hchosen : chosen? backends state = some backend)
    (h : Replayable backend state) :
    session.restore backends state = (true, { session.openAt backend
      (Path.normalize state.directory) with
        restoring := some (session.generation + 1), selected := state.entry }) := by
  have htarget : target backend (Path.normalize state.directory) =
      Path.normalize state.directory := by
    rw [target_of_isAbsolute backend h.isAbsolute, Path.normalize_normalize]
  have hinside : ((Path.normalize state.directory).toList.head? == some '/' &&
      Path.isUnder backend.root.path (Path.normalize state.directory)) = true := by
    rw [(Path.isUnder_iff_liesIn h.isAbsolute).mpr h.liesIn, Bool.and_true]
    exact beq_iff_eq.mpr h.isAbsolute
  have hfind : backends.find? (fun backend ↦ backend.root.key == state.rootUrl) =
      some backend := by
    unfold chosen? at hchosen
    cases hfound : backends.find? (fun backend ↦ backend.root.key == state.rootUrl) with
    | some other =>
      rw [hfound] at hchosen
      exact hchosen
    | none =>
      rw [hfound, Option.none_or] at hchosen
      have hkey := List.find?_eq_none.mp hfound backend (List.mem_of_head? hchosen)
      exact absurd (beq_iff_eq.mpr h.key) hkey
  unfold restore
  rw [hfind]
  dsimp only
  rw [if_pos hinside, navigateTo_of_rootChange, htarget]
  rfl

theorem restore_of_not_replayable (session : Session) {backends : List Backend} {state : NavState}
    {backend : Backend} (hchosen : chosen? backends state = some backend)
    (h : ¬ Replayable backend state) :
    session.restore backends state =
      (true, session.openAt backend (target backend backend.root.path)) := by
  unfold chosen? at hchosen
  unfold restore
  cases hfound : backends.find? (fun backend ↦ backend.root.key == state.rootUrl) with
  | none =>
    rw [hfound, Option.none_or] at hchosen
    rw [hchosen]
    rfl
  | some other =>
    rw [hfound, Option.some_or] at hchosen
    cases hchosen
    have hkey : backend.root.key = state.rootUrl := by simpa using List.find?_some hfound
    dsimp only
    split
    case isTrue hinside =>
      obtain ⟨habsolute, hunder⟩ := (Bool.and_eq_true _ _).mp hinside
      have habsolute : Path.IsAbsolute (Path.normalize state.directory) := beq_iff_eq.mp habsolute
      exact absurd ⟨hkey, habsolute, (Path.isUnder_iff_liesIn habsolute).mp hunder⟩ h
    case isFalse => rfl

/-! ### The course of a load -/

theorem awaiting_inj {first second : Load} {restoring restoring' : Option Nat}
    {selected selected' : Option String}
    (h : View.awaiting first restoring selected = .awaiting second restoring' selected') :
    first = second ∧ restoring = restoring' ∧ selected = selected' := by
  unfold View.awaiting Load.placeholder Snapshot.loading at h
  cases first
  cases second
  simp only [View.mk.injEq, Option.some.injEq, Snapshot.mk.injEq, and_true] at h
  obtain ⟨rfl, ⟨-, rfl, -⟩, rfl, rfl, rfl⟩ := h
  exact ⟨rfl, rfl, rfl⟩

theorem awaiting_ne_showing {load : Load} {restoring selected selected' : Option _}
    {snapshot : Snapshot} (h : snapshot.state ≠ .loading) :
    View.awaiting load restoring selected ≠ .showing snapshot selected' := by
  intro heq
  have hcurrent := Option.some.inj (congrArg View.current heq)
  rw [← hcurrent] at h
  exact h rfl

/-- The course of a load that stays, whatever comes of it. -/
inductive Landing (noted : List Response) (load : Load) (selected : Option String) :
    View → List Event → Prop
  | awaiting : Landing noted load selected (.awaiting load none selected) load.opening
  | loaded (children : List Entry) (hnoted : (load, .ok children) ∈ noted) :
      Landing noted load selected
        (.showing (load.loaded children) (keepSelected (load.loaded children) selected))
        (load.opening ++ [.published (load.loaded children)])
  | failed (error : BackendError) (hnoted : (load, .error error) ∈ noted) :
      Landing noted load selected (.showing (load.failed error) selected)
        (load.opening ++ [.published (load.failed error), .loadFailed load.path error])

/-- The course of a load that is given up for the root when it fails, without a word. -/
inductive Replay (noted : List Response) (load : Load) (selected : Option String) :
    View → List Event → Prop
  | awaiting :
      Replay noted load selected (.awaiting load (some load.generation) selected) load.opening
  | loaded (children : List Entry) (hnoted : (load, .ok children) ∈ noted) :
      Replay noted load selected
        (.showing (load.loaded children) (keepSelected (load.loaded children) selected))
        (load.opening ++ [.published (load.loaded children)])
  | retreated (error : BackendError) {view : View} {told : List Event}
      (hnoted : (load, .error error) ∈ noted)
      (hlanding : Landing noted load.retreat none view told) :
      Replay noted load selected view (load.opening ++ told)

variable {noted more : List Response} {load : Load} {selected : Option String} {view : View}
  {told : List Event} {session : Session} {input : Input}

theorem Landing.mono (h : Landing noted load selected view told) :
    Landing (noted ++ more) load selected view told := by
  cases h with
  | awaiting => exact .awaiting
  | loaded children hnoted => exact .loaded children (List.mem_append_left _ hnoted)
  | failed error hnoted => exact .failed error (List.mem_append_left _ hnoted)

theorem Replay.mono (h : Replay noted load selected view told) :
    Replay (noted ++ more) load selected view told := by
  cases h with
  | awaiting => exact .awaiting
  | loaded children hnoted => exact .loaded children (List.mem_append_left _ hnoted)
  | retreated error hnoted hlanding =>
    exact .retreated error (List.mem_append_left _ hnoted) hlanding.mono

theorem Noted.of_head? (h : Noted noted session) {result : Except BackendError (List Entry)}
    (hhead : session.inbox.head? = some (.listed load result)) : (load, result) ∈ noted :=
  h.posted load result (List.mem_of_head? hhead)

/-- Once a load has been answered, nothing that is not asked for happens to it. -/
theorem Unprompted.of_showing {next : Session} {snapshot : Snapshot}
    (h : Unprompted session input next) (hview : session.view = .showing snapshot selected)
    (hstate : snapshot.state ≠ .loading) :
    next.view = session.view ∧ next.navigations = session.navigations := by
  cases h with
  | quiet hnext hnavigations => exact ⟨hnext, hnavigations⟩
  | loaded _ _ _ hawaiting => exact absurd (hawaiting.symm.trans hview) (awaiting_ne_showing hstate)
  | reopened _ _ _ _ hawaiting =>
    exact absurd (hawaiting.symm.trans hview) (awaiting_ne_showing hstate)
  | failed _ _ _ _ hawaiting =>
    exact absurd (hawaiting.symm.trans hview) (awaiting_ne_showing hstate)

theorem Landing.step {before : List Event} (h : Landing noted load selected session.view told)
    (hnoted : Noted noted session) (htimeline : Timeline session)
    (hnavigations : session.navigations = before ++ told) (hcall : input.isCall = false) :
    ∃ told, (session.step input).navigations = before ++ told ∧
      Landing noted load selected (session.step input).view told := by
  have hstep := step_unprompted htimeline hcall
  generalize session.step input = next at hstep ⊢
  generalize hview : session.view = view at h
  cases h with
  | awaiting =>
    cases hstep with
    | quiet hnext hquiet =>
      refine ⟨load.opening, hquiet.trans hnavigations, ?_⟩
      rw [hnext, hview]
      exact .awaiting
    | loaded other children hinbox hawaiting hnext htold =>
      obtain ⟨rfl, -, hselected⟩ := awaiting_inj (hawaiting.symm.trans hview)
      refine ⟨other.opening ++ [.published (other.loaded children)], ?_, ?_⟩
      · rw [htold, hnavigations, List.append_assoc]
      · rw [hnext, hselected]
        exact .loaded children (hnoted.of_head? hinbox)
    | reopened other error hinbox hcancelled hawaiting =>
      obtain ⟨-, hrestoring, -⟩ := awaiting_inj (hawaiting.symm.trans hview)
      cases hrestoring
    | failed other error hinbox hcancelled hawaiting hrestoring hnext htold =>
      obtain ⟨rfl, -, hselected⟩ := awaiting_inj (hawaiting.symm.trans hview)
      refine ⟨other.opening ++
        [.published (other.failed error), .loadFailed other.path error], ?_, ?_⟩
      · rw [htold, hnavigations, List.append_assoc]
      · rw [hnext, hselected]
        exact .failed error (hnoted.of_head? hinbox)
  | loaded children hmem =>
    obtain ⟨hnext, hquiet⟩ := hstep.of_showing hview nofun
    refine ⟨_, hquiet.trans hnavigations, ?_⟩
    rw [hnext, hview]
    exact .loaded children hmem
  | failed error hmem =>
    obtain ⟨hnext, hquiet⟩ := hstep.of_showing hview nofun
    refine ⟨_, hquiet.trans hnavigations, ?_⟩
    rw [hnext, hview]
    exact .failed error hmem

theorem Replay.step {before : List Event} (h : Replay noted load selected session.view told)
    (hnoted : Noted noted session) (htimeline : Timeline session)
    (hnavigations : session.navigations = before ++ told) (hcall : input.isCall = false) :
    ∃ told, (session.step input).navigations = before ++ told ∧
      Replay noted load selected (session.step input).view told := by
  have hstep := step_unprompted htimeline hcall
  generalize hview : session.view = view at h
  cases h with
  | awaiting =>
    generalize session.step input = next at hstep ⊢
    cases hstep with
    | quiet hnext hquiet =>
      refine ⟨load.opening, hquiet.trans hnavigations, ?_⟩
      rw [hnext, hview]
      exact .awaiting
    | loaded other children hinbox hawaiting hnext htold =>
      obtain ⟨rfl, -, hselected⟩ := awaiting_inj (hawaiting.symm.trans hview)
      refine ⟨other.opening ++ [.published (other.loaded children)], ?_, ?_⟩
      · rw [htold, hnavigations, List.append_assoc]
      · rw [hnext, hselected]
        exact .loaded children (hnoted.of_head? hinbox)
    | reopened other error hinbox hcancelled hawaiting hnext htold =>
      obtain ⟨rfl, -, -⟩ := awaiting_inj (hawaiting.symm.trans hview)
      refine ⟨other.opening ++ other.retreat.opening, ?_, ?_⟩
      · rw [htold, hnavigations, List.append_assoc]
      · rw [hnext]
        exact .retreated error (hnoted.of_head? hinbox) .awaiting
    | failed other error hinbox hcancelled hawaiting hrestoring =>
      obtain ⟨rfl, hreplay, -⟩ := awaiting_inj (hawaiting.symm.trans hview)
      exact absurd hreplay hrestoring
  | loaded children hmem =>
    obtain ⟨hnext, hquiet⟩ := hstep.of_showing hview nofun
    refine ⟨_, hquiet.trans hnavigations, ?_⟩
    rw [hnext, hview]
    exact .loaded children hmem
  | retreated error hmem hlanding =>
    rw [← hview] at hlanding
    rw [← List.append_assoc] at hnavigations
    obtain ⟨told, hnext, hlanding⟩ := hlanding.step hnoted htimeline hnavigations hcall
    rw [List.append_assoc] at hnext
    exact ⟨_, hnext, .retreated error hmem hlanding⟩

/-- What every step that is not a call keeps holds until the next call. -/
theorem uncalled_run {motive : List Response → Session → Prop} (hnoted : Noted noted session)
    (htimeline : Timeline session) {inputs : List Input}
    (hcalls : ∀ input ∈ inputs, input.isCall = false) (hstart : motive noted session)
    (hstep : ∀ noted session input, Noted noted session → Timeline session →
      input.isCall = false → motive noted session →
        motive (noted ++ (session.response? input).toList) (session.step input)) :
    motive (noted ++ session.responses inputs) (session.run inputs) := by
  induction inputs generalizing session noted with
  | nil =>
    rw [responses, List.append_nil]
    exact hstart
  | cons input inputs ih =>
    obtain ⟨hcall, hcalls⟩ := List.forall_mem_cons.mp hcalls
    have hrest := ih (hnoted.step htimeline input) (htimeline.step input) hcalls
      (hstep noted session input hnoted htimeline hcall hstart)
    rwa [List.append_assoc] at hrest

theorem Landing.run {before : List Event} (h : Landing noted load selected session.view told)
    (hnoted : Noted noted session) (htimeline : Timeline session)
    (hnavigations : session.navigations = before ++ told) {inputs : List Input}
    (hcalls : ∀ input ∈ inputs, input.isCall = false) :
    ∃ told, (session.run inputs).navigations = before ++ told ∧
      Landing (noted ++ session.responses inputs) load selected (session.run inputs).view told := by
  refine uncalled_run (motive := fun noted session ↦ ∃ told,
    session.navigations = before ++ told ∧ Landing noted load selected session.view told)
    hnoted htimeline hcalls ⟨told, hnavigations, h⟩ ?_
  rintro noted session input hnoted htimeline hcall ⟨told, hnavigations, h⟩
  obtain ⟨told, hnext, hlanding⟩ := h.step hnoted htimeline hnavigations hcall
  exact ⟨told, hnext, hlanding.mono⟩

theorem Replay.run {before : List Event} (h : Replay noted load selected session.view told)
    (hnoted : Noted noted session) (htimeline : Timeline session)
    (hnavigations : session.navigations = before ++ told) {inputs : List Input}
    (hcalls : ∀ input ∈ inputs, input.isCall = false) :
    ∃ told, (session.run inputs).navigations = before ++ told ∧
      Replay (noted ++ session.responses inputs) load selected (session.run inputs).view told := by
  refine uncalled_run (motive := fun noted session ↦ ∃ told,
    session.navigations = before ++ told ∧ Replay noted load selected session.view told)
    hnoted htimeline hcalls ⟨told, hnavigations, h⟩ ?_
  rintro noted session input hnoted htimeline hcall ⟨told, hnavigations, h⟩
  obtain ⟨told, hnext, hreplay⟩ := h.step hnoted htimeline hnavigations hcall
  exact ⟨told, hnext, hreplay.mono⟩

/-! ### What a course amounts to -/

theorem dispatched_eq (session : Session) :
    session.dispatched = session.navigations.filterMap Event.dispatched? := by
  unfold dispatched navigations
  rw [List.filterMap_filter]
  congr 1
  funext event
  cases event with
  | _ => rfl

theorem Landing.dispatched (h : Landing noted load selected view told) :
    told.filterMap Event.dispatched? = [load] := by
  cases h with
  | awaiting => rfl
  | loaded => rfl
  | failed => rfl

theorem Replay.dispatched (h : Replay noted load selected view told) :
    told.filterMap Event.dispatched? = [load] ∨
      told.filterMap Event.dispatched? = [load, load.retreat] := by
  cases h with
  | awaiting => exact Or.inl rfl
  | loaded => exact Or.inl rfl
  | retreated error hnoted hlanding =>
    right
    rw [List.filterMap_append, hlanding.dispatched]
    rfl

theorem Landing.failures (h : Landing noted load selected view told) :
    told.filter Event.isFailure = [] ∨ ∃ error, (load, .error error) ∈ noted ∧
      told.filter Event.isFailure =
        [.published (load.failed error), .loadFailed load.path error] := by
  cases h with
  | awaiting => exact Or.inl rfl
  | loaded => exact Or.inl rfl
  | failed error hnoted => exact Or.inr ⟨error, hnoted, rfl⟩

/-- Only the load that takes its place can be seen to fail. -/
theorem Replay.failures (h : Replay noted load selected view told) :
    told.filter Event.isFailure = [] ∨ ∃ error, (load.retreat, .error error) ∈ noted ∧
      told.filter Event.isFailure =
        [.published (load.retreat.failed error), .loadFailed load.retreat.path error] := by
  cases h with
  | awaiting => exact Or.inl rfl
  | loaded => exact Or.inl rfl
  | retreated error hnoted hlanding =>
    rw [List.filter_append]
    exact hlanding.failures

/-- The session shows what has come of a load. -/
def Arrived (noted : List Response) (load : Load) (session : Session) : Prop :=
  (∃ children, (load, .ok children) ∈ noted ∧ session.current = some (load.loaded children)) ∨
    ∃ error, (load, .error error) ∈ noted ∧ session.current = some (load.failed error)

theorem Landing.arrived (h : Landing noted load selected session.view told)
    (hsettled : ∀ snapshot, session.current = some snapshot → snapshot.state ≠ .loading) :
    Arrived noted load session := by
  generalize hview : session.view = view at h
  have hcurrent : session.current = view.current := congrArg View.current hview
  cases h with
  | awaiting => exact absurd rfl (hsettled load.placeholder hcurrent)
  | loaded children hnoted => exact Or.inl ⟨children, hnoted, hcurrent⟩
  | failed error hnoted => exact Or.inr ⟨error, hnoted, hcurrent⟩

theorem keepSelected_loaded (load : Load) (children : List Entry) (selected : Option String)
    (name : String) : keepSelected (load.loaded children) selected = some name ↔
      selected = some name ∧ ∃ entry ∈ children, entry.name = name := by
  unfold keepSelected
  rw [Option.filter_eq_some_iff]
  refine and_congr_right fun _ ↦ ?_
  unfold Snapshot.child?
  rw [List.find?_isSome]
  simp [Load.loaded, Snapshot.loaded, Entry.sorted]

/-- What a replay has led to once it is over. -/
structure Replayed (noted : List Response) (load : Load) (saved : Option String)
    (session : Session) (issued : List Load) : Prop where
  answered : ∃ result, (load, result) ∈ noted
  loaded : ∀ children, (load, .ok children) ∈ noted → issued = [load] ∧
    session.current = some (load.loaded children) ∧
    ∀ name, session.selected = some name ↔
      saved = some name ∧ ∃ entry ∈ children, entry.name = name
  failed : ∀ error, (load, .error error) ∈ noted →
    issued = [load, load.retreat] ∧ Arrived noted load.retreat session

theorem Replay.replayed (h : Replay noted load selected session.view told)
    (hnoted : Noted noted session)
    (hsettled : ∀ snapshot, session.current = some snapshot → snapshot.state ≠ .loading) :
    Replayed noted load selected session (told.filterMap Event.dispatched?) := by
  generalize hview : session.view = view at h
  have hcurrent : session.current = view.current := congrArg View.current hview
  have hselected : session.selected = view.selected := congrArg View.selected hview
  cases h with
  | awaiting => exact absurd rfl (hsettled load.placeholder hcurrent)
  | loaded children hmem =>
    refine ⟨⟨_, hmem⟩, ?_, fun error herror ↦ ?_⟩
    · intro others hothers
      cases hnoted.result_unique hmem hothers
      refine ⟨rfl, hcurrent, fun name ↦ ?_⟩
      rw [hselected]
      exact keepSelected_loaded load children selected name
    · cases hnoted.result_unique hmem herror
  | retreated error hmem hlanding =>
    refine ⟨⟨_, hmem⟩, fun children hchildren ↦ ?_, fun _ _ ↦ ⟨?_, ?_⟩⟩
    · cases hnoted.result_unique hmem hchildren
    · rw [List.filterMap_append, hlanding.dispatched]
      rfl
    · rw [← hview] at hlanding
      exact hlanding.arrived hsettled

/-! ### Restoring -/

theorem replay_restored (session : Session) {backends : List Backend} {state : NavState}
    {backend : Backend} (hchosen : chosen? backends state = some backend)
    (h : Replayable backend state) (noted : List Response) :
    let first : Load := ⟨session.generation + 1, Path.normalize state.directory, backend⟩
    let restored := (session.restore backends state).2
    restored.navigations = session.navigations ++ first.opening ∧
      Replay noted first state.entry restored.view first.opening := by
  intro first restored
  have hrestored : restored = { session.openAt backend (Path.normalize state.directory) with
      restoring := some (session.generation + 1), selected := state.entry } :=
    congrArg Prod.snd (session.restore_of_replayable hchosen h)
  rw [hrestored]
  exact ⟨navigations_append (openAt_trace session backend _) rfl, .awaiting⟩

theorem landing_restored (session : Session) {backends : List Backend} {state : NavState}
    {backend : Backend} (hchosen : chosen? backends state = some backend)
    (h : ¬ Replayable backend state) (noted : List Response) :
    let first : Load := ⟨session.generation + 1, target backend backend.root.path, backend⟩
    let restored := (session.restore backends state).2
    restored.navigations = session.navigations ++ first.opening ∧
      Landing noted first none restored.view first.opening := by
  intro first restored
  have hrestored : restored = session.openAt backend (target backend backend.root.path) :=
    congrArg Prod.snd (session.restore_of_not_replayable hchosen h)
  rw [hrestored]
  exact ⟨navigations_append (openAt_trace session backend _) rfl, .awaiting⟩

theorem restore_eq_false_iff (session : Session) (backends : List Backend) (state : NavState) :
    (session.restore backends state).1 = false ↔ backends = [] := by
  cases hchosen : chosen? backends state with
  | none =>
    rw [eq_nil_of_chosen? hchosen, restore_nil]
    exact iff_of_true rfl rfl
  | some backend =>
    have hne : backends ≠ [] := by
      rintro rfl
      cases hchosen
    refine iff_of_false ?_ hne
    by_cases h : Replayable backend state
    · rw [session.restore_of_replayable hchosen h]
      exact Bool.noConfusion
    · rw [session.restore_of_not_replayable hchosen h]
      exact Bool.noConfusion

/-- Restoring is refused only when there is no backend to choose from. Otherwise it sends for one
listing, of the saved directory where the backend has it and of the root where it does not, and for
one more, of the root, when the saved directory cannot be listed. Nothing else is sent for until the
next call, the failure of the saved directory is never told, and a session that has come to rest,
as it always can, shows the saved directory with its entry or what has come of the root. -/
theorem restore_degrades_to_root (status : Option StatusCache) (store : StateStore)
    (earlier : List Input) (backends : List Backend) (state : NavState) :
    let before := (start status store).run earlier
    let restored := before.restore backends state
    (restored.1 = false ↔ backends = []) ∧ (restored.1 = false → restored.2 = before) ∧
    ∀ backend, chosen? backends state = some backend → ∃ first : Load,
      first.backend = backend ∧ first.generation = before.generation + 1 ∧
      (Replayable backend state → first.path = Path.normalize state.directory) ∧
      (¬ Replayable backend state → first.path = target backend backend.root.path) ∧
      (Path.IsAbsolute backend.root.path →
        target backend backend.root.path = Path.normalize backend.root.path) ∧
      (∀ later, (∀ input ∈ later, input.isCall = false) →
        let inputs := earlier ++ .restore backends state :: later
        let session := (start status store).run inputs
        let noted := (start status store).responses inputs
        let settled := (start status store).honest inputs = true ∧ session.isIdle = true
        ∃ told issued, session.navigations = before.navigations ++ told ∧
          session.dispatched = before.dispatched ++ issued ∧
          (Replayable backend state → Replay noted first state.entry session.view told ∧
            (issued = [first] ∨ issued = [first, first.retreat]) ∧
            (told.filter Event.isFailure = [] ∨ ∃ error, (first.retreat, .error error) ∈ noted ∧
              told.filter Event.isFailure = [.published (first.retreat.failed error),
                .loadFailed first.retreat.path error]) ∧
            (settled → Replayed noted first state.entry session issued)) ∧
          (¬ Replayable backend state → Landing noted first none session.view told ∧
            issued = [first] ∧ (settled → Arrived noted first session))) ∧
      ∀ answer : Load → Except BackendError (List Entry),
        (∀ load error, answer load = .error error → error.isCancelled = false) →
        ∃ later, (∀ input ∈ later, input.isCall = false) ∧
          (∀ response ∈ restored.2.responses later, response.2 = answer response.1) ∧
          restored.2.honest later = true ∧ (restored.2.run later).isIdle = true := by
  intro before restored
  have hfresh : Timeline (start status store) := .start status store
  have hbefore : Timeline before := hfresh.run earlier
  have htallied : Tallied before := (Tallied.start status store).run hfresh earlier
  have htimeline : Timeline restored.2 := hbefore.step (.restore backends state)
  have hopening : (start status store).run (earlier ++ [.restore backends state]) = restored.2 :=
    run_concat _ _ _
  have hrestored : Noted ((start status store).responses (earlier ++ [.restore backends state]))
      restored.2 := hopening ▸ Noted.of_run status store _
  refine ⟨before.restore_eq_false_iff backends state, ?_, fun backend hchosen ↦ ?_⟩
  · intro hfalse
    obtain rfl := (before.restore_eq_false_iff backends state).mp hfalse
    rfl
  have hresponses (later : List Input) :
      (start status store).responses (earlier ++ .restore backends state :: later) =
        (start status store).responses (earlier ++ [.restore backends state]) ++
          restored.2.responses later := by
    rw [← hopening, ← responses_append, List.append_assoc]
    rfl
  have hrun (later : List Input) :
      (start status store).run (earlier ++ .restore backends state :: later) =
        restored.2.run later := run_append _ _ _
  have hissued {session : Session} {told : List Event}
      (hnavigations : session.navigations = before.navigations ++ told) :
      session.dispatched = before.dispatched ++ told.filterMap Event.dispatched? := by
    rw [dispatched_eq, dispatched_eq, hnavigations, List.filterMap_append]
  have hrest := exists_honest_idle htimeline (htallied.step hbefore (.restore backends state))
  by_cases h : Replayable backend state
  · obtain ⟨hopened, hreplay⟩ := before.replay_restored hchosen h
      ((start status store).responses (earlier ++ [.restore backends state]))
    refine ⟨⟨before.generation + 1, Path.normalize state.directory, backend⟩, rfl, rfl,
      fun _ ↦ rfl, fun hnot ↦ absurd h hnot, target_of_isAbsolute backend, ?_, hrest⟩
    intro later hcalls inputs session noted settled
    obtain ⟨told, htold, hcourse⟩ := hreplay.run hrestored htimeline hopened hcalls
    rw [← hrun] at htold hcourse
    rw [← hresponses] at hcourse
    refine ⟨told, told.filterMap Event.dispatched?, htold, hissued htold, ?_,
      fun hnot ↦ absurd h hnot⟩
    intro _
    refine ⟨hcourse, hcourse.dispatched, hcourse.failures, ?_⟩
    rintro ⟨hhonest, hidle⟩
    exact hcourse.replayed (.of_run status store inputs) fun _ ↦ not_loading_of_isIdle status store hhonest hidle
  · obtain ⟨hopened, hlanding⟩ := before.landing_restored hchosen h
      ((start status store).responses (earlier ++ [.restore backends state]))
    refine ⟨⟨before.generation + 1, target backend backend.root.path, backend⟩, rfl, rfl,
      fun hyes ↦ absurd hyes h, fun _ ↦ rfl, target_of_isAbsolute backend, ?_, hrest⟩
    intro later hcalls inputs session noted settled
    obtain ⟨told, htold, hcourse⟩ := hlanding.run hrestored htimeline hopened hcalls
    rw [← hrun] at htold hcourse
    rw [← hresponses] at hcourse
    refine ⟨told, told.filterMap Event.dispatched?, htold, hissued htold,
      fun hyes ↦ absurd hyes h, ?_⟩
    intro _
    refine ⟨hcourse, hcourse.dispatched, ?_⟩
    rintro ⟨hhonest, hidle⟩
    exact hcourse.arrived fun _ ↦ not_loading_of_isIdle status store hhonest hidle

/-- A location on the local disk, with an entry selected. -/
def bookmark : NavState := ⟨disk.root.key, "/r/gone/", "", some "a"⟩

/-- The saved directory is gone, and the root has one file in it. -/
def disappeared : List Input :=
  [.restore [disk] bookmark, .respond 1 (.error (.notFound "/r/gone")), .process,
    .respond 2 (.ok [⟨"a", false, none⟩]), .process]

theorem responses_disappeared : (start none .absent).responses disappeared =
    [(⟨1, "/r/gone", disk⟩, .error (.notFound "/r/gone")),
      (⟨2, "/", disk⟩, .ok [⟨"a", false, none⟩])] := by
  with_unfolding_all rfl

theorem restore_degrades_to_root_disappeared :
    let session := (start none .absent).run disappeared
    session.isIdle = true ∧ session.dispatched = [⟨1, "/r/gone", disk⟩, ⟨2, "/", disk⟩] ∧
      Arrived [(⟨1, "/r/gone", disk⟩, .error (.notFound "/r/gone")),
        (⟨2, "/", disk⟩, .ok [⟨"a", false, none⟩])] ⟨2, "/", disk⟩ session := by
  intro session
  have hreplayable : Replayable disk bookmark :=
    ⟨rfl, by decide +kernel, "/r/gone".toList, by decide +kernel⟩
  have hcalls : ∀ input ∈ disappeared.tail, input.isCall = false := by
    simp [disappeared, Input.isCall]
  have hidle : session.isIdle = true := by decide +kernel
  have hhonest : (start none .absent).honest disappeared = true := by decide +kernel
  have hroot : target disk disk.root.path = "/" := by decide +kernel
  obtain ⟨-, -, h⟩ := restore_degrades_to_root none .absent [] [disk] bookmark
  obtain ⟨first, hbackend, hgeneration, hpath, -, -, hrun, -⟩ :=
    h disk (by with_unfolding_all rfl)
  have hfirst : first = ⟨1, "/r/gone", disk⟩ := by
    have hnormal : Path.normalize bookmark.directory = "/r/gone" := by decide +kernel
    cases first
    cases hbackend
    cases hgeneration
    cases (hpath hreplayable).trans hnormal
    rfl
  have hretreat : first.retreat = ⟨2, "/", disk⟩ := by
    rw [hfirst, ← hroot]
    rfl
  obtain ⟨told, issued, -, hissued, hreplay, -⟩ := hrun disappeared.tail hcalls
  obtain ⟨-, -, -, hreplayed⟩ := hreplay hreplayable
  have hended : Replayed ((start none .absent).responses disappeared) first bookmark.entry session
      issued := hreplayed ⟨hhonest, hidle⟩
  rw [responses_disappeared] at hended
  obtain ⟨hsent, harrived⟩ := hended.failed (.notFound "/r/gone") (hfirst ▸ List.mem_cons_self ..)
  rw [hretreat] at hsent harrived
  rw [hsent, hfirst] at hissued
  exact ⟨hidle, hissued, harrived⟩

end Session

end DirectoryBrowser
