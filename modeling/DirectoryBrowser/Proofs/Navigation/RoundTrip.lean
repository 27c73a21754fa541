import DirectoryBrowser.Proofs.Navigation.CanonicalOrder
import DirectoryBrowser.Proofs.Navigation.Destinations
import DirectoryBrowser.Proofs.Navigation.SavedLocation

/-!
# Saving and restoring

What a session saves is what a fresh one replays. The two meet in the normal
form of paths: every navigation leads to a path in normal form, so the path that
is saved comes back from the replay as it was. The children come back as they
were because a snapshot sorts them: the storage has to list the same entries
again, in whatever order.
-/

namespace DirectoryBrowser.Session

variable {session next : Session}

/-! ### Every path on show is in normal form -/

def IsNormal (session : Session) : Prop :=
  ∀ snapshot, session.current = some snapshot → Path.normalize snapshot.path = snapshot.path

theorem normalize_target (backend : Backend) (path : String) :
    Path.normalize (target backend path) = target backend path :=
  Path.normalize_normalize _

namespace IsNormal

theorem start (status : Option StatusCache) (store : StateStore) :
    IsNormal (.start status store) := by
  intro snapshot hnone
  cases hnone

theorem leads {input : Input} {backend : Backend} {path : String}
    (hleads : Leads session input backend path) : Path.normalize path = path := by
  cases hleads with
  | replayed => exact Path.normalize_normalize _
  | _ => exact normalize_target _ _

theorem step (h : IsNormal session) (htimeline : Timeline session) (input : Input) :
    IsNormal (session.step input) :=
  step_place (P := fun _ path ↦ Path.normalize path = path) htimeline input h fun _ _ ↦ leads

theorem run (h : IsNormal session) (htimeline : Timeline session) (inputs : List Input) :
    IsNormal (session.run inputs) := by
  induction inputs generalizing session with
  | nil => exact h
  | cons input inputs ih => exact ih (h.step htimeline input) (htimeline.step input)

end IsNormal

/-! ### Every listing on show has been brought back -/

/-- What is on show, once loaded, is what a listing has returned. -/
def IsSourced (noted : List Response) (session : Session) : Prop :=
  ∀ snapshot, session.current = some snapshot → snapshot.state = .loaded →
    ∃ load children, (load, .ok children) ∈ noted ∧ snapshot = load.loaded children

theorem isSourced_run (status : Option StatusCache) (store : StateStore) (inputs : List Input) :
    IsSourced ((start status store).responses inputs) ((start status store).run inputs) := by
  induction inputs using List.reverseRecOn with
  | nil =>
    intro snapshot hnone
    cases hnone
  | append_singleton inputs input ih =>
    have hnoted : Noted _ ((start status store).run inputs) := .of_run status store inputs
    have htimeline : Timeline ((start status store).run inputs) :=
      (Timeline.start status store).run inputs
    rw [run_concat, responses_append]
    generalize (start status store).run inputs = session at ih hnoted htimeline ⊢
    intro snapshot hcurrent hloaded
    have hold (hsame : session.current = some snapshot) :
        ∃ load children, (load, .ok children) ∈ (start status store).responses inputs ++
          session.responses [input] ∧ snapshot = load.loaded children := by
      obtain ⟨load, children, hmem, hsnapshot⟩ := ih snapshot hsame hloaded
      exact ⟨load, children, List.mem_append_left _ hmem, hsnapshot⟩
    cases session.step_shown input with
    | kept hsame => exact hold (hsame ▸ hcurrent)
    | bare other hstate hother =>
      cases hother.symm.trans hcurrent
      exact absurd hloaded hstate
    | listed other _ harrival hother =>
      cases hother.symm.trans hcurrent
      generalize session.step input = next at harrival
      cases harrival with
      | mk backend load children later hbackend hinbox hgeneration =>
        have hplaceholder := htimeline.current_of_inbox hinbox hgeneration
        cases hbackend.symm.trans (htimeline.current _ hplaceholder).2
        have hmem := hnoted.posted load (.ok children) (hinbox ▸ List.mem_cons_self ..)
        exact ⟨load, children, List.mem_append_left _ hmem, rfl⟩

/-! ### There and back -/

/-- What a directory of these children answers when it is listed, in an order of its own. -/
def ListedAs (children : List Entry) : Except BackendError (List Entry) → Prop
  | .ok listed => Entry.SameEntries children listed
  | .error _ => False

theorem loaded_of_sameEntries {children listed : List Entry} (load : Load)
    (h : Entry.SameEntries children listed) : load.loaded listed = load.loaded children := by
  unfold Load.loaded Snapshot.loaded
  rw [h.sorted_eq]

theorem keepSelected_of_named {snapshot : Snapshot} {selected : Option String}
    (h : ∀ name, selected = some name → (snapshot.child? name).isSome = true) :
    keepSelected snapshot selected = selected := by
  unfold keepSelected
  cases selected with
  | none => rfl
  | some name => exact Option.filter_some_pos (h name rfl)

/-- While its directory lists the same entries, a replay shows nothing but the saved location. -/
theorem Replay.location {noted : List Response} {load : Load} {saved : Option String}
    {told : List Event} {children : List Entry}
    (h : Replay noted load saved session.view told)
    (hlisting : ∀ result, (load, result) ∈ noted → ListedAs children result)
    (hnamed : ∀ name, saved = some name → ((load.loaded children).child? name).isSome = true) :
    session.location? = none ∨
      session.location? = some (locationOf (load.loaded children) saved) := by
  generalize hview : session.view = view at h
  have hcurrent : session.current = view.current := congrArg View.current hview
  have hselected : session.selected = view.selected := congrArg View.selected hview
  cases h with
  | awaiting => exact Or.inl (location?_of_unloaded hcurrent nofun)
  | loaded listed hnoted =>
    rw [loaded_of_sameEntries load (hlisting _ hnoted)] at hcurrent hselected
    right
    rw [location?_of_loaded hcurrent rfl, hselected]
    exact congrArg (some <| locationOf _ ·) (keepSelected_of_named hnamed)
  | retreated error hnoted => exact (hlisting _ hnoted).elim

theorem Replay.dispatched_of_listedAs {noted : List Response} {load : Load} {saved : Option String}
    {view : View} {told : List Event} {children : List Entry}
    (h : Replay noted load saved view told)
    (hlisting : ∀ result, (load, result) ∈ noted → ListedAs children result) :
    told.filterMap Event.dispatched? = [load] := by
  cases h with
  | awaiting => rfl
  | loaded => rfl
  | retreated error hnoted => exact (hlisting _ hnoted).elim

theorem Mirrored.kept {held : Option NavState} {input : Input} (h : Mirrored held session)
    (hlocation : (session.step input).location? = none ∨
      (session.step input).location? = held) : Mirrored held (session.step input) := by
  have hnext := h.step input
  rcases hlocation with hnone | hsame
  · rwa [hnone, Option.none_or] at hnext
  · rwa [hsame, Option.or_self] at hnext

/-- The location of a listing can be replayed where the same root is found. -/
theorem replayable_of_shown {snapshot : Snapshot} {backend : Backend}
    (selected : Option String) (habsolute : Path.IsAbsolute snapshot.path)
    (hnormal : Path.normalize snapshot.path = snapshot.path)
    (hinside : Path.LiesIn snapshot.backend.root.path snapshot.path)
    (hroot : backend.root = snapshot.backend.root) :
    Replayable backend (locationOf snapshot selected) where
  key := congrArg RootIdentity.key hroot
  isAbsolute := habsolute.normalize
  liesIn := by
    unfold locationOf
    rw [hroot, hnormal]
    exact hinside

/-- The store keeps the location that is replayed while its directory lists the same entries. -/
theorem Replay.run_mirrored {load : Load} {saved : Option String} {told before : List Event}
    {children : List Entry} {later : List Input}
    (h : Replay [] load saved session.view told) (hnoted : Noted [] session)
    (htimeline : Timeline session) (hnavigations : session.navigations = before ++ told)
    (hmirrored : Mirrored (some (locationOf (load.loaded children) saved)) session)
    (hnamed : ∀ name, saved = some name → ((load.loaded children).child? name).isSome = true)
    (hcalls : ∀ input ∈ later, input.isCall = false)
    (hlisting : ∀ result, (load, result) ∈ session.responses later → ListedAs children result) :
    Mirrored (some (locationOf (load.loaded children) saved)) (session.run later) := by
  have hrun := uncalled_run (motive := fun noted session ↦
    (∃ told, session.navigations = before ++ told ∧
      Replay noted load saved session.view told) ∧
    ((∀ result, (load, result) ∈ noted → ListedAs children result) →
      Mirrored (some (locationOf (load.loaded children) saved)) session))
    hnoted htimeline hcalls ⟨⟨told, hnavigations, h⟩, fun _ ↦ hmirrored⟩ ?_
  · exact hrun.2 hlisting
  · rintro noted session input hnoted htimeline hcall ⟨⟨told, hnavigations, h⟩, hmirrored⟩
    obtain ⟨told, hnext, hreplay⟩ := h.step hnoted htimeline hnavigations hcall
    have hreplay : Replay (noted ++ (session.response? input).toList) load saved
        (session.step input).view told := hreplay.mono
    refine ⟨⟨told, hnext, hreplay⟩, fun hlisting ↦ ?_⟩
    have hearlier := hmirrored fun result hmem ↦ hlisting result (List.mem_append_left _ hmem)
    exact hearlier.kept (hreplay.location hlisting hnamed)

/-- The only listing that is sent for succeeds, so that no cancelled one comes back. -/
theorem Replay.honest {load : Load} {saved : Option String} {told : List Event}
    {children : List Entry} {later : List Input}
    (h : Replay [] load saved session.view told) (hnoted : Noted [] session)
    (htimeline : Timeline session) (hnavigations : session.navigations = [] ++ told)
    (hsent : session.outstanding ⊆ session.dispatched)
    (hcalls : ∀ input ∈ later, input.isCall = false)
    (hlisting : ∀ result, (load, result) ∈ session.responses later → ListedAs children result) :
    session.honest later = true := by
  obtain ⟨told, htold, hcourse⟩ := h.run hnoted htimeline hnavigations hcalls
  refine honest_of_responses fun other error hmem ↦ ?_
  have hother := dispatched_of_mem_responses htimeline hsent hmem
  rw [dispatched_eq, htold, List.nil_append, hcourse.dispatched_of_listedAs hlisting] at hother
  obtain rfl : other = load := List.mem_singleton.mp hother
  exact (hlisting _ hmem).elim

theorem Replayed.shows {noted : List Response} {load : Load} {saved : Option String}
    {issued : List Load} {children : List Entry} (h : Replayed noted load saved session issued)
    (hlisting : ∀ result, (load, result) ∈ noted → ListedAs children result)
    (hnamed : ∀ name, saved = some name → ∃ entry ∈ children, entry.name = name) :
    session.current = some (load.loaded children) ∧ session.selected = saved := by
  obtain ⟨result, hresult⟩ := h.answered
  have hlisted : ListedAs children result := hlisting result hresult
  cases result with
  | error error => exact hlisted.elim
  | ok listed =>
    obtain ⟨-, hcurrent, hselected⟩ := h.loaded listed hresult
    rw [loaded_of_sameEntries load hlisted] at hcurrent
    refine ⟨hcurrent, Option.ext fun name ↦ (hselected name).trans ?_⟩
    refine and_iff_left_of_imp fun hname ↦ ?_
    obtain ⟨entry, hentry, rfl⟩ := hnamed name hname
    exact ⟨entry, hlisted.perm.mem_iff.mpr hentry, rfl⟩

/-- A replay whose directory can be listed comes to rest where it was saved. -/
theorem replay_settles (fresh : Option StatusCache) {backends : List Backend} {backend : Backend}
    {state : NavState} {children : List Entry} {later : List Input}
    (hchosen : chosen? backends state = some backend) (hreplayable : Replayable backend state)
    (hnamed : ∀ name, state.entry = some name → ∃ entry ∈ children, entry.name = name) :
    let load : Load := ⟨1, Path.normalize state.directory, backend⟩
    let restored := ((start fresh (.holding (some state))).restore backends state).2
    locationOf (load.loaded children) state.entry = state →
    (∀ input ∈ later, input.isCall = false) →
    (∀ result, (load, result) ∈ restored.responses later → ListedAs children result) →
    (restored.run later).store = .holding (some state) ∧
      ((restored.run later).isIdle = true →
        (restored.run later).current = some (load.loaded children) ∧
          (restored.run later).selected = state.entry) := by
  intro load restored hstate hcalls hlisting
  have hchild : ∀ name, state.entry = some name →
      ((load.loaded children).child? name).isSome = true := by
    intro name hname
    exact child?_of_keepSelected
      ((keepSelected_loaded load children state.entry name).mpr ⟨hname, hnamed name hname⟩)
  have hstart : Timeline (start fresh (.holding (some state))) := .start fresh _
  have htimeline : Timeline restored := hstart.step (.restore backends state)
  have hnoted : Noted [] restored := (Noted.start fresh _).step hstart (.restore backends state)
  obtain ⟨hopened, hreplay⟩ : restored.navigations = [] ++ load.opening ∧
      Replay [] load state.entry restored.view load.opening :=
    replay_restored (start fresh (.holding (some state))) hchosen hreplayable []
  have hlocation := hreplay.location nofun hchild
  rw [hstate] at hlocation
  have hmirrored : Mirrored (some state) restored := by
    have hopening : restored = (start fresh (.holding (some state))).step
        (.restore backends state) := rfl
    rw [hopening] at hlocation ⊢
    exact (Mirrored.start fresh (some state)).kept hlocation
  rw [← hstate] at hmirrored
  have hstore := hreplay.run_mirrored hnoted htimeline hopened hmirrored hchild hcalls hlisting
  rw [hstate] at hstore
  refine ⟨hstore.store, fun hidle ↦ ?_⟩
  obtain ⟨news, hpassed⟩ := Passed.step hstart (.restore backends state)
  have hhonest : restored.honest later = true :=
    hreplay.honest hnoted htimeline hopened (hpassed.outstanding_subset (List.nil_subset _)) hcalls
      hlisting
  have htallied : Tallied (restored.run later) :=
    ((Tallied.start fresh _).step hstart (.restore backends state)).run htimeline later
  have hpending : Awaiting restored :=
    (Awaiting.start fresh _).called (restore_called _ (.restore backends state) backends state
      fun _ ↦ id)
  have hawaiting : Awaiting (restored.run later) := hpending.run htimeline hhonest
  obtain ⟨told, -, hcourse⟩ := hreplay.run hnoted htimeline hopened hcalls
  have hended := hcourse.replayed (hnoted.run htimeline later) fun _ ↦
    hawaiting.not_loading (outstanding_of_isIdle htallied hidle)
  exact hended.shows hlisting hnamed

/-- What a session has saved with a listing on show, a fresh one brings back, where it finds the
same root and the directory lists the same entries. The backend may list them in another order each
time, in any if no two of them agree in name and kind, and the children are in the same order again,
with the same entry selected. The store is left as it is all the while. -/
theorem saved_location_round_trip (status fresh : Option StatusCache) (content : Option NavState)
    (inputs : List Input) (snapshot : Snapshot) (children : List Entry)
    (backends : List Backend) (backend : Backend)
    (hcurrent : ((start status (.holding content)).run inputs).current = some snapshot)
    (hloaded : snapshot.state = .loaded) (habsolute : Path.IsAbsolute snapshot.path)
    (hinside : Path.LiesIn snapshot.backend.root.path snapshot.path)
    (hlisting : ∀ load result, (load, result) ∈ (start status (.holding content)).responses inputs →
      load.generation = snapshot.generation → ListedAs children result)
    (hfind : backends.find? (fun backend ↦ backend.root.key == snapshot.backend.root.key) =
      some backend)
    (hroot : backend.root = snapshot.backend.root) :
    let first := (start status (.holding content)).run inputs
    let restored := (start fresh first.store).restoreSaved backends
    let unchanged (later : List Input) := ∀ load result,
      (load, result) ∈ restored.2.responses later → load.path = snapshot.path →
        ListedAs children result
    restored.1 = true ∧
    (∀ later, (∀ input ∈ later, input.isCall = false) → unchanged later →
      let second := restored.2.run later
      second.store = first.store ∧
      (second.isIdle = true → ∃ shown,
        second.current = some shown ∧ shown.state = .loaded ∧ shown.key = snapshot.key ∧
        shown.children = snapshot.children ∧ second.selected = first.selected)) ∧
    ∀ listed, Entry.SameEntries children listed → ∃ later,
      (∀ input ∈ later, input.isCall = false) ∧ unchanged later ∧
      (∀ response ∈ restored.2.responses later, response.2 = .ok listed) ∧
      (restored.2.run later).isIdle = true := by
  intro first restored unchanged
  -- What the first session has shown and saved.
  obtain ⟨held, hmirrored⟩ : ∃ held, Mirrored held first :=
    (Mirrored.start status content).run inputs
  obtain rfl := hmirrored.location _ (location?_of_loaded hcurrent hloaded)
  obtain ⟨load, listed, hnoted, hshown⟩ := isSourced_run status _ inputs snapshot hcurrent hloaded
  have hlisted : Entry.SameEntries children listed :=
    hlisting load (.ok listed) hnoted (congrArg Snapshot.generation hshown).symm
  rw [loaded_of_sameEntries load hlisted] at hshown
  have hnormal : Path.normalize snapshot.path = snapshot.path :=
    (IsNormal.start status _).run (Timeline.start status _) inputs snapshot hcurrent
  have hchildren : Entry.sorted children = snapshot.children :=
    (congrArg Snapshot.children hshown).symm
  -- How the second session begins.
  let saved := locationOf snapshot first.selected
  have hreplayable : Replayable backend saved :=
    replayable_of_shown first.selected habsolute hnormal hinside hroot
  have hchosen : chosen? backends saved = some backend := by
    unfold chosen?
    exact congrArg (·.or backends.head?) hfind
  have hrestored : restored = (start fresh (.holding (some saved))).restore backends saved := by
    unfold restored
    rw [hmirrored.store]
    rfl
  have hpath : Path.normalize saved.directory = snapshot.path := hnormal
  have hlocation : locationOf (Load.loaded ⟨1, Path.normalize saved.directory, backend⟩ children)
      first.selected = saved := by
    rw [hpath]
    unfold saved locationOf Load.loaded Snapshot.loaded
    dsimp only
    rw [hroot]
  have hnamed (name : String) (hselected : first.selected = some name) :
      ∃ entry ∈ children, entry.name = name := by
    have hchild := hmirrored.named snapshot name hcurrent hloaded hselected
    rw [hshown] at hchild
    exact ((keepSelected_loaded load children (some name) name).mp
      (Option.filter_some_pos hchild)).2
  refine ⟨?_, ?_, ?_⟩
  · rw [hrestored, restore_of_replayable _ hchosen hreplayable]
  · intro later hcalls hunchanged second
    have hagain : ∀ load result, (load, result) ∈ restored.2.responses later →
        load.path = snapshot.path → ListedAs children result := hunchanged
    rw [hrestored] at hagain
    obtain ⟨hstore, hsettled⟩ := replay_settles fresh hchosen hreplayable hnamed hlocation hcalls
      fun result hmem ↦ hagain _ result hmem hpath
    rw [← hrestored] at hstore hsettled
    refine ⟨hstore.trans hmirrored.store.symm, fun hidle ↦ ?_⟩
    obtain ⟨hshown, hselected⟩ := hsettled hidle
    refine ⟨_, hshown, rfl, ?_, hchildren, hselected⟩
    unfold Snapshot.key Load.loaded Snapshot.loaded
    dsimp only
    rw [hpath, hroot]
  · intro listed hsame
    have htimeline : Timeline restored.2 := by
      rw [hrestored]
      exact (Timeline.start fresh _).step (.restore backends _)
    have htallied : Tallied restored.2 := by
      rw [hrestored]
      exact (Tallied.start fresh _).step (.start fresh _) (.restore backends _)
    obtain ⟨later, hcalls, hresponses, hidle⟩ :=
      exists_idle htimeline htallied fun _ ↦ .ok listed
    refine ⟨later, hcalls, fun load result hmem _ ↦ ?_, hresponses, hidle⟩
    obtain rfl : result = .ok listed := hresponses (load, result) hmem
    exact hsame

def contents : List Entry := [⟨"b", false, none⟩, ⟨"a", true, none⟩]

/-- A directory is opened, and an entry of its listing is selected. -/
def excursion : List Input :=
  [.navigate disk "/r/" true, .respond 1 (.ok contents), .process, .select "b"]

/-- The directory is listed again, the other way round. -/
def comeback : List Input :=
  [.respond 1 (.ok contents.reverse), .process]

theorem listedAs_of_mem {noted : List Response} {load other : Load} {children listed : List Entry}
    {result : Except BackendError (List Entry)} (hnoted : noted = [(other, .ok listed)])
    (hsame : Entry.SameEntries children listed) (hmem : (load, result) ∈ noted) :
    ListedAs children result := by
  rw [hnoted] at hmem
  rw [(Prod.mk.inj (List.mem_singleton.mp hmem)).2]
  exact hsame

/-- The only listing under way has come, and is put on show as this snapshot. -/
def landed (session : Session) (snapshot : Snapshot) : Session :=
  ({ session with
    inbox := []
    loadsInFlight := 0
    loadToken := none }.onShow snapshot).persist.requestStatus snapshot

theorem saved_location_round_trip_excursion :
    let first := (start none (.holding none)).run excursion
    let restored := (start none first.store).restoreSaved [disk]
    let second := restored.2.run comeback
    restored.1 = true ∧ second.isIdle = true ∧ second.store = first.store ∧
      ∃ shown, second.current = some shown ∧ shown.state = .loaded ∧
        shown.key = ⟨disk.root.key, "/r"⟩ ∧
        shown.children = [⟨"a", true, none⟩, ⟨"b", false, none⟩] ∧
        second.selected = some "b" := by
  intro first restored second
  have hlisted : Entry.SameEntries contents contents :=
    .of_perm (by decide) (List.Perm.refl contents)
  have hagain : Entry.SameEntries contents contents.reverse :=
    .of_perm (by decide) (List.reverse_perm contents)
  -- The kernel cannot sort two entries, so it is given what sorting them leads to.
  let snapshot : Snapshot := ⟨disk, "/r", contents.reverse, 1, .loaded⟩
  have hsorted : Entry.sorted contents.reverse = contents.reverse :=
    Entry.sorted_eq_self (by decide)
  have hsnapshot : Snapshot.loaded disk "/r" contents 1 = snapshot :=
    congrArg (Snapshot.mk disk "/r" · 1 .loaded) (hagain.sorted_eq.symm.trans hsorted)
  have hreversed : Snapshot.loaded disk "/r" contents.reverse 1 = snapshot :=
    congrArg (Snapshot.mk disk "/r" · 1 .loaded) hsorted
  have hfirst : first = (((start none (.holding none)).run (excursion.take 2)).landed
      snapshot).step (.select "b") := by
    rw [← hsnapshot]
    with_unfolding_all rfl
  have hsaved : first.store = .holding (some ⟨disk.root.key, "/r", "/r", some "b"⟩) := by
    rw [hfirst]
    with_unfolding_all rfl
  have hrestored : restored = (start none (.holding (some ⟨disk.root.key, "/r", "/r",
      some "b"⟩))).restoreSaved [disk] := by
    unfold restored
    rw [hsaved]
  have hsecond : second = (restored.2.run (comeback.take 1)).landed snapshot := by
    unfold second
    rw [← hreversed, hrestored]
    with_unfolding_all rfl
  have hcurrent : first.current = some snapshot := by
    rw [hfirst]
    with_unfolding_all rfl
  have hselected : first.selected = some "b" := by
    rw [hfirst]
    decide +kernel
  have hresponses : (start none (.holding none)).responses excursion =
      [(⟨1, "/r", disk⟩, .ok contents)] := by with_unfolding_all rfl
  have hlater : restored.2.responses comeback = [(⟨1, "/r", disk⟩, .ok contents.reverse)] := by
    rw [hrestored]
    with_unfolding_all rfl
  have hcalls : ∀ input ∈ comeback, input.isCall = false := by simp [comeback, Input.isCall]
  have hidle : second.isIdle = true := by
    rw [hsecond, hrestored]
    decide +kernel
  obtain ⟨hrestores, hsettled, -⟩ := saved_location_round_trip none none none excursion snapshot
    contents [disk] disk hcurrent rfl (by decide +kernel) ⟨"/r".toList, by decide +kernel⟩
    (fun _ _ hmem _ ↦ listedAs_of_mem hresponses hlisted hmem) (by with_unfolding_all rfl) rfl
  obtain ⟨hstore, hshows⟩ := hsettled comeback hcalls fun _ _ hmem _ ↦
    listedAs_of_mem hlater hagain hmem
  obtain ⟨shown, hshown, hloaded, hkey, hsame, hkept⟩ := hshows hidle
  exact ⟨hrestores, hidle, hstore, shown, hshown, hloaded, hkey, hsame, hkept.trans hselected⟩

end DirectoryBrowser.Session
