import DirectoryBrowser.Proofs.Containment
import DirectoryBrowser.Proofs.Navigation.Destinations

/-!
# Browsing stays in the root

A session that is opened somewhere in the root of its backend never shows
anything outside a root. Entering a child and going up keep to the root that they
start in, and a replay or its retreat keeps to the root of the backend that it
picks. Going up is refused at the root, and it is refused nowhere else, since the
directory above is never the one that is on show.
-/

namespace DirectoryBrowser

/-- The path lies, in normal form, in the root of the backend. -/
structure Backend.Holds (backend : Backend) (path : String) : Prop where
  root : Path.IsAbsolute backend.root.path
  normal : Path.normalize path = path
  liesIn : Path.LiesIn backend.root.path path

namespace Backend.Holds

variable {backend : Backend} {path : String}

theorem ne_empty (h : backend.Holds path) : path ≠ "" := by
  rw [← h.normal]
  exact Path.normalize_ne_empty path

theorem isAbsolute (h : backend.Holds path) : Path.IsAbsolute path :=
  h.liesIn.isAbsolute h.root h.ne_empty

theorem target (hroot : Path.IsAbsolute backend.root.path)
    (h : Path.LiesIn backend.root.path path) (hne : path ≠ "") :
    backend.Holds (Session.target backend path) where
  root := hroot
  normal := Path.normalize_normalize _
  liesIn := by
    rw [Session.target_of_isAbsolute backend (h.isAbsolute hroot hne)]
    exact h.normalize

theorem target_root (hroot : Path.IsAbsolute backend.root.path) :
    backend.Holds (Session.target backend backend.root.path) where
  root := hroot
  normal := Path.normalize_normalize _
  liesIn := by
    rw [Session.target_of_isAbsolute backend hroot]
    exact Path.liesIn_normalize_self _

end Backend.Holds

namespace Session

variable {session : Session} {input : Input}

/-- Names only backends whose roots begin with a separator, and only paths in them. -/
def Input.IsConfined : Input → Prop
  | .navigate backend path _ => Path.IsAbsolute backend.root.path ∧ Path.IsAbsolute path ∧
      (Path.relativeTo? backend.root.path path).isSome = true
  | .restore backends _ | .restoreSaved backends =>
    ∀ backend ∈ backends, Path.IsAbsolute backend.root.path
  | _ => True

theorem Input.IsConfined.root {backend : Backend} (h : input.IsConfined)
    (hbackend : backend ∈ input.backends) : Path.IsAbsolute backend.root.path := by
  cases input with
  | navigate other =>
    obtain rfl := List.mem_singleton.mp hbackend
    exact h.1
  | restore backends => exact h backend hbackend
  | restoreSaved backends => exact h backend hbackend
  | _ => cases hbackend

/-- What is on show lies in the root of its backend. -/
def IsConfined (session : Session) : Prop :=
  ∀ snapshot, session.current = some snapshot → snapshot.backend.Holds snapshot.path

namespace IsConfined

theorem start (status : Option StatusCache) (store : StateStore) :
    IsConfined (.start status store) := by
  intro snapshot hnone
  cases hnone

theorem leads {backend : Backend} {path : String} (h : IsConfined session)
    (hinput : input.IsConfined) (hleads : Leads session input backend path) :
    backend.Holds path := by
  cases hleads with
  | navigated backend path =>
    obtain ⟨hroot, habsolute, hinside⟩ := hinput
    have hne : path ≠ "" := by
      rintro rfl
      cases habsolute
    exact .target hroot ((Path.isUnder_iff_liesIn habsolute).mp hinside) hne
  | refreshed snapshot hcurrent =>
    have hheld := h snapshot hcurrent
    exact .target hheld.root hheld.liesIn hheld.ne_empty
  | wentUp snapshot above hcurrent hroot hparent =>
    have hheld := h snapshot hcurrent
    exact .target hheld.root (hheld.liesIn.parent hparent hroot) (Path.ne_empty_of_parent? hparent)
  | entered snapshot name hcurrent =>
    have hheld := h snapshot hcurrent
    exact .target hheld.root (hheld.liesIn.join name) (Path.join_ne_empty _ name)
  | replayed _ _ state hbackend hreplayable =>
    exact ⟨hinput.root hbackend, Path.normalize_normalize _, hreplayable.liesIn⟩
  | restored _ _ hbackend => exact .target_root (hinput.root hbackend)
  | retreated _ snapshot hcurrent => exact .target_root (h snapshot hcurrent).root

theorem step (h : IsConfined session) (htimeline : Timeline session) (hinput : input.IsConfined) :
    IsConfined (session.step input) :=
  step_place htimeline input h fun _ _ hleads ↦ h.leads hinput hleads

theorem run (h : IsConfined session) (htimeline : Timeline session) {inputs : List Input}
    (hinputs : ∀ input ∈ inputs, input.IsConfined) : IsConfined (session.run inputs) := by
  induction inputs generalizing session with
  | nil => exact h
  | cons input inputs ih =>
    obtain ⟨hinput, hrest⟩ := List.forall_mem_cons.mp hinputs
    exact ih (h.step htimeline hinput) (htimeline.step input) hrest

end IsConfined

section GoingUp

variable {snapshot : Snapshot}

theorem goUp_of_root (hcurrent : session.current = some snapshot)
    (hbackend : session.backend = some snapshot.backend)
    (hroot : Path.normalize snapshot.path = Path.normalize snapshot.backend.root.path) :
    session.goUp = (false, session) := by
  unfold goUp
  rw [hcurrent, hbackend]
  exact if_pos (beq_iff_eq.mpr hroot)

/-- The directory above is not the one on show, so that it is always loaded. -/
theorem goUp_of_parent {above : String} (hcurrent : session.current = some snapshot)
    (hbackend : session.backend = some snapshot.backend)
    (hnormal : Path.normalize snapshot.path = snapshot.path)
    (hroot : Path.normalize snapshot.path ≠ Path.normalize snapshot.backend.root.path)
    (hparent : Path.parent? snapshot.path = some above) (habove : Path.IsAbsolute above) :
    session.goUp = (true, session.openAt snapshot.backend (Path.normalize above)) := by
  have helsewhere : (snapshot.path == Path.normalize above) = false := by
    rw [beq_eq_false_iff_ne, ← hnormal]
    exact (Path.normalize_ne_of_parent? hparent).symm
  unfold goUp
  rw [hcurrent, hbackend]
  dsimp only
  rw [if_neg (by simpa using hroot), hparent]
  simp [navigateTo, isShowing, hcurrent, target_of_isAbsolute snapshot.backend habove, helsewhere]

/-- Going up is refused only at the root, and where there is nothing above. -/
theorem goUp_eq_false_iff (hcurrent : session.current = some snapshot)
    (hbackend : session.backend = some snapshot.backend)
    (h : snapshot.backend.Holds snapshot.path) : session.goUp.1 = false ↔
      Path.normalize snapshot.path = Path.normalize snapshot.backend.root.path ∨
        Path.parent? snapshot.path = none := by
  by_cases hroot : Path.normalize snapshot.path = Path.normalize snapshot.backend.root.path
  · simp [goUp_of_root hcurrent hbackend hroot, hroot]
  · cases hparent : Path.parent? snapshot.path with
    | none =>
      unfold goUp
      simp [hcurrent, hbackend, hroot, hparent]
    | some above =>
      have habove : Path.IsAbsolute above :=
        (h.liesIn.parent hparent hroot).isAbsolute h.root (Path.ne_empty_of_parent? hparent)
      simp [goUp_of_parent hcurrent hbackend h.normal hroot hparent habove, hroot]

end GoingUp

/-- Nothing keeps a first navigation from opening what it asks for. -/
theorem step_navigate_start (status : Option StatusCache) (store : StateStore) (backend : Backend)
    (path : String) (rootChange : Bool) :
    (start status store).step (.navigate backend path rootChange) =
      (start status store).openAt backend (target backend path) := by
  simp [step, navigateTo, isShowing, start]

/-- After a first navigation into the root of a backend, what is on show lies in the root of the
backend that is active, whatever is browsed and replayed and however the listings return, and going
up is refused only at that root or where there is nothing above. -/
theorem browsing_stays_in_root (status : Option StatusCache) (store : StateStore)
    (backend : Backend) (path : String) (rootChange : Bool) (later : List Input)
    (hroot : Path.IsAbsolute backend.root.path) (habsolute : Path.IsAbsolute path)
    (hinside : (Path.relativeTo? backend.root.path path).isSome = true)
    (hlater : ∀ input ∈ later, input.IsConfined) :
    let session := (start status store).run (.navigate backend path rootChange :: later)
    ∃ snapshot, session.current = some snapshot ∧ session.backend = some snapshot.backend ∧
      (Path.relativeTo? snapshot.backend.root.path snapshot.path).isSome = true ∧
      (session.goUp.1 = false ↔
        Path.normalize snapshot.path = Path.normalize snapshot.backend.root.path ∨
          Path.parent? snapshot.path = none) := by
  intro session
  have hinputs : ∀ input ∈ Input.navigate backend path rootChange :: later, input.IsConfined :=
    List.forall_mem_cons.mpr ⟨⟨hroot, habsolute, hinside⟩, hlater⟩
  have htimeline : Timeline session := (Timeline.start status store).run _
  have hconfined : IsConfined session :=
    (IsConfined.start status store).run (Timeline.start status store) hinputs
  have hopened : session.generation ≠ 0 := by
    have hle := generation_le_run ((start status store).openAt backend (target backend path)) later
    rw [openAt_generation, ← step_navigate_start status store backend path rootChange] at hle
    exact Nat.ne_of_gt hle
  obtain ⟨snapshot, hcurrent⟩ : ∃ snapshot, session.current = some snapshot :=
    Option.ne_none_iff_exists'.mp (mt htimeline.unopened hopened)
  clear_value session
  have hheld := hconfined snapshot hcurrent
  have hbackend := (htimeline.current snapshot hcurrent).2
  have hinside := (Path.isUnder_iff_liesIn hheld.isAbsolute).mpr hheld.liesIn
  exact ⟨snapshot, hcurrent, hbackend, hinside, goUp_eq_false_iff hcurrent hbackend hheld⟩

/-- A root that is written with two separators in a row. -/
def archive : Backend := { disk with root := { disk.root with path := "/a//b/" } }

/-- From a directory in the root it is one step up to the root, and no further. -/
theorem browsing_stays_in_root_archive :
    let session := (start none (.holding none)).run
      [.navigate archive "/a//b/c/" true, .goUp, .goUp]
    session.current.map Snapshot.path = some "/a//b" ∧ session.goUp.1 = false := by
  intro session
  have hlater : ∀ input ∈ [Input.goUp, .goUp], input.IsConfined := by simp [Input.IsConfined]
  have hshown : session.current = some (Snapshot.loading archive "/a//b" 2) := by
    with_unfolding_all rfl
  obtain ⟨snapshot, hcurrent, -, -, hrefused⟩ := browsing_stays_in_root none (.holding none)
    archive "/a//b/c/" true [.goUp, .goUp] (by decide) (by decide) (by decide +kernel) hlater
  cases hshown.symm.trans hcurrent
  exact ⟨congrArg (Option.map Snapshot.path) hshown, hrefused.mpr (Or.inl (by decide +kernel))⟩

end Session

end DirectoryBrowser
