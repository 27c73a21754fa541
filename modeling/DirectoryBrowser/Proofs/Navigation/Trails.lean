import DirectoryBrowser.Proofs.Components
import DirectoryBrowser.Proofs.Navigation.Confinement

/-!
# The trail and the way up

The trail is laid from the root down, by the components that lead to the path on
show; going up takes off one name after the other. Both come to the same paths:
the crumb with a number has the first so many names below the root, and so has the
path that is left when the others have been taken off. A replay that is under way
when going up begins can lead back to the root only from the root.
-/

namespace DirectoryBrowser

open DirectoryBrowser.Path

namespace Breadcrumb

variable {title root path : String} {below : List (List Char)}

@[simp] theorem map_label_extend (base : String) (below : List (List Char)) :
    (extend base below).map label = below.map String.ofList := by
  induction below generalizing base with
  | nil => rfl
  | cons name below ih => simp [extend, ih]

theorem isChain_extend (title base : String) (below : List (List Char)) :
    (⟨title, base⟩ :: extend base below).IsChain fun before crumb ↦
      crumb.path = join before.path crumb.label := by
  induction below generalizing title base with
  | nil => exact List.IsChain.singleton _
  | cons name below ih => exact List.isChain_cons_cons.mpr ⟨rfl, ih _ _⟩

/-- The crumb with a number has so many names below the base. -/
theorem path_getElem?_extend (title : String) (above : List String) {number : Nat}
    (hnumber : number ≤ below.length) :
    (⟨title, ofNames above⟩ :: extend (ofNames above) below)[number]?.map Breadcrumb.path =
      some (ofNames (((below.take number).map String.ofList).reverse ++ above)) := by
  induction number generalizing title above below with
  | zero => rfl
  | succ number ih =>
    cases below with
    | nil => exact absurd hnumber (Nat.not_succ_le_zero number)
    | cons name below =>
      have hnext := ih (String.ofList name) (String.ofList name :: above)
        (Nat.le_of_succ_le_succ hnumber)
      rw [List.take_succ_cons, List.map_cons, List.reverse_cons, List.append_assoc]
      exact hnext

theorem trail_of_isCanonical (title : String) (hroot : IsCanonical root) (hpath : IsCanonical path)
    (hbelow : componentsOf path.toList = componentsOf root.toList ++ below) :
    trail title root path = ⟨title, root⟩ :: extend root below := by
  obtain ⟨relative, hrelative, hcomponents⟩ := hroot.exists_relativeTo? hpath hbelow
  simp [trail, hroot.normalize, hpath.normalize, hrelative, hcomponents]

theorem map_label_trail (title : String) (hroot : IsCanonical root) (hpath : IsCanonical path)
    (hbelow : componentsOf path.toList = componentsOf root.toList ++ below) :
    (trail title root path).map label = title :: below.map String.ofList := by
  rw [trail_of_isCanonical title hroot hpath hbelow, List.map_cons, map_label_extend]

theorem length_trail (title : String) (hroot : IsCanonical root) (hpath : IsCanonical path)
    (hbelow : componentsOf path.toList = componentsOf root.toList ++ below) :
    (trail title root path).length = below.length + 1 := by
  simpa using congrArg List.length (map_label_trail title hroot hpath hbelow)

theorem path_getElem?_trail (title : String) (hroot : IsCanonical root) (hpath : IsCanonical path)
    (hbelow : componentsOf path.toList = componentsOf root.toList ++ below) {number : Nat}
    (hnumber : number ≤ below.length) :
    (trail title root path)[number]?.map Breadcrumb.path =
      some (ofNames (((below.take number).map String.ofList).reverse ++ namesOf root)) := by
  have hcrumb := path_getElem?_extend title (namesOf root) hnumber
  rwa [ofNames_namesOf hroot, ← trail_of_isCanonical title hroot hpath hbelow] at hcrumb

/-- The trail ends where it is meant to lead. -/
theorem path_getLast?_trail (title : String) (hroot : IsCanonical root) (hpath : IsCanonical path)
    (hbelow : componentsOf path.toList = componentsOf root.toList ++ below) :
    (trail title root path).getLast?.map Breadcrumb.path = some path := by
  rw [List.getLast?_eq_getElem?, length_trail title hroot hpath hbelow, Nat.add_sub_cancel,
    path_getElem?_trail title hroot hpath hbelow le_rfl, List.take_length,
    ← namesOf_of_append hbelow, ofNames_namesOf hpath]

theorem trail_of_not_prefix (hroot : IsCanonical root) (hpath : IsCanonical path)
    (houtside : ¬ componentsOf root.toList <+: componentsOf path.toList) :
    trail title root path = [⟨title, root⟩] := by
  have hnone : relativeTo? root path = none := by
    rw [← Option.not_isSome_iff_eq_none]
    exact mt (hroot.isUnder_iff hpath).mp houtside
  simp [trail, hroot.normalize, hpath.normalize, hnone]

/-- A component that only begins like the root does not lie in it. -/
example : trail "site" "/data" "/data2" = [⟨"site", "/data"⟩] := by decide +kernel

end Breadcrumb

namespace Session

variable {session next : Session} {input : Input} {backend : Backend} {above names rest : List String}

/-- What is on show lies below the root by some names, the last of which comes first. -/
structure Stands (session : Session) (backend : Backend) (above names : List String) : Prop where
  root : backend.root.path = ofNames above
  isName : ∀ name ∈ names ++ above, IsName name
  place : session.place? = some (backend, ofNames (names ++ above))

/-- No replay that is under way leads away from what is on show. -/
structure Climbed (session : Session) (backend : Backend) (above names : List String) : Prop
    extends Stands session backend above names where
  settled : session.restoring = none ∨ names = []

namespace Stands

theorem isName_above (h : Stands session backend above names) : ∀ name ∈ above, IsName name :=
  (List.forall_mem_append.mp h.isName).2

theorem of_sublist (h : Stands session backend above names) (hrest : rest.Sublist names)
    (hplace : next.place? = some (backend, ofNames (rest ++ above))) :
    Stands next backend above rest where
  root := h.root
  isName := fun name hname ↦ h.isName name ((hrest.append_right above).subset hname)
  place := hplace

theorem exists_current (h : Stands session backend above names) (htimeline : Timeline session) :
    ∃ snapshot, session.current = some snapshot ∧ session.backend = some snapshot.backend ∧
      snapshot.backend = backend ∧ snapshot.path = ofNames (names ++ above) := by
  obtain ⟨snapshot, hcurrent, hsnapshot⟩ := Option.map_eq_some_iff.mp h.place
  obtain ⟨hbackend, hpath⟩ := Prod.mk.inj hsnapshot
  exact ⟨snapshot, hcurrent, (htimeline.current snapshot hcurrent).2, hbackend, hpath⟩

/-- At the root going up is refused. Elsewhere it takes off the last name. -/
theorem goUp (h : Stands session backend above names) (htimeline : Timeline session) :
    (session.goUp.1 = true ↔ 0 < names.length) ∧
      Climbed session.goUp.2 backend above names.tail := by
  obtain ⟨snapshot, hcurrent, hactive, rfl, hpath⟩ := h.exists_current htimeline
  cases names with
  | nil =>
    rw [goUp_of_root hcurrent hactive (by rw [hpath, h.root, List.nil_append])]
    exact ⟨by simp, h, Or.inr rfl⟩
  | cons name names =>
    have hnormal : normalize snapshot.path = snapshot.path := by
      rw [hpath, normalize_ofNames h.isName]
    have helsewhere : normalize snapshot.path ≠ normalize snapshot.backend.root.path := by
      rw [hnormal, hpath, h.root, normalize_ofNames h.isName_above, ne_eq,
        ofNames_inj h.isName h.isName_above]
      intro heq
      have hlength := congrArg List.length heq
      simp at hlength
      omega
    have hparent : parent? snapshot.path = some (ofNames (names ++ above)) := by
      rw [hpath]
      exact (sits_ofNames h.isName).parent
    have hrest : ∀ other ∈ names ++ above, IsName other := (List.forall_mem_cons.mp h.isName).2
    rw [goUp_of_parent hcurrent hactive hnormal helsewhere hparent (isAbsolute_ofNames _),
      normalize_ofNames hrest]
    exact ⟨by simp, h.of_sublist (List.sublist_cons_self name names) rfl, Or.inl rfl⟩

end Stands

namespace Climbed

theorem unprompted (h : Climbed session backend above names)
    (hstep : Unprompted session input next) : Climbed next backend above names := by
  have hstands (hplace : next.place? = session.place?) : Stands next backend above names :=
    h.of_sublist (List.Sublist.refl names) (hplace.trans h.place)
  cases hstep with
  | quiet hview =>
    have hrestoring : next.restoring = session.restoring := congrArg View.restoring hview
    exact ⟨hstands (place?_of_current (congrArg View.current hview)), hrestoring ▸ h.settled⟩
  | loaded load children _ hawaiting hnext =>
    exact ⟨hstands ((place?_of_showing hnext).trans (place?_of_awaiting hawaiting).symm),
      Or.inl (congrArg View.restoring hnext)⟩
  | reopened load error _ _ hawaiting hnext =>
    -- The replay can only be one that began at the root, to which it retreats.
    have hreplaying : session.restoring = some load.generation := congrArg View.restoring hawaiting
    obtain rfl : names = [] := h.settled.resolve_left (hreplaying ▸ Option.some_ne_none _)
    obtain ⟨rfl, -⟩ :=
      Prod.mk.inj (Option.some.inj ((place?_of_awaiting hawaiting).symm.trans h.place))
    have hretreat : load.retreat.path = ofNames above := by
      unfold Load.retreat
      rw [h.root, target_of_isAbsolute load.backend (isAbsolute_ofNames above),
        normalize_ofNames h.isName_above]
    refine ⟨h.of_sublist (List.Sublist.refl []) ((place?_of_awaiting hnext).trans ?_), Or.inr rfl⟩
    rw [hretreat]
    rfl
  | failed load error _ _ hawaiting _ hnext =>
    exact ⟨hstands ((place?_of_showing hnext).trans (place?_of_awaiting hawaiting).symm),
      Or.inl (congrArg View.restoring hnext)⟩

/-- Each call takes off one name, whatever returns in between. -/
theorem run (h : Climbed session backend above names) (htimeline : Timeline session)
    {inputs : List Input} (hinputs : ∀ input ∈ inputs, input = .goUp ∨ input.isCall = false) :
    Climbed (session.run inputs) backend above (names.drop (inputs.countP Input.isCall)) := by
  induction inputs generalizing session names with
  | nil => exact h
  | cons input inputs ih =>
    obtain ⟨hinput, hrest⟩ := List.forall_mem_cons.mp hinputs
    have hnext := htimeline.step input
    rcases hinput with rfl | hcall
    · have hrun := ih (h.goUp htimeline).2 hnext hrest
      rwa [List.drop_tail, ← List.countP_cons_of_pos (a := .goUp) rfl] at hrun
    · rw [List.countP_cons_of_neg (by simp [hcall])]
      exact ih (h.unprompted (step_unprompted htimeline hcall)) hnext hrest

end Climbed

/-- From the first call on nothing leads away any more. -/
theorem Stands.run_goUp (h : Stands session backend above names) (htimeline : Timeline session)
    {later : List Input} (hlater : ∀ input ∈ later, input = .goUp ∨ input.isCall = false) :
    Climbed (session.run (.goUp :: later)) backend above
      (names.drop (later.countP Input.isCall + 1)) := by
  have hrun := (h.goUp htimeline).2.run (htimeline.step .goUp) hlater
  rwa [List.drop_tail] at hrun

/-- A canonical path in a canonical root is below it by the components that come after. -/
theorem stands_of_isCanonical {snapshot : Snapshot} {below : List (List Char)}
    (hcurrent : session.current = some snapshot) (hroot : IsCanonical snapshot.backend.root.path)
    (hpath : IsCanonical snapshot.path) (hbelow : componentsOf snapshot.path.toList =
      componentsOf snapshot.backend.root.path.toList ++ below) :
    Stands session snapshot.backend (namesOf snapshot.backend.root.path)
      (below.map String.ofList).reverse where
  root := (ofNames_namesOf hroot).symm
  isName := by
    rw [← namesOf_of_append hbelow]
    exact isName_namesOf snapshot.path
  place := by
    rw [← namesOf_of_append hbelow, ofNames_namesOf hpath]
    unfold place?
    rw [hcurrent]
    rfl

/-- At or below its root a session shows one crumb for the root and one for each component below
it, each of them reached from the one before by its label, up to the path on show. Going up shows
the same paths from the last to the first, whatever returns in between, and is refused only at the
first. Outside the root there is the crumb of the root alone. -/
theorem trail_is_way_up (status : Option StatusCache) (store : StateStore) (inputs : List Input)
    (snapshot : Snapshot) (hcurrent : ((start status store).run inputs).current = some snapshot)
    (hroot : IsCanonical snapshot.backend.root.path) (hpath : IsCanonical snapshot.path) :
    let session := (start status store).run inputs
    let root := snapshot.backend.root
    (∀ below, componentsOf snapshot.path.toList = componentsOf root.path.toList ++ below →
      session.breadcrumbs.length = below.length + 1 ∧
      session.breadcrumbs.head? = some ⟨root.title, root.path⟩ ∧
      session.breadcrumbs.map Breadcrumb.label = root.title :: below.map String.ofList ∧
      (session.breadcrumbs.IsChain fun before crumb ↦
        crumb.path = join before.path crumb.label) ∧
      session.breadcrumbs.getLast?.map Breadcrumb.path = some snapshot.path ∧
      (session.goUp.1 = true ↔ 0 < below.length) ∧
      ∀ later, (∀ input ∈ later, input = .goUp ∨ input.isCall = false) →
        let ups := later.countP Input.isCall + 1
        let next := session.run (.goUp :: later)
        next.place? = session.breadcrumbs[below.length - ups]?.map
          (fun crumb ↦ (snapshot.backend, crumb.path)) ∧
        (next.goUp.1 = true ↔ ups < below.length)) ∧
    (¬ componentsOf root.path.toList <+: componentsOf snapshot.path.toList →
      session.breadcrumbs = [⟨root.title, root.path⟩]) := by
  intro session root
  have htimeline : Timeline session := (Timeline.start status store).run inputs
  have hcrumbs : session.breadcrumbs = Breadcrumb.trail root.title root.path snapshot.path := by
    unfold breadcrumbs
    rw [hcurrent]
  rw [hcrumbs]
  refine ⟨fun below hbelow ↦ ?_, Breadcrumb.trail_of_not_prefix hroot hpath⟩
  have hlaid := Breadcrumb.trail_of_isCanonical root.title hroot hpath hbelow
  have hhead : (Breadcrumb.trail root.title root.path snapshot.path).head? =
      some ⟨root.title, root.path⟩ := congrArg List.head? hlaid
  have hchain := Breadcrumb.isChain_extend root.title root.path below
  rw [← hlaid] at hchain
  have hstands := stands_of_isCanonical hcurrent hroot hpath hbelow
  have hup := (hstands.goUp htimeline).1
  rw [List.length_reverse, List.length_map] at hup
  refine ⟨Breadcrumb.length_trail root.title hroot hpath hbelow, hhead,
    Breadcrumb.map_label_trail root.title hroot hpath hbelow, hchain,
    Breadcrumb.path_getLast?_trail root.title hroot hpath hbelow, hup, fun later hlater ↦ ?_⟩
  have hclimbed := hstands.run_goUp htimeline hlater
  have hnext := (hclimbed.goUp (htimeline.run _)).1
  dsimp only
  generalize later.countP Input.isCall + 1 = ups at hclimbed hnext ⊢
  constructor
  · have hcrumb := Breadcrumb.path_getElem?_trail root.title hroot hpath hbelow
      (Nat.sub_le below.length ups)
    have hplace := hclimbed.place
    rw [List.drop_reverse, List.length_map, ← List.map_take] at hplace
    calc (session.run (.goUp :: later)).place?
        = (some (ofNames (((below.take (below.length - ups)).map String.ofList).reverse ++
            namesOf root.path))).map (Prod.mk snapshot.backend) := hplace
      _ = (Breadcrumb.trail root.title root.path snapshot.path)[below.length - ups]?.map
            fun crumb ↦ (snapshot.backend, crumb.path) := by
          rw [← hcrumb, Option.map_map]
          rfl
  · rw [hnext, List.length_drop, List.length_reverse, List.length_map, Nat.sub_pos_iff_lt]

/-- A root that is not the root of all. -/
def share : Backend := { disk with root := { disk.root with path := "/data" } }

/-- Two components below the root there are three crumbs. After two steps up the root is on show,
whatever comes of the listings, and a third step is refused. -/
theorem trail_is_way_up_share :
    let session := (start none (.holding none)).run [.navigate share "/data/a/b" true]
    let next := session.run [.goUp, .respond 2 (.error (.notFound "/data/a")), .goUp, .process]
    session.breadcrumbs.map Breadcrumb.label = [share.root.title, "a", "b"] ∧
      next.place?.map Prod.snd = some "/data" ∧ ¬ next.goUp.1 = true := by
  intro session next
  have hshown : session.current = some (Snapshot.loading share "/data/a/b" 1) := by
    with_unfolding_all rfl
  have hlater : ∀ input ∈ [Input.respond 2 (.error (.notFound "/data/a")), .goUp, .process],
      input = .goUp ∨ input.isCall = false := by simp [Input.isCall]
  obtain ⟨hinside, -⟩ := trail_is_way_up none (.holding none) [.navigate share "/data/a/b" true]
    (Snapshot.loading share "/data/a/b" 1) hshown (by decide) (by decide)
  obtain ⟨-, -, hlabels, -, -, -, hups⟩ := hinside [['a'], ['b']] (by decide +kernel)
  obtain ⟨hplace, hgoUp⟩ := hups _ hlater
  refine ⟨hlabels, ?_, mt hgoUp.mp (by decide)⟩
  rw [hplace]
  with_unfolding_all rfl

end Session

end DirectoryBrowser
