import DirectoryBrowser.Proofs.Navigation.Badges

/-!
# The saved location

A session saves its location when a listing comes on show and when an entry of
it is selected, and at no other time. With a store that takes what it is
given, the store is therefore never behind what is on show. It outlasts
everything that shows no listing: a placeholder, a failure, a navigation that
is overtaken, and the replay of a location that turns out to be gone.
-/

namespace DirectoryBrowser.Session

/-- Location of the listing on show. -/
def location? (session : Session) : Option NavState :=
  match session.current with
  | some snapshot =>
    if snapshot.isLoaded then some (locationOf snapshot session.selected) else none
  | none => none

theorem location?_of_loaded {session : Session} {snapshot : Snapshot}
    (hcurrent : session.current = some snapshot) (hloaded : snapshot.state = .loaded) :
    session.location? = some (locationOf snapshot session.selected) := by
  unfold location?
  rw [hcurrent]
  exact if_pos (beq_iff_eq.mpr hloaded)

theorem location?_of_unloaded {session : Session} {snapshot : Snapshot}
    (hcurrent : session.current = some snapshot) (hloaded : snapshot.state ≠ .loaded) :
    session.location? = none := by
  unfold location?
  rw [hcurrent]
  exact if_neg fun h ↦ hloaded (beq_iff_eq.mp h)

/-- Saving writes down the location, if there is one. -/
theorem persist_of_holding {session : Session} {held : Option NavState}
    (hstore : session.store = .holding held) : ∃ trace,
      session.persist = { session with store := .holding (session.location?.or held), trace } := by
  unfold persist location?
  cases hcurrent : session.current with
  | none => exact ⟨session.trace, by simp [← hcurrent, ← hstore]⟩
  | some snapshot =>
    dsimp only
    split
    case isTrue =>
      rw [hstore]
      exact ⟨_, rfl⟩
    case isFalse => exact ⟨session.trace, by simp [← hcurrent, ← hstore]⟩

theorem child?_of_keepSelected {snapshot : Snapshot} {selected : Option String} {name : String}
    (h : keepSelected snapshot selected = some name) : (snapshot.child? name).isSome = true := by
  unfold keepSelected at h
  obtain ⟨-, hchild⟩ := Option.filter_eq_some_iff.mp h
  exact hchild

/-- The store holds `held`, which is the location of the listing on show if there is one, and the
entry that is selected is a child of that listing. -/
structure Mirrored (held : Option NavState) (session : Session) : Prop where
  store : session.store = .holding held
  location : ∀ location, session.location? = some location → held = some location
  named : ∀ snapshot name, session.current = some snapshot → snapshot.state = .loaded →
    session.selected = some name → (snapshot.child? name).isSome = true

namespace Mirrored

variable {held : Option NavState} {session next : Session}

theorem start (status : Option StatusCache) (content : Option NavState) :
    Mirrored content (.start status (.holding content)) where
  store := rfl
  location := by simp [location?, Session.start]
  named := by simp [Session.start]

theorem same (h : Mirrored held session) (hstore : next.store = session.store)
    (hcurrent : next.current = session.current) (hselected : next.selected = session.selected) :
    Mirrored (next.location?.or held) next := by
  have hlocation : next.location? = session.location? := by
    unfold location?
    rw [hcurrent, hselected]
  have hheld : next.location?.or held = held := by
    rw [hlocation]
    cases hshown : session.location? with
    | none => rfl
    | some location => exact (h.location location hshown).symm
  rw [hheld]
  refine ⟨hstore.trans h.store, ?_, ?_⟩
  · rw [hlocation]
    exact h.location
  · rw [hcurrent, hselected]
    exact h.named

/-- What shows no listing leaves the store as it is. -/
theorem unloaded (h : Mirrored held session) {snapshot : Snapshot}
    (hstore : next.store = session.store) (hcurrent : next.current = some snapshot)
    (hstate : snapshot.state ≠ .loaded) : Mirrored (next.location?.or held) next := by
  rw [location?_of_unloaded hcurrent hstate]
  refine ⟨hstore.trans h.store, ?_, ?_⟩
  · rw [location?_of_unloaded hcurrent hstate]
    exact fun _ hlocation ↦ nomatch hlocation
  · intro other name hother hloaded
    cases hcurrent.symm.trans hother
    exact absurd hloaded hstate

/-- Saving brings the store up to date, whatever it held. -/
theorem persisted (hstore : session.store = .holding held)
    (hnamed : ∀ snapshot name, session.current = some snapshot → session.selected = some name →
      (snapshot.child? name).isSome = true) :
    Mirrored (session.persist.location?.or held) session.persist := by
  obtain ⟨trace, hpersist⟩ := persist_of_holding hstore
  have hlocation : session.persist.location? = session.location? := by
    rw [hpersist]
    rfl
  rw [hlocation]
  refine ⟨by rw [hpersist], ?_, ?_⟩
  · intro location hshown
    rw [hlocation] at hshown
    rw [hshown]
    rfl
  · rw [hpersist]
    exact fun snapshot name hcurrent _ hselected ↦ hnamed snapshot name hcurrent hselected

theorem called {input : Input} (h : Mirrored held session) (hcalled : Called session input next) :
    Mirrored (next.location?.or held) next := by
  cases hcalled with
  | stayed => exact h.same rfl rfl rfl
  | opened _ backend path =>
    exact h.unloaded rfl (openAt_current session backend path) (by simp [Snapshot.loading])
  | refreshed backend snapshot path =>
    obtain ⟨status, hdistrust⟩ := distrust_eq
      { session.openAt backend path with selected := session.selected } backend snapshot.path
    rw [hdistrust]
    exact h.unloaded rfl (openAt_current session backend path) (by simp [Snapshot.loading])
  | selected name snapshot hcurrent hchild =>
    refine persisted h.store ?_
    intro other named hother hnamed
    cases hcurrent.symm.trans hother
    cases hnamed
    exact hchild

theorem loaded (hstore : session.store = .holding held) (backend : Backend) (load : Load)
    (children : List Entry) :
    Mirrored ((session.showLoaded backend load children).location?.or held)
      (session.showLoaded backend load children) := by
  unfold showLoaded
  generalize Snapshot.loaded backend load.path children load.generation = snapshot
  have hnamed : ∀ other name, (session.onShow snapshot).current = some other →
      (session.onShow snapshot).selected = some name → (other.child? name).isSome = true := by
    intro other name hother hname
    cases hother
    exact child?_of_keepSelected hname
  have hshown : Mirrored ((session.onShow snapshot).persist.location?.or held)
      (session.onShow snapshot).persist := persisted hstore hnamed
  obtain ⟨status, waiting, jobs, pendingStatus, news, hrequest, -⟩ :=
    (session.onShow snapshot).persist.requestStatus_eq snapshot
  rw [hrequest]
  exact ⟨hshown.store, hshown.location, hshown.named⟩

theorem handled (h : Mirrored held session) {update : Update}
    (hhandled : Handled session update next) : Mirrored (next.location?.or held) next := by
  cases hhandled with
  | stale => exact h.same rfl rfl rfl
  | cancelled => exact h.same rfl rfl rfl
  | loaded load children backend =>
    have hanswered : ({ session with
        loadsInFlight := session.loadsInFlight - 1
        loadToken := none } : Session).store = .holding held := h.store
    exact loaded hanswered backend load children
  | reopened load error backend =>
    exact h.unloaded rfl (openAt_current _ backend _) (by simp [Snapshot.loading])
  | failed load error backend => exact h.unloaded rfl rfl (by simp [Snapshot.failed])
  | status path key generation changed =>
    obtain ⟨waiting, news, hstatus, -⟩ := session.handleStatus_eq path key generation changed
    rw [hstatus]
    exact h.same rfl rfl rfl

theorem step (h : Mirrored held session) (input : Input) :
    Mirrored ((session.step input).location?.or held) (session.step input) := by
  have hmoved := session.step_moved input
  generalize session.step input = next at hmoved ⊢
  cases hmoved with
  | called hcalled => exact h.called hcalled
  | responded => exact h.same rfl rfl rfl
  | worked _ hworked =>
    obtain ⟨status, jobs, pendingStatus, news, rfl, -⟩ := hworked.eq
    exact h.same rfl rfl rfl
  | handled update later hinbox hhandled =>
    have hpopped : Mirrored held { session with inbox := later } := ⟨h.store, h.location, h.named⟩
    exact hpopped.handled hhandled

theorem run (h : Mirrored held session) (inputs : List Input) :
    ∃ held, Mirrored held (session.run inputs) := by
  induction inputs generalizing session held with
  | nil => exact ⟨held, h⟩
  | cons input inputs ih => exact ih (h.step input)

/-- For as long as no listing is on show, the store keeps what it holds. -/
theorem store_run (h : Mirrored held session) {inputs : List Input}
    (hnone : ∀ middle, middle ≠ [] → middle <+: inputs → (session.run middle).location? = none) :
    (session.run inputs).store = session.store := by
  induction inputs generalizing session with
  | nil => rfl
  | cons input inputs ih =>
    have hfirst : (session.step input).location? = none :=
      hnone [input] (List.cons_ne_nil _ _) ⟨inputs, rfl⟩
    have hnext := h.step input
    rw [hfirst, Option.none_or] at hnext
    have hrest : ((session.step input).run inputs).store = (session.step input).store := by
      refine ih hnext ?_
      rintro middle - ⟨rest, rfl⟩
      exact hnone (input :: middle) (List.cons_ne_nil _ _) ⟨rest, rfl⟩
    exact hrest.trans (hnext.store.trans h.store.symm)

end Mirrored

/-- While a listing is on show, a store that takes what it is given holds its location and the
entry that is selected, which is one of its children. Until the next listing comes on show, it holds
what it held last. -/
theorem store_mirrors_location (status : Option StatusCache) (content : Option NavState)
    (inputs : List Input) :
    let session := (start status (.holding content)).run inputs
    (∀ snapshot, session.current = some snapshot → snapshot.state = .loaded →
      session.store = .holding (some
        { rootUrl := snapshot.backend.root.key
          directory := snapshot.path
          treeDirectory := snapshot.path
          entry := session.selected }) ∧
      ∀ name, session.selected = some name → (snapshot.child? name).isSome = true) ∧
    ∀ earlier later, inputs = earlier ++ later →
      (∀ middle, middle ≠ [] → middle <+: later → ∀ snapshot,
        ((start status (.holding content)).run (earlier ++ middle)).current = some snapshot →
          snapshot.state ≠ .loaded) →
      session.store = ((start status (.holding content)).run earlier).store := by
  intro session
  obtain ⟨held, h⟩ : ∃ held, Mirrored held session := (Mirrored.start status content).run inputs
  constructor
  · intro snapshot hcurrent hloaded
    have hheld := h.location _ (location?_of_loaded hcurrent hloaded)
    refine ⟨h.store.trans (congrArg StateStore.holding hheld), ?_⟩
    exact fun name hselected ↦ h.named snapshot name hcurrent hloaded hselected
  · intro earlier later hinputs hunloaded
    obtain ⟨before, hbefore⟩ := (Mirrored.start status content).run earlier
    have hsplit : session = ((start status (.holding content)).run earlier).run later := by
      rw [← run_append, ← hinputs]
    rw [hsplit]
    refine hbefore.store_run ?_
    intro middle hmiddle hprefix
    rw [← run_append]
    cases hcurrent : ((start status (.holding content)).run (earlier ++ middle)).current with
    | none => simp [location?, hcurrent]
    | some snapshot =>
      exact location?_of_unloaded hcurrent (hunloaded middle hmiddle hprefix snapshot hcurrent)

end DirectoryBrowser.Session
