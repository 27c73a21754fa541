import DirectoryBrowser.Proofs.Navigation.Cancelling
import DirectoryBrowser.Proofs.Navigation.Replaying

/-!
# Requests and what they cost

A request of the user is refused or accepted. Refusing one is doing nothing at
all. Accepting one is sending for one listing, whichever request it is, except
that the selection of an entry sends for none. Nothing but a request, or the
retreat from a replay that has failed, ever sends for a listing, so that as many
have been sent for as there have been generations.
-/

namespace DirectoryBrowser.Session

variable {session next : Session} {load : Load}

/-- The answer to a request, with the session that it leaves. What happens in the background is
asked for by nobody. -/
def request? (session : Session) : Input → Option (Bool × Session)
  | .navigate backend path rootChange => some (session.navigateTo backend path rootChange)
  | .refresh => some session.refresh
  | .goUp => some session.goUp
  | .enter name => some (session.enter name)
  | .select name => some (session.selectEntry name)
  | .restore backends state => some (session.restore backends state)
  | .restoreSaved backends => some (session.restoreSaved backends)
  | .respond .. | .compute .. | .advance .. | .process => none

theorem step_of_request? {input : Input} {accepted : Bool}
    (h : session.request? input = some (accepted, next)) : session.step input = next := by
  cases input with
  | respond | compute | advance | process => cases h
  | _ => exact congrArg Prod.snd (Option.some.inj h)

/-- One listing is sent for, in a new generation, and its placeholder is on show. -/
structure Sends (session : Session) (load : Load) (next : Session) : Prop where
  fresh : load.generation = session.generation + 1
  generation : next.generation = load.generation
  backend : next.backend = some load.backend
  current : next.current = some load.placeholder
  loadToken : next.loadToken = some load.generation
  loads : next.loads = session.loads ++ [load]
  trace : next.trace = session.trace ++ load.opening

theorem sends_openAt (session : Session) (backend : Backend) (path : String) :
    Sends session ⟨session.generation + 1, path, backend⟩ (session.openAt backend path) where
  fresh := rfl
  generation := rfl
  backend := rfl
  current := rfl
  loadToken := rfl
  loads := rfl
  trace := openAt_trace session backend path

namespace Sends

theorem dispatched (h : Sends session load next) : next.dispatched = session.dispatched ++ [load] :=
  dispatched_append h.trace rfl

theorem distrust (h : Sends session load next) (backend : Backend) (path : String) :
    Sends session load (next.distrust backend path) := by
  obtain ⟨status, hdistrust⟩ := next.distrust_eq backend path
  rw [hdistrust]
  exact ⟨h.fresh, h.generation, h.backend, h.current, h.loadToken, h.loads, h.trace⟩

/-- What is remembered of a selection and of a replay is not part of what is sent for. -/
theorem remember (h : Sends session load next) (restoring : Option Nat)
    (selected : Option String) : Sends session load { next with restoring, selected } :=
  ⟨h.fresh, h.generation, h.backend, h.current, h.loadToken, h.loads, h.trace⟩

end Sends

/-- The answer to a request that may send for a listing. -/
inductive Ruled (session : Session) : Bool × Session → Prop
  | refused : Ruled session (false, session)
  | sent (load : Load) (next : Session) (hsends : Sends session load next) :
      Ruled session (true, next)

theorem navigateTo_ruled (session : Session) (backend : Backend) (path : String)
    (rootChange : Bool) : Ruled session (session.navigateTo backend path rootChange) := by
  unfold navigateTo
  dsimp only
  split
  · exact .refused
  · exact .sent _ _ (sends_openAt session backend _)

theorem refresh_ruled (session : Session) : Ruled session session.refresh := by
  unfold refresh
  split
  case h_1 backend snapshot _ _ =>
    have hsends := (sends_openAt session backend (target backend snapshot.path)).remember none
      session.selected
    exact .sent _ _ (hsends.distrust backend snapshot.path)
  case h_2 => exact .refused

theorem goUp_ruled (session : Session) : Ruled session session.goUp := by
  unfold goUp
  split
  · split
    · exact .refused
    · split
      · exact navigateTo_ruled session _ _ false
      · exact .refused
  · exact .refused

theorem enter_ruled (session : Session) (name : String) : Ruled session (session.enter name) := by
  unfold enter
  split
  · split
    · split
      · exact navigateTo_ruled session _ _ false
      · exact .refused
    · exact .refused
  · exact .refused

theorem restore_ruled (session : Session) (backends : List Backend) (state : NavState) :
    Ruled session (session.restore backends state) := by
  cases hchosen : chosen? backends state with
  | none =>
    rw [eq_nil_of_chosen? hchosen, restore_nil]
    exact .refused
  | some backend =>
    by_cases h : Replayable backend state
    · rw [session.restore_of_replayable hchosen h]
      exact .sent _ _ ((sends_openAt session backend _).remember _ _)
    · rw [session.restore_of_not_replayable hchosen h]
      exact .sent _ _ (sends_openAt session backend _)

theorem restoreSaved_ruled (session : Session) (backends : List Backend) :
    Ruled session (session.restoreSaved backends) := by
  unfold restoreSaved
  split
  · exact restore_ruled session backends _
  · exact .refused

/-- A selection is refused, or it is noted and perhaps saved. -/
theorem selectEntry_eq (session : Session) (name : String) :
    session.selectEntry name = (false, session) ∨
      ∃ store saves, (∀ event ∈ saves, ∃ state, event = .saved state) ∧
        session.selectEntry name = (true, { session with
          selected := some name, store, trace := session.trace ++ saves }) := by
  unfold selectEntry
  split
  · obtain ⟨store, saves, hpersist, hsaves⟩ := persist_eq { session with selected := some name }
    rw [hpersist]
    exact Or.inr ⟨store, saves, hsaves, rfl⟩
  · exact Or.inl rfl

theorem request?_ruled {input : Input} {answer : Bool × Session}
    (h : session.request? input = some answer) (hselect : ∀ name, input ≠ .select name) :
    Ruled session answer := by
  cases input with
  | navigate backend path rootChange =>
    exact Option.some.inj h ▸ navigateTo_ruled session backend path rootChange
  | refresh => exact Option.some.inj h ▸ refresh_ruled session
  | goUp => exact Option.some.inj h ▸ goUp_ruled session
  | enter name => exact Option.some.inj h ▸ enter_ruled session name
  | select name => exact absurd rfl (hselect name)
  | restore backends state => exact Option.some.inj h ▸ restore_ruled session backends state
  | restoreSaved backends => exact Option.some.inj h ▸ restoreSaved_ruled session backends
  | respond | compute | advance | process => cases h

/-- Whatever state a session has come to, a request that it refuses leaves it in that state, and one
that it accepts sends for one listing in a new generation, unless it selects an entry, which sends
for none. As many listings have been sent for as there are generations. -/
theorem requests_refused_or_sent (status : Option StatusCache) (store : StateStore)
    (inputs : List Input) :
    let session := (start status store).run inputs
    (∀ input accepted next, session.request? input = some (accepted, next) →
      session.step input = next ∧ (accepted = false → next = session) ∧
      (accepted = true → (∀ name, input ≠ .select name) →
        ∃ load, Sends session load next ∧ next.dispatched = session.dispatched ++ [load]) ∧
      (∀ name, input = .select name →
        next.generation = session.generation ∧ next.dispatched = session.dispatched)) ∧
    session.dispatched.length = session.generation := by
  intro session
  have hheld := Held.run status store inputs
  refine ⟨fun input accepted next hrequest ↦ ⟨step_of_request? hrequest, ?_⟩, ?_⟩
  · by_cases hselect : ∃ name, input = .select name
    · obtain ⟨name, rfl⟩ := hselect
      have hanswer : session.selectEntry name = (accepted, next) := Option.some.inj hrequest
      rcases session.selectEntry_eq name with hrefused | ⟨store, saves, hsaves, hnoted⟩
      · obtain ⟨rfl, rfl⟩ := Prod.mk.inj (hanswer.symm.trans hrefused)
        exact ⟨fun _ ↦ rfl, fun haccepted ↦ Bool.noConfusion haccepted, fun _ _ ↦ ⟨rfl, rfl⟩⟩
      · obtain ⟨rfl, rfl⟩ := Prod.mk.inj (hanswer.symm.trans hnoted)
        have hnone : saves.filterMap Event.dispatched? = [] :=
          filterMap_dispatched_of_isAside fun event hevent ↦ Or.inl (hsaves event hevent)
        exact ⟨fun hrefused ↦ Bool.noConfusion hrefused, fun _ hother ↦ absurd rfl (hother name),
          fun _ _ ↦ ⟨rfl, by simp [dispatched, hnone]⟩⟩
    · have hother : ∀ name, input ≠ .select name := not_exists.mp hselect
      cases request?_ruled hrequest hother with
      | refused =>
        exact ⟨fun _ ↦ rfl, fun haccepted ↦ Bool.noConfusion haccepted,
          fun name hname ↦ absurd hname (hother name)⟩
      | sent load _ hsends =>
        exact ⟨fun hrefused ↦ Bool.noConfusion hrefused, fun _ _ ↦ ⟨load, hsends, hsends.dispatched⟩,
          fun name hname ↦ absurd hname (hother name)⟩
  · have hlength := congrArg List.length hheld.dispatched
    rwa [List.length_map, List.length_range'] at hlength

end DirectoryBrowser.Session
