import DirectoryBrowser.Proofs.Navigation.Badges

/-!
# Handling all updates in one pass

A caller that polls the session has everything handled that is in the inbox,
while a run takes one update after the other. No handler reads the inbox or
posts to it, so the two come to the same, and what is proved of runs holds for
a caller that polls.
-/

namespace DirectoryBrowser.Session

variable (session : Session) (inbox : List Update)

theorem persist_inbox :
    ({ session with inbox } : Session).persist = { session.persist with inbox } := by
  unfold persist
  dsimp only
  split
  · split
    · split
      · rfl
      · rfl
    · rfl
  · rfl

theorem submit_inbox (snapshot : Snapshot) (entry : Entry) (key : String) :
    submit snapshot { session with inbox } entry key =
      { submit snapshot session entry key with inbox } := by
  unfold submit
  dsimp only
  split
  · rfl
  · split
    · rfl
    · rfl

theorem requestBadge_inbox (snapshot : Snapshot) (entry : Entry) :
    requestBadge snapshot { session with inbox } entry =
      ({ (requestBadge snapshot session entry).1 with inbox },
        (requestBadge snapshot session entry).2) := by
  unfold requestBadge
  dsimp only
  split
  · split
    · rfl
    · rfl
    · rw [submit_inbox]
  · rfl

theorem requestBadges_inbox (snapshot : Snapshot) (entries : List Entry) :
    requestBadges snapshot { session with inbox } entries =
      ({ (requestBadges snapshot session entries).1 with inbox },
        (requestBadges snapshot session entries).2) := by
  induction entries generalizing session with
  | nil => rfl
  | cons entry entries ih =>
    simp only [requestBadges, requestBadge_inbox, ih]

theorem showLoaded_inbox (backend : Backend) (load : Load) (children : List Entry) :
    ({ session with inbox } : Session).showLoaded backend load children =
      { session.showLoaded backend load children with inbox } := by
  have hshown (snapshot : Snapshot) : ({ session with inbox } : Session).onShow snapshot =
      { session.onShow snapshot with inbox } := rfl
  unfold showLoaded requestStatus
  simp only [hshown, persist_inbox, requestBadges_inbox, announce_eq]

theorem handleStatus_inbox (path key : String) (generation : Nat) (changed : Bool) :
    ({ session with inbox } : Session).handleStatus path key generation changed =
      { session.handleStatus path key generation changed with inbox } := by
  have hnews (text : String) : ({ session with inbox } : Session).isNews key generation changed
      text = session.isNews key generation changed text := rfl
  rcases session.status.eq_none_or_eq_some with hnone | ⟨cache, hstatus⟩
  · unfold handleStatus
    simp only [hnone]
  · have hstatus' : ({ session with inbox } : Session).status = some cache := hstatus
    rw [handleStatus_of_some hstatus, handleStatus_of_some hstatus', hnews]

/-- What a session does about an update has nothing to do with the updates behind it. -/
theorem handle_inbox (update : Update) :
    ({ session with inbox } : Session).handle update = { session.handle update with inbox } := by
  cases update with
  | status path key generation changed => exact session.handleStatus_inbox inbox path key _ _
  | listed load result =>
    unfold handle handleListing
    dsimp only
    split
    case h_1 => rfl
    case h_2 backend _ =>
      split
      case isTrue => rfl
      case isFalse =>
        split
        case h_1 children =>
          exact showLoaded_inbox { session with
            loadsInFlight := session.loadsInFlight - 1
            loadToken := none } inbox backend load children
        case h_2 error =>
          split
          · rfl
          · split
            · rfl
            · rfl

theorem inbox_handle (update : Update) : (session.handle update).inbox = session.inbox := by
  have hsame : session.handle update = { session.handle update with inbox := session.inbox } :=
    session.handle_inbox session.inbox update
  rw [hsame]

/-- Handling all updates in one pass is the same as handling them one at a time. -/
theorem processUpdates_eq_run :
    session.processUpdates =
      (session.inbox.length, session.run (List.replicate session.inbox.length .process)) := by
  unfold processUpdates
  congr 1
  generalize hinbox : session.inbox = updates
  induction updates generalizing session with
  | nil =>
    have hempty : ({ session with inbox := [] } : Session) = session := by rw [← hinbox]
    exact hempty
  | cons update later ih =>
    have hstep : session.step .process = { session.handle update with inbox := later } := by
      rw [← handle_inbox]
      simp only [Session.step, handleNext, hinbox]
    calc (update :: later).foldl handle { session with inbox := [] }
      _ = later.foldl handle { session.handle update with inbox := [] } := by
        rw [List.foldl_cons, handle_inbox]
      _ = (session.step .process).run (List.replicate later.length .process) := by
        rw [← ih (session.step .process) (by rw [hstep]), hstep]
      _ = session.run (List.replicate (update :: later).length .process) := rfl

/-- Nothing is left to be handled, since no update leads to another. -/
theorem inbox_processUpdates : session.processUpdates.2.inbox = [] := by
  have hkept (updates : List Update) (session : Session) :
      (updates.foldl handle session).inbox = session.inbox := by
    induction updates generalizing session with
    | nil => rfl
    | cons update updates ih => exact (ih _).trans (session.inbox_handle update)
  exact hkept session.inbox { session with inbox := [] }

end DirectoryBrowser.Session
