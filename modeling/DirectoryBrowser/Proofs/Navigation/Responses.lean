import DirectoryBrowser.Proofs.Navigation.Idleness
import Mathlib.Data.List.Nodup

/-!
# The responses of a run

A listing returns at most once, whatever its result. `responses` notes what a
run brings back and in which order. Only what has been noted is ever found in
the inbox, and so on show.
-/

namespace DirectoryBrowser.Session

/-- A listing that has returned, with its result. -/
abbrev Response : Type := Load × Except BackendError (List Entry)

variable {session next : Session}

/-- What a step brings back. Listings that are not under way bring nothing. -/
def response? (session : Session) : Input → Option Response
  | .respond generation result =>
    (session.loads.find? fun load ↦ load.generation == generation).map (·, result)
  | _ => none

def responses (session : Session) : List Input → List Response
  | [] => []
  | input :: inputs => (session.response? input).toList ++ (session.step input).responses inputs

theorem responses_append (session : Session) (earlier later : List Input) :
    session.responses (earlier ++ later) =
      session.responses earlier ++ (session.run earlier).responses later := by
  induction earlier generalizing session with
  | nil => rfl
  | cons input earlier ih =>
    simp only [List.cons_append, responses, ih, List.append_assoc]
    rfl

theorem response?_of_ne (session : Session) {input : Input}
    (h : ∀ generation result, input ≠ .respond generation result) :
    session.response? input = none := by
  cases input with
  | respond generation result => exact absurd rfl (h generation result)
  | _ => rfl

theorem dispatched_subset_run (htimeline : Timeline session) (inputs : List Input) :
    session.dispatched ⊆ (session.run inputs).dispatched := by
  induction inputs generalizing session with
  | nil => exact List.Subset.refl _
  | cons input inputs ih =>
    obtain ⟨news, hpassed⟩ := Passed.step htimeline input
    have hstep : session.dispatched ⊆ (session.step input).dispatched := by
      rw [hpassed.dispatched]
      exact List.subset_append_left _ _
    exact List.Subset.trans hstep (ih (htimeline.step input))

/-- Nothing comes back that has not been sent for. -/
theorem dispatched_of_mem_responses (htimeline : Timeline session)
    (hsent : session.outstanding ⊆ session.dispatched) {inputs : List Input} {response : Response}
    (hmem : response ∈ session.responses inputs) :
    response.1 ∈ (session.run inputs).dispatched := by
  induction inputs generalizing session with
  | nil => cases hmem
  | cons input inputs ih =>
    rcases List.mem_append.mp hmem with hfirst | hrest
    · have hload : response.1 ∈ session.loads := by
        have hresponse := Option.mem_toList.mp hfirst
        cases input with
        | respond generation result =>
          obtain ⟨load, hfind, rfl⟩ := Option.map_eq_some_iff.mp hresponse
          exact List.mem_of_find?_eq_some hfind
        | _ => cases hresponse
      exact dispatched_subset_run htimeline (input :: inputs)
        (hsent (List.mem_append_left _ hload))
    · obtain ⟨news, hpassed⟩ := Passed.step htimeline input
      exact ih (htimeline.step input) (hpassed.outstanding_subset hsent) hrest

/-- What has returned is under way no more, and nothing else is in the inbox. -/
structure Noted (responses : List Response) (session : Session) : Prop where
  posted : ∀ load result, .listed load result ∈ session.inbox → (load, result) ∈ responses
  past : ∀ response ∈ responses, response.1.generation ≤ session.generation
  apart : ∀ response ∈ responses, ∀ load ∈ session.loads,
    response.1.generation ≠ load.generation
  once : (responses.map fun response ↦ response.1.generation).Nodup

namespace Noted

variable {noted : List Response}

theorem start (status : Option StatusCache) (store : StateStore) :
    Noted [] (.start status store) where
  posted := by simp [Session.start]
  past := by simp
  apart := by simp
  once := List.nodup_nil

theorem same (h : Noted noted session) (hgeneration : next.generation = session.generation)
    (hloads : next.loads = session.loads)
    (hinbox : ∀ load result, .listed load result ∈ next.inbox →
      .listed load result ∈ session.inbox) : Noted noted next where
  posted load result hlisted := h.posted load result (hinbox load result hlisted)
  past := by
    rw [hgeneration]
    exact h.past
  apart := by
    rw [hloads]
    exact h.apart
  once := h.once

/-- A new load has a generation of its own. -/
theorem opened (h : Noted noted session) (backend : Backend) (path : String) :
    Noted noted (session.openAt backend path) where
  posted := h.posted
  past response hresponse := (h.past response hresponse).trans (Nat.le_succ _)
  apart := by
    intro response hresponse load hload
    rcases List.mem_append.mp hload with hold | hnew
    · exact h.apart response hresponse load hold
    · rw [List.mem_singleton.mp hnew]
      exact Nat.ne_of_lt (Nat.lt_succ_of_le (h.past response hresponse))
  once := h.once

theorem called {input : Input} (h : Noted noted session) (hcalled : Called session input next) :
    Noted noted next := by
  cases hcalled with
  | stayed => exact h
  | opened _ backend path => exact (h.opened backend path).same rfl rfl fun _ _ ↦ id
  | refreshed backend snapshot path =>
    obtain ⟨status, hdistrust⟩ := distrust_eq
      { session.openAt backend path with selected := session.selected } backend snapshot.path
    rw [hdistrust]
    exact (h.opened backend path).same rfl rfl fun _ _ ↦ id
  | selected name =>
    obtain ⟨store, saves, hpersist, -⟩ := persist_eq { session with selected := some name }
    rw [hpersist]
    exact h.same rfl rfl fun _ _ ↦ id

theorem responded {generation : Nat} {load : Load} (h : Noted noted session)
    (htimeline : Timeline session) (result : Except BackendError (List Entry))
    (hload : session.loads.find? (fun load ↦ load.generation == generation) = some load) :
    Noted (noted ++ [(load, result)]) { session with
      loads := session.loads.filter (fun load ↦ load.generation != generation)
      inbox := session.inbox ++ [.listed load result] } := by
  have hmem : load ∈ session.loads := List.mem_of_find?_eq_some hload
  obtain rfl : load.generation = generation := by simpa using List.find?_some hload
  constructor
  case posted =>
    intro other otherResult hlisted
    rw [List.mem_append] at hlisted ⊢
    rcases hlisted with hold | hnew
    · exact Or.inl (h.posted other otherResult hold)
    · cases List.mem_singleton.mp hnew
      exact Or.inr (List.mem_singleton_self _)
  case past =>
    intro response hresponse
    rcases List.mem_append.mp hresponse with hold | hnew
    · exact h.past response hold
    · rw [List.mem_singleton.mp hnew]
      exact (htimeline.expected load (List.mem_append_left _ hmem)).1
  case apart =>
    intro response hresponse other hother
    obtain ⟨hloads, hother⟩ := List.mem_filter.mp hother
    rcases List.mem_append.mp hresponse with hold | hnew
    · exact h.apart response hold other hloads
    · rw [List.mem_singleton.mp hnew]
      exact Ne.symm (bne_iff_ne.mp hother)
  case once =>
    rw [List.map_append, List.nodup_append]
    refine ⟨h.once, List.nodup_singleton _, ?_⟩
    intro older holder newer hnewer
    obtain ⟨response, hresponse, rfl⟩ := List.mem_map.mp holder
    rw [List.mem_singleton.mp hnewer]
    exact h.apart response hresponse load hmem

theorem worked (h : Noted noted session) (hworked : Worked session next) : Noted noted next := by
  obtain ⟨status, jobs, pendingStatus, news, rfl, hnews⟩ := hworked.eq
  refine h.same rfl rfl fun load result hlisted ↦ ?_
  rcases List.mem_append.mp hlisted with hold | hnew
  · exact hold
  · obtain ⟨path, key, generation, changed, hupdate⟩ := hnews _ hnew
    cases hupdate

theorem handled {update : Update} {later : List Update} (h : Noted noted session)
    (hinbox : session.inbox = update :: later)
    (hhandled : Handled { session with inbox := later } update next) : Noted noted next := by
  have hlater : ∀ load result, .listed load result ∈ later →
      .listed load result ∈ session.inbox := by
    intro load result hlisted
    rw [hinbox]
    exact List.mem_cons_of_mem _ hlisted
  cases hhandled with
  | stale => exact h.same rfl rfl hlater
  | cancelled => exact h.same rfl rfl hlater
  | loaded load children backend =>
    obtain ⟨selected, store, status, waiting, jobs, pendingStatus, asides, hshown, -⟩ :=
      showLoaded_eq { session with
        inbox := later
        loadsInFlight := session.loadsInFlight - 1
        loadToken := none } backend load children
    rw [hshown]
    exact h.same rfl rfl hlater
  | reopened load error backend =>
    have hclosed : Noted noted { session with
        inbox := later
        loadsInFlight := session.loadsInFlight - 1
        loadToken := none
        restoring := none } := h.same rfl rfl hlater
    exact hclosed.opened _ _
  | failed => exact h.same rfl rfl hlater
  | status path key generation changed =>
    obtain ⟨waiting, news, hstatus, -⟩ :=
      handleStatus_eq { session with inbox := later } path key generation changed
    rw [hstatus]
    exact h.same rfl rfl hlater

theorem step (h : Noted noted session) (htimeline : Timeline session) (input : Input) :
    Noted (noted ++ (session.response? input).toList) (session.step input) := by
  have hsame (hnone : session.response? input = none) :
      noted ++ (session.response? input).toList = noted := by
    rw [hnone, Option.toList_none, List.append_nil]
  by_cases hrespond : ∃ generation result, input = .respond generation result
  · obtain ⟨generation, result, rfl⟩ := hrespond
    simp only [Session.step, respond]
    split
    case h_1 hnone =>
      rw [hsame (by simp [response?, hnone])]
      exact h
    case h_2 load hload =>
      have hresponse : session.response? (.respond generation result) = some (load, result) := by
        simp [response?, hload]
      rw [hresponse]
      exact h.responded htimeline result hload
  · rw [hsame (session.response?_of_ne fun generation result heq ↦
      hrespond ⟨generation, result, heq⟩)]
    have hmoved := session.step_moved input
    generalize session.step input = next at hmoved ⊢
    cases hmoved with
    | called hcalled => exact h.called hcalled
    | responded generation result => exact absurd ⟨generation, result, rfl⟩ hrespond
    | worked _ hworked => exact h.worked hworked
    | handled update later hinbox hhandled => exact h.handled hinbox hhandled

theorem run (h : Noted noted session) (htimeline : Timeline session) (inputs : List Input) :
    Noted (noted ++ session.responses inputs) (session.run inputs) := by
  induction inputs generalizing session noted with
  | nil =>
    rw [responses, List.append_nil]
    exact h
  | cons input inputs ih =>
    have hrest := ih (h.step htimeline input) (htimeline.step input)
    rwa [List.append_assoc] at hrest

theorem of_run (status : Option StatusCache) (store : StateStore) (inputs : List Input) :
    Noted ((Session.start status store).responses inputs)
      ((Session.start status store).run inputs) :=
  (Noted.start status store).run (Timeline.start status store) inputs

/-- A listing returns once. -/
theorem result_unique (h : Noted noted session) {load : Load}
    {first second : Except BackendError (List Entry)} (hfirst : (load, first) ∈ noted)
    (hsecond : (load, second) ∈ noted) : first = second := by
  have hsame := List.inj_on_of_nodup_map h.once hfirst hsecond rfl
  exact (Prod.mk.inj hsame).2

end Noted

/-! ### Runs whose listings are honest -/

/-- A listing reports that it was cancelled only if its token was. -/
def Response.isHonest (session : Session) (response : Response) : Bool :=
  match response.2 with
  | .ok _ => true
  | .error error => !error.isCancelled || session.isCancelled response.1.generation

def honest (session : Session) : List Input → Bool
  | [] => true
  | input :: inputs =>
    (session.response? input).all (Response.isHonest session) &&
      (session.step input).honest inputs

/-- An input that brings nothing back may say what it likes. -/
theorem isHonest_or_step_eq {input : Input}
    (h : (session.response? input).all (Response.isHonest session) = true) :
    input.isHonest session = true ∨ session.step input = session := by
  by_cases hrespond : ∃ generation result, input = .respond generation result
  · obtain ⟨generation, result, rfl⟩ := hrespond
    cases hload : session.loads.find? (fun load ↦ load.generation == generation) with
    | none =>
      right
      simp only [Session.step, respond, hload]
    | some load =>
      obtain rfl : load.generation = generation := by simpa using List.find?_some hload
      left
      cases result with
      | ok children => rfl
      | error error => simpa [response?, hload, Response.isHonest, Input.isHonest] using h
  · left
    unfold Input.isHonest
    split
    case h_1 generation error => exact absurd ⟨_, _, rfl⟩ hrespond
    case h_2 => rfl

theorem Awaiting.run (h : Awaiting session) (htimeline : Timeline session) {inputs : List Input}
    (hhonest : session.honest inputs = true) : Awaiting (session.run inputs) := by
  induction inputs generalizing session with
  | nil => exact h
  | cons input inputs ih =>
    obtain ⟨hfirst, hrest⟩ := (Bool.and_eq_true _ _).mp hhonest
    have hnext : Awaiting (session.step input) := by
      rcases isHonest_or_step_eq hfirst with hhonest | hsame
      · exact h.step htimeline hhonest
      · rwa [hsame]
    exact ih hnext (htimeline.step input) hrest

theorem honest_of_responses {inputs : List Input}
    (h : ∀ load error, (load, .error error) ∈ session.responses inputs →
      error.isCancelled = false) : session.honest inputs = true := by
  induction inputs generalizing session with
  | nil => rfl
  | cons input inputs ih =>
    refine (Bool.and_eq_true _ _).mpr ⟨?_, ih fun load error hmem ↦
      h load error (List.mem_append_right _ hmem)⟩
    rw [Option.all_eq_true]
    rintro ⟨load, result⟩ hresponse
    unfold Response.isHonest
    cases result with
    | ok children => rfl
    | error error =>
      have hmem : (load, .error error) ∈ (session.response? input).toList :=
        Option.mem_toList.mpr hresponse
      dsimp only
      rw [h load error (List.mem_append_left _ hmem)]
      rfl

theorem outstanding_of_isIdle (h : Tallied session) (hidle : session.isIdle = true) :
    session.outstanding = [] := by
  unfold isIdle at hidle
  simp only [Bool.and_eq_true, beq_iff_eq] at hidle
  exact List.length_eq_zero_iff.mp (h.loads.symm.trans hidle.1.1)

/-- A run whose listings are honest does not come to rest on a placeholder. -/
theorem not_loading_of_isIdle (status : Option StatusCache) (store : StateStore)
    {inputs : List Input} (hhonest : (start status store).honest inputs = true)
    (hidle : ((start status store).run inputs).isIdle = true) {snapshot : Snapshot}
    (hcurrent : ((start status store).run inputs).current = some snapshot) :
    snapshot.state ≠ .loading := by
  have htimeline : Timeline (start status store) := .start status store
  have htallied := (Tallied.start status store).run htimeline inputs
  exact ((Awaiting.start status store).run htimeline hhonest).not_loading
    (outstanding_of_isIdle htallied hidle) hcurrent

end DirectoryBrowser.Session
