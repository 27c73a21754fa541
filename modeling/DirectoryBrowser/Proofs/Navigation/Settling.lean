import DirectoryBrowser.Proofs.Navigation.Responses
import Mathlib.Algebra.Ring.Nat

/-!
# Every session can come to rest

Whatever a session waits for, it is idle once every listing has returned, every
status request has gone through its stages, and every update has been handled.
Handling an update may send for a listing, in the replay of a saved location,
or submit requests, but each listing that is handled and each replay that is
given up brings the session closer to rest. `turns` counts these, and `chores`
the work that is left in between.
-/

namespace DirectoryBrowser

/-- Steps that a request still needs, with the handling of its update. -/
def JobStage.chores : JobStage → Nat
  | .queued => 5
  | .computed _ => 4
  | .cached _ => 3
  | .posted => 1

namespace Session

variable {session next : Session}

def turns (session : Session) : Nat :=
  session.outstanding.length + session.restoring.toList.length

def chores (session : Session) : Nat :=
  2 * session.loads.length + (session.jobs.map fun job ↦ job.stage.chores).sum +
    session.inbox.length

/-- A step after which there is less to do. -/
def IsProgress (session next : Session) : Prop :=
  next.turns < session.turns ∨ next.turns = session.turns ∧ next.chores < session.chores

theorem wellFounded_isProgress :
    WellFounded fun next session : Session ↦ IsProgress session next := by
  refine Subrelation.wf ?_ (InvImage.wf (fun session : Session ↦ (session.turns, session.chores))
    (Prod.lex Nat.lt_wfRel Nat.lt_wfRel).wf)
  intro next session hprogress
  exact Prod.lex_def.mpr hprogress

theorem handled_progress {update : Update} {later : List Update}
    (hinbox : session.inbox = update :: later)
    (hhandled : Handled { session with inbox := later } update next) :
    IsProgress session next := by
  have houtstanding : session.outstanding.length =
      ({ session with inbox := later } : Session).outstanding.length +
        update.load?.toList.length := by
    unfold outstanding
    rw [hinbox, List.filterMap_cons]
    cases update.load? with
    | none => rfl
    | some load => simp [Nat.add_assoc]
  cases hhandled with
  | stale load =>
    left
    unfold turns
    rw [houtstanding]
    exact Nat.add_lt_add_right (Nat.lt_succ_self _) _
  | cancelled load =>
    left
    unfold turns
    rw [houtstanding]
    exact Nat.add_lt_add_right (Nat.lt_succ_self _) _
  | loaded load children backend =>
    obtain ⟨selected, store, status, waiting, jobs, pendingStatus, asides, hshown, -⟩ :=
      showLoaded_eq { session with
        inbox := later
        loadsInFlight := session.loadsInFlight - 1
        loadToken := none } backend load children
    left
    unfold turns
    rw [hshown, houtstanding]
    exact Nat.lt_of_lt_of_le (Nat.lt_succ_self _) (Nat.le_add_right _ _)
  | failed load =>
    left
    unfold turns
    rw [houtstanding]
    exact Nat.lt_of_lt_of_le (Nat.lt_succ_self _) (Nat.le_add_right _ _)
  | reopened load error backend hbackend hgeneration hcancelled hrestoring =>
    -- The listing that is handled makes room for the new one, and the replay is over.
    have hreplay : session.restoring = some load.generation := hrestoring
    left
    unfold turns
    rw [houtstanding, hreplay]
    simp [outstanding, openAt, publish, emit, cancelLoad, Update.load?]
    omega
  | status path key generation changed =>
    obtain ⟨waiting, news, hstatus, -⟩ :=
      handleStatus_eq { session with inbox := later } path key generation changed
    right
    unfold turns chores
    rw [hstatus, houtstanding, hinbox]
    exact ⟨rfl, Nat.lt_succ_self _⟩

theorem respond_progress (h : Timeline session) {load : Load}
    (result : Except BackendError (List Entry)) (hload : load ∈ session.loads) :
    session.response? (.respond load.generation result) = some (load, result) ∧
      IsProgress session (session.respond load.generation result) := by
  have hdistinct := h.distinct
  unfold outstanding at hdistinct
  rw [List.map_append, List.nodup_append] at hdistinct
  have hfind : session.loads.find? (fun other ↦ other.generation == load.generation) =
      some load := by
    cases hfound : session.loads.find? (fun other ↦ other.generation == load.generation) with
    | none => exact absurd (beq_self_eq_true _) (List.find?_eq_none.mp hfound load hload)
    | some other =>
      have hsame : other.generation = load.generation := by simpa using List.find?_some hfound
      rw [List.inj_on_of_nodup_map hdistinct.1 (List.mem_of_find?_eq_some hfound) hload hsame]
  have hlength := (Passed.perm_cons_filter hdistinct.1 hload).length_eq
  have hsame := (Passed.responded h result hfind).perm.length_eq
  rw [List.length_cons] at hlength
  rw [List.append_nil, List.nil_append] at hsame
  refine ⟨by simp [response?, hfind], Or.inr ?_⟩
  unfold respond
  rw [hfind]
  unfold turns chores
  rw [← hsame, hlength, List.length_append, List.length_singleton]
  refine ⟨rfl, ?_⟩
  dsimp only
  omega

/-- A request that has come to the front can always go on. -/
theorem job_progress {job : StatusJob} {jobs : List StatusJob}
    (hjobs : session.jobs = job :: jobs) :
    IsProgress session (session.computeStatus 0 none) ∨
      IsProgress session (session.advanceStatus 0) := by
  have hjob : session.jobs[0]? = some job := by
    rw [hjobs]
    rfl
  cases hstage : job.stage with
  | queued =>
    left; right
    unfold computeStatus turns chores
    simp only [hjob, hstage, if_true]
    rw [hjobs]
    simp only [List.set_cons_zero, List.map_cons, List.sum_cons, hstage, JobStage.chores]
    refine ⟨rfl, ?_⟩
    omega
  | computed record =>
    right; right
    unfold advanceStatus turns chores
    simp only [hjob, hstage]
    rw [hjobs]
    simp only [List.set_cons_zero, List.map_cons, List.sum_cons, hstage, JobStage.chores]
    refine ⟨rfl, ?_⟩
    omega
  | cached changed =>
    right; right
    unfold advanceStatus turns chores
    simp only [hjob, hstage]
    rw [hjobs]
    simp only [List.set_cons_zero, List.map_cons, List.sum_cons, hstage, JobStage.chores,
      List.length_append, List.length_singleton]
    refine ⟨by simp [outstanding, Update.load?], ?_⟩
    omega
  | posted =>
    right; right
    unfold advanceStatus turns chores
    simp only [hjob, hstage]
    rw [hjobs]
    simp only [List.eraseIdx_cons_zero, List.map_cons, List.sum_cons, hstage, JobStage.chores]
    refine ⟨rfl, ?_⟩
    omega

/-- Background work that the rest of the world owes to a session, its listings returning as told. -/
structure Owed (answer : Load → Except BackendError (List Entry)) (session : Session)
    (input : Input) : Prop where
  isCall : input.isCall = false
  response : ∀ response, session.response? input = some response →
    response.2 = answer response.1

theorem exists_progress (h : Timeline session) (htallied : Tallied session)
    (answer : Load → Except BackendError (List Entry)) (hbusy : session.isIdle = false) :
    ∃ input, Owed answer session input ∧ IsProgress session (session.step input) := by
  cases hinbox : session.inbox with
  | cons update later =>
    have hnext : session.step .process =
        ({ session with inbox := later } : Session).handle update := by
      simp only [Session.step, handleNext, hinbox]
    refine ⟨.process, ⟨rfl, by simp [response?]⟩, ?_⟩
    rw [hnext]
    exact handled_progress hinbox (handle_handled _ update)
  | nil =>
    cases hloads : session.loads with
    | cons load loads =>
      have hload : load ∈ session.loads := hloads ▸ List.mem_cons_self ..
      obtain ⟨hresponse, hprogress⟩ := respond_progress h (answer load) hload
      refine ⟨.respond load.generation (answer load), ⟨rfl, ?_⟩, hprogress⟩
      intro response hsome
      cases hresponse.symm.trans hsome
      rfl
    | nil =>
      cases hjobs : session.jobs with
      | cons job jobs =>
        rcases job_progress hjobs with hcompute | hadvance
        · exact ⟨.compute 0 none, ⟨rfl, by simp [response?]⟩, hcompute⟩
        · exact ⟨.advance 0, ⟨rfl, by simp [response?]⟩, hadvance⟩
      | nil =>
        have hidle : session.isIdle = true := by
          unfold isIdle
          rw [htallied.loads, htallied.requests, outstanding, hinbox, hloads, hjobs]
          rfl
        rw [hidle] at hbusy
        cases hbusy

/-- Without any further call, and whatever its listings bring, a session can become idle. -/
theorem exists_idle (h : Timeline session) (htallied : Tallied session)
    (answer : Load → Except BackendError (List Entry)) :
    ∃ later, (∀ input ∈ later, input.isCall = false) ∧
      (∀ response ∈ session.responses later, response.2 = answer response.1) ∧
      (session.run later).isIdle = true := by
  induction session using wellFounded_isProgress.induction with
  | _ session ih =>
  by_cases hidle : session.isIdle = true
  · exact ⟨[], by simp, by simp [responses], hidle⟩
  · obtain ⟨input, howed, hprogress⟩ :=
      exists_progress h htallied answer (Bool.not_eq_true _ ▸ hidle)
    obtain ⟨later, hcalls, hresponses, hend⟩ :=
      ih _ hprogress (h.step input) (htallied.step h input)
    refine ⟨input :: later, List.forall_mem_cons.mpr ⟨howed.isCall, hcalls⟩, ?_, hend⟩
    intro response hresponse
    rcases List.mem_append.mp hresponse with hfirst | hrest
    · exact howed.response response (Option.mem_toList.mp hfirst)
    · exact hresponses response hrest

/-- A session whose listings never claim to be cancelled becomes idle in an honest run. -/
theorem exists_honest_idle (h : Timeline session) (htallied : Tallied session)
    (answer : Load → Except BackendError (List Entry))
    (hanswer : ∀ load error, answer load = .error error → error.isCancelled = false) :
    ∃ later, (∀ input ∈ later, input.isCall = false) ∧
      (∀ response ∈ session.responses later, response.2 = answer response.1) ∧
      session.honest later = true ∧ (session.run later).isIdle = true := by
  obtain ⟨later, hcalls, hresponses, hidle⟩ := exists_idle h htallied answer
  refine ⟨later, hcalls, hresponses, honest_of_responses fun load error hmem ↦ ?_, hidle⟩
  exact hanswer load error (hresponses _ hmem).symm

end Session

end DirectoryBrowser
