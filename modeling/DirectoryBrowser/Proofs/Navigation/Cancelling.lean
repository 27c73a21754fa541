import DirectoryBrowser.Proofs.Navigation.Counts

/-!
# Loads that are given up

A navigation cancels the load that it overtakes and no other, since the token
of a load is dropped as soon as its response is handled. `Overtaking` says
what a step does to the tokens. Which loads are cancelled in the end depends
on the past of a run: on whether a response had been handled when the next
navigation came.
-/

namespace DirectoryBrowser.Session

/-- Listings whose responses a run handles, in their order. -/
def handledLoads (session : Session) : List Input → List Load
  | [] => []
  | input :: inputs =>
    (session.handled? input).toList ++ (session.step input).handledLoads inputs

theorem handledLoads_concat (session : Session) (inputs : List Input) (input : Input) :
    session.handledLoads (inputs ++ [input]) =
      session.handledLoads inputs ++ ((session.run inputs).handled? input).toList := by
  induction inputs generalizing session with
  | nil => simp [handledLoads, run]
  | cons first inputs ih =>
    rw [List.cons_append, handledLoads, handledLoads, ih, List.append_assoc]
    rfl

/-- Whether a run has handled the response of a generation. -/
def Handles (session : Session) (inputs : List Input) (generation : Nat) : Prop :=
  ∃ load ∈ session.handledLoads inputs, load.generation = generation

/-! ### What a step does to the tokens -/

/-- The part of a session that the tokens of its loads are about. -/
structure Tokens where
  generation : Nat
  held : Option Nat
  cancelled : List Nat
  dispatched : List Load

namespace Tokens

def answered (tokens : Tokens) : Tokens := { tokens with held := none }

def opened (tokens : Tokens) (path : String) (backend : Backend) : Tokens where
  generation := tokens.generation + 1
  held := some (tokens.generation + 1)
  cancelled := tokens.held.toList ++ tokens.cancelled
  dispatched := tokens.dispatched ++ [⟨tokens.generation + 1, path, backend⟩]

end Tokens

def tokens (session : Session) : Tokens where
  generation := session.generation
  held := session.loadToken
  cancelled := session.cancelled
  dispatched := session.dispatched

theorem tokens_eq {session next : Session} (hgeneration : next.generation = session.generation)
    (htoken : next.loadToken = session.loadToken) (hcancelled : next.cancelled = session.cancelled)
    (hdispatched : next.dispatched = session.dispatched) : next.tokens = session.tokens := by
  unfold tokens
  rw [hgeneration, htoken, hcancelled, hdispatched]

theorem tokens_answered {session next : Session} (hgeneration : next.generation = session.generation)
    (htoken : next.loadToken = none) (hcancelled : next.cancelled = session.cancelled)
    (hdispatched : next.dispatched = session.dispatched) :
    next.tokens = session.tokens.answered := by
  unfold tokens Tokens.answered
  rw [hgeneration, htoken, hcancelled, hdispatched]

theorem tokens_openAt (session : Session) (backend : Backend) (path : String) :
    (session.openAt backend path).tokens = session.tokens.opened path backend := by
  have hdispatched := dispatched_append (openAt_trace session backend path) rfl
  unfold tokens Tokens.opened
  rw [hdispatched]
  rfl

/-- A navigation overtakes the load that is waited for, unless it takes the place of one that has
just been answered. -/
inductive Overtaking (session : Session) (input : Input) (next : Session) : Prop
  | waiting (htokens : next.tokens = session.tokens)
      (hother : ∀ load, session.handled? input = some load → load.generation ≠ session.generation)
  | answered (load : Load) (htokens : next.tokens = session.tokens.answered)
      (hhandled : session.handled? input = some load)
      (hgeneration : load.generation = session.generation)
  | overtaken (path : String) (backend : Backend)
      (htokens : next.tokens = session.tokens.opened path backend)
      (hnone : session.handled? input = none)
  | replaced (load : Load) (path : String) (backend : Backend)
      (htokens : next.tokens = session.tokens.answered.opened path backend)
      (hhandled : session.handled? input = some load)
      (hgeneration : load.generation = session.generation)

variable {session next : Session} {input : Input}

theorem handled?_of_ne_process (h : input ≠ .process) : session.handled? input = none := by
  cases input with
  | process => exact absurd rfl h
  | _ => rfl

theorem generation_ne_of_handled? (hnone : session.handled? input = none) (load : Load)
    (hhandled : session.handled? input = some load) : load.generation ≠ session.generation := by
  cases hnone.symm.trans hhandled

theorem called_overtaking (hcalled : Called session input next) (hinput : input ≠ .process) :
    Overtaking session input next := by
  have hnone : session.handled? input = none := handled?_of_ne_process hinput
  have hkept (htokens : next.tokens = session.tokens) : Overtaking session input next :=
    .waiting htokens (generation_ne_of_handled? hnone)
  cases hcalled with
  | stayed => exact hkept rfl
  | opened _ backend path => exact .overtaken path backend (tokens_openAt session backend path) hnone
  | refreshed backend snapshot path =>
    obtain ⟨status, hdistrust⟩ := distrust_eq
      { session.openAt backend path with selected := session.selected } backend snapshot.path
    refine .overtaken path backend ?_ hnone
    rw [hdistrust]
    exact tokens_openAt session backend path
  | selected name =>
    obtain ⟨store, saves, hpersist, hsaves⟩ := persist_eq { session with selected := some name }
    refine hkept ?_
    rw [hpersist]
    have hdispatched := filterMap_dispatched_of_isAside fun event hevent ↦
      Or.inl (hsaves event hevent)
    exact tokens_eq rfl rfl rfl (by simp [dispatched, hdispatched])

theorem handled_overtaking {update : Update} {later : List Update} (htimeline : Timeline session)
    (hinbox : session.inbox = update :: later)
    (hhandled : Handled { session with inbox := later } update next) :
    Overtaking session .process next := by
  have hnow : session.handled? .process = update.load? := by
    unfold handled?
    rw [hinbox]
    rfl
  cases hhandled with
  | stale load result hstale =>
    refine .waiting rfl fun other hother ↦ ?_
    obtain rfl : load = other := Option.some.inj (hnow.symm.trans hother)
    rcases hstale with hnone | hne
    · intro hgeneration
      -- A listing of the present generation finds a backend, since something is on show.
      have hcurrent := htimeline.current_of_inbox hinbox hgeneration
      cases hnone.symm.trans (htimeline.current _ hcurrent).2
    · exact hne
  | cancelled load error hgeneration => exact .answered load rfl hnow hgeneration
  | loaded load children backend hbackend hgeneration =>
    obtain ⟨selected, store, status, waiting, jobs, pendingStatus, asides, hshown, hasides⟩ :=
      showLoaded_eq { session with
        inbox := later
        loadsInFlight := session.loadsInFlight - 1
        loadToken := none } backend load children
    have hdispatched := filterMap_dispatched_of_isAside hasides
    refine .answered load ?_ hnow hgeneration
    rw [hshown]
    refine tokens_answered rfl rfl rfl ?_
    simp only [dispatched, List.filterMap_append, List.filterMap_cons, Event.dispatched?,
      hdispatched, List.append_nil]
  | reopened load error backend hbackend hgeneration =>
    exact .replaced load _ backend (tokens_openAt _ backend _) hnow hgeneration
  | failed load error backend hbackend hgeneration =>
    refine .answered load (tokens_answered rfl rfl rfl ?_) hnow hgeneration
    simp [dispatched, Event.dispatched?, showFailed, publish, emit]
  | status path key generation changed =>
    obtain ⟨waiting, news, hstatus, hnews⟩ :=
      handleStatus_eq { session with inbox := later } path key generation changed
    have hdispatched := filterMap_dispatched_of_isAside fun event hevent ↦
      Or.inr ⟨path, hnews event hevent⟩
    refine .waiting ?_ (generation_ne_of_handled? hnow)
    rw [hstatus]
    simp [tokens, dispatched, hdispatched]

theorem step_overtaking (htimeline : Timeline session) (input : Input) :
    Overtaking session input (session.step input) := by
  by_cases hprocess : input = .process
  · subst hprocess
    cases hinbox : session.inbox with
    | nil =>
      have hsame : session.step .process = session := by
        simp only [step, handleNext, hinbox]
      rw [hsame]
      exact .waiting rfl fun load hload ↦ by simp [handled?, hinbox] at hload
    | cons update later =>
      have hnext : session.step .process =
          ({ session with inbox := later } : Session).handle update := by
        simp only [step, handleNext, hinbox]
      rw [hnext]
      exact handled_overtaking htimeline hinbox (handle_handled _ update)
  · have hnone : session.handled? input = none := handled?_of_ne_process hprocess
    have hmoved := session.step_moved input
    generalize session.step input = next at hmoved ⊢
    cases hmoved with
    | called hcalled => exact called_overtaking hcalled hprocess
    | responded => exact .waiting rfl (generation_ne_of_handled? hnone)
    | worked _ hworked =>
      obtain ⟨status, jobs, pendingStatus, news, rfl, -⟩ := hworked.eq
      exact .waiting rfl (generation_ne_of_handled? hnone)
    | handled => exact absurd rfl hprocess

/-! ### The token that is held -/

theorem handles_concat (session : Session) (inputs : List Input) (input : Input)
    (generation : Nat) :
    session.Handles (inputs ++ [input]) generation ↔ session.Handles inputs generation ∨
      ∃ load, (session.run inputs).handled? input = some load ∧ load.generation = generation := by
  simp [Handles, handledLoads_concat, or_and_right, exists_or]

theorem handled_le (htimeline : Timeline session) {load : Load}
    (hhandled : session.handled? input = some load) : load.generation ≤ session.generation := by
  cases input with
  | process =>
    obtain ⟨update, hhead, hload⟩ := Option.bind_eq_some_iff.mp hhandled
    have hinbox : load ∈ session.inbox.filterMap Update.load? :=
      List.mem_filterMap.mpr ⟨update, List.mem_of_head? hhead, hload⟩
    exact (htimeline.expected load (List.mem_append_right _ hinbox)).1
  | _ => cases hhandled

/-- The token that is held belongs to the present load, for as long as its response has not been
handled. -/
structure Held (tokens : Tokens) (handles : Nat → Prop) : Prop where
  held : ∀ generation, tokens.held = some generation ↔
    generation = tokens.generation ∧ 1 ≤ generation ∧ ¬ handles generation
  cancelled : ∀ generation ∈ tokens.cancelled, generation < tokens.generation
  handles : ∀ generation, handles generation → generation ≤ tokens.generation
  dispatched : tokens.dispatched.map Load.generation = List.range' 1 tokens.generation

namespace Held

variable {tokens : Tokens} {handles after : Nat → Prop}

theorem start (status : Option StatusCache) (store : StateStore) :
    Held (Session.start status store).tokens ((Session.start status store).Handles []) where
  held := by
    intro generation
    simp only [tokens, Session.start]
    simp
    omega
  cancelled := by simp [tokens, Session.start]
  handles := by simp [Handles, handledLoads]
  dispatched := by simp [tokens, Session.start, Session.dispatched]

theorem waiting (h : Held tokens handles)
    (hnow : after tokens.generation ↔ handles tokens.generation)
    (hle : ∀ generation, after generation → generation ≤ tokens.generation) :
    Held tokens after where
  held := by
    intro generation
    rw [h.held]
    constructor
    · rintro ⟨rfl, hpos, hnot⟩
      exact ⟨rfl, hpos, hnow.not.mpr hnot⟩
    · rintro ⟨rfl, hpos, hnot⟩
      exact ⟨rfl, hpos, hnow.not.mp hnot⟩
  cancelled := h.cancelled
  handles := hle
  dispatched := h.dispatched

theorem answered (h : Held tokens handles) (hnow : after tokens.generation)
    (hle : ∀ generation, after generation → generation ≤ tokens.generation) :
    Held tokens.answered after where
  held := by
    intro generation
    constructor
    · intro hnone
      cases hnone
    · rintro ⟨rfl, -, hnot⟩
      exact absurd hnow hnot
  cancelled := h.cancelled
  handles := hle
  dispatched := h.dispatched

theorem opened (h : Held tokens handles) (path : String) (backend : Backend) :
    Held (tokens.opened path backend) handles where
  held := by
    intro generation
    constructor
    · intro hsome
      obtain rfl : tokens.generation + 1 = generation := Option.some.inj hsome
      exact ⟨rfl, Nat.le_add_left 1 _, fun hhandles ↦ absurd (h.handles _ hhandles) (by omega)⟩
    · rintro ⟨rfl, -, -⟩
      rfl
  cancelled := by
    intro generation hcancelled
    rcases List.mem_append.mp hcancelled with hheld | hcancelled
    · rw [Option.mem_toList] at hheld
      exact Nat.lt_succ_of_le ((h.held generation).mp hheld).1.le
    · exact Nat.lt_succ_of_lt (h.cancelled generation hcancelled)
  handles := fun generation hhandles ↦ Nat.le_succ_of_le (h.handles generation hhandles)
  dispatched := by
    simp only [Tokens.opened, List.map_append, h.dispatched, List.map_cons, List.map_nil]
    rw [List.range'_1_concat, Nat.add_comm 1]

theorem step (h : Held session.tokens handles) (htimeline : Timeline session) (input : Input)
    (hafter : ∀ generation, after generation ↔ handles generation ∨
      ∃ load, session.handled? input = some load ∧ load.generation = generation) :
    Held (session.step input).tokens after := by
  have hle (generation : Nat) (hgeneration : after generation) :
      generation ≤ session.generation := by
    rcases (hafter generation).mp hgeneration with hbefore | ⟨load, hhandled, rfl⟩
    · exact h.handles generation hbefore
    · exact handled_le htimeline hhandled
  have hunhandled (hother : ∀ load, session.handled? input = some load →
      load.generation ≠ session.generation) :
      after session.generation ↔ handles session.generation := by
    rw [hafter, or_iff_left]
    rintro ⟨load, hhandled, hgeneration⟩
    exact hother load hhandled hgeneration
  have hanswered {load : Load} (hhandled : session.handled? input = some load)
      (hgeneration : load.generation = session.generation) : after session.generation :=
    (hafter _).mpr (Or.inr ⟨load, hhandled, hgeneration⟩)
  cases step_overtaking htimeline input with
  | waiting htokens hother =>
    rw [htokens]
    exact h.waiting (hunhandled hother) hle
  | answered load htokens hhandled hgeneration =>
    rw [htokens]
    exact h.answered (hanswered hhandled hgeneration) hle
  | overtaken path backend htokens hnone =>
    have hwaiting := h.waiting (hunhandled (generation_ne_of_handled? hnone)) hle
    rw [htokens]
    exact hwaiting.opened path backend
  | replaced load path backend htokens hhandled hgeneration =>
    rw [htokens]
    exact (h.answered (hanswered hhandled hgeneration) hle).opened path backend

theorem run (status : Option StatusCache) (store : StateStore) (inputs : List Input) :
    Held ((Session.start status store).run inputs).tokens
      ((Session.start status store).Handles inputs) := by
  induction inputs using List.reverseRecOn with
  | nil => exact start status store
  | append_singleton inputs input ih =>
    have htimeline := (Timeline.start status store).run inputs
    rw [run_concat]
    exact ih.step htimeline input (handles_concat _ inputs input)

end Held

/-! ### The loads that have been overtaken -/

theorem generation_step (htimeline : Timeline session) (input : Input) :
    (session.step input).generation = session.generation ∨
      (session.step input).generation = session.generation + 1 := by
  cases step_overtaking htimeline input with
  | waiting htokens | answered _ htokens => exact Or.inl (congrArg Tokens.generation htokens)
  | overtaken _ _ htokens | replaced _ _ _ htokens =>
    exact Or.inr (congrArg Tokens.generation htokens)

theorem isCancelled_iff_mem (session : Session) (generation : Nat) :
    session.isCancelled generation = true ↔ generation ∈ session.tokens.cancelled :=
  List.contains_iff_mem

/-- A load that has been overtaken is not cancelled any more. -/
theorem isCancelled_step_of_lt {handles : Nat → Prop} (h : Held session.tokens handles)
    (htimeline : Timeline session) (input : Input) {generation : Nat}
    (hlt : generation < session.generation) :
    (session.step input).isCancelled generation = true ↔
      session.isCancelled generation = true := by
  rw [isCancelled_iff_mem, isCancelled_iff_mem]
  cases step_overtaking htimeline input with
  | waiting htokens => rw [htokens]
  | answered load htokens =>
    rw [htokens]
    rfl
  | overtaken path backend htokens =>
    rw [htokens]
    have hheld : session.tokens.held ≠ some generation := fun hheld ↦
      hlt.ne ((h.held generation).mp hheld).1
    simp [Tokens.opened, hheld]
  | replaced load path backend htokens =>
    rw [htokens]
    simp [Tokens.opened, Tokens.answered]

/-- A navigation cancels the load that it overtakes, unless its response has been handled. -/
theorem isCancelled_step_of_opened {handles after : Nat → Prop} (h : Held session.tokens handles)
    (htimeline : Timeline session) (input : Input)
    (hafter : ∀ generation, after generation ↔ handles generation ∨
      ∃ load, session.handled? input = some load ∧ load.generation = generation)
    (hpos : 1 ≤ session.generation)
    (hopened : session.generation < (session.step input).generation) :
    (session.step input).isCancelled session.generation = true ↔ ¬ after session.generation := by
  have hfresh : session.generation ∉ session.tokens.cancelled := fun hcancelled ↦
    (h.cancelled _ hcancelled).false
  rw [isCancelled_iff_mem]
  cases step_overtaking htimeline input with
  | waiting htokens => exact absurd (congrArg Tokens.generation htokens) hopened.ne'
  | answered load htokens => exact absurd (congrArg Tokens.generation htokens) hopened.ne'
  | overtaken path backend htokens hnone =>
    have hheld : session.tokens.held = some session.generation ↔ ¬ handles session.generation := by
      rw [h.held]
      exact ⟨fun ⟨_, _, hnot⟩ ↦ hnot, fun hnot ↦ ⟨rfl, hpos, hnot⟩⟩
    rw [htokens, hafter]
    simp [Tokens.opened, hfresh, hheld, hnone]
  | replaced load path backend htokens hhandled hgeneration =>
    have hdone : after session.generation := (hafter _).mpr (Or.inr ⟨load, hhandled, hgeneration⟩)
    rw [htokens]
    simp [Tokens.opened, Tokens.answered, hfresh, hdone]

section Runs

variable (status : Option StatusCache) (store : StateStore)

theorem isCancelled_run_iff (earlier : List Input) (input : Input) (later : List Input)
    (hpos : 1 ≤ ((start status store).run earlier).generation)
    (hopened : ((start status store).run earlier).generation <
      ((start status store).run (earlier ++ [input])).generation) :
    ((start status store).run (earlier ++ input :: later)).isCancelled
        ((start status store).run earlier).generation = true ↔
      ¬ (start status store).Handles (earlier ++ [input])
        ((start status store).run earlier).generation := by
  induction later using List.reverseRecOn with
  | nil =>
    rw [run_concat] at hopened ⊢
    exact isCancelled_step_of_opened (Held.run status store earlier)
      ((Timeline.start status store).run earlier) input (handles_concat _ earlier input) hpos
      hopened
  | append_singleton later last ih =>
    have hlater : ((start status store).run earlier).generation <
        ((start status store).run (earlier ++ input :: later)).generation := by
      rw [List.append_cons, run_append]
      exact hopened.trans_le (generation_le_run _ later)
    have hsplit : earlier ++ input :: (later ++ [last]) = (earlier ++ input :: later) ++ [last] := by
      simp
    rw [hsplit, run_concat, isCancelled_step_of_lt (Held.run status store _)
      ((Timeline.start status store).run _) last hlater, ih]

/-- Every generation that is over has been ended by one of the inputs. -/
theorem exists_opened (inputs : List Input) {generation : Nat}
    (hlt : generation < ((start status store).run inputs).generation) :
    ∃ earlier input later, inputs = earlier ++ input :: later ∧
      ((start status store).run earlier).generation = generation ∧
      ((start status store).run (earlier ++ [input])).generation = generation + 1 := by
  induction inputs using List.reverseRecOn with
  | nil => exact absurd hlt (Nat.not_lt_zero _)
  | append_singleton inputs input ih =>
    by_cases hbefore : generation < ((start status store).run inputs).generation
    · obtain ⟨earlier, ending, later, rfl, hended⟩ := ih hbefore
      exact ⟨earlier, ending, later ++ [input], by simp, hended⟩
    · have hstep := generation_step ((Timeline.start status store).run inputs) input
      rw [← run_concat] at hstep
      exact ⟨inputs, input, [], rfl, by omega, by omega⟩

end Runs

/-! ### The status requests -/

theorem jobs_requestBadges (snapshot : Snapshot) (session : Session) (entries : List Entry) :
    session.jobs <+: (requestBadges snapshot session entries).1.jobs := by
  apply requestBadges_induction (motive := fun next ↦ session.jobs <+: next.jobs)
  · exact List.prefix_rfl
  · rintro entry - before after hit hbefore hrequested
    cases hrequested with
    | submitted => exact hbefore.trans (List.prefix_append _ _)
    | _ => exact hbefore

theorem jobs_showLoaded (session : Session) (backend : Backend) (load : Load)
    (children : List Entry) :
    session.jobs <+: (session.showLoaded backend load children).jobs := by
  unfold showLoaded requestStatus
  generalize Snapshot.loaded backend load.path children load.generation = snapshot
  obtain ⟨store, saves, hpersist, -⟩ := session.onShow_persist_eq snapshot
  have hshown : (session.onShow snapshot).persist.jobs = session.jobs := by rw [hpersist]
  dsimp only
  rw [announce_eq, ← hshown]
  exact jobs_requestBadges snapshot _ snapshot.children

theorem jobs_handleNext (session : Session) : session.jobs <+: session.handleNext.jobs := by
  unfold handleNext
  split
  case h_1 => exact List.prefix_rfl
  case h_2 update later hinbox =>
    have hhandled := handle_handled { session with inbox := later } update
    generalize ({ session with inbox := later } : Session).handle update = next at hhandled ⊢
    cases hhandled with
    | loaded load children backend =>
      exact jobs_showLoaded { session with
        inbox := later
        loadsInFlight := session.loadsInFlight - 1
        loadToken := none } backend load children
    | status path key generation changed =>
      obtain ⟨waiting, news, hstatus, -⟩ :=
        handleStatus_eq { session with inbox := later } path key generation changed
      exact (congrArg Session.jobs hstatus).symm ▸ List.prefix_rfl
    | _ => exact List.prefix_rfl

/-- Nothing that background work has done or will do is the worse for a call. -/
theorem requests_called (hcalled : Called session input next) :
    next.jobs = session.jobs ∧ next.pendingStatus = session.pendingStatus ∧
      next.inbox = session.inbox := by
  cases hcalled with
  | stayed => exact ⟨rfl, rfl, rfl⟩
  | opened => exact ⟨rfl, rfl, rfl⟩
  | refreshed backend snapshot path =>
    obtain ⟨status, hdistrust⟩ := distrust_eq
      { session.openAt backend path with selected := session.selected } backend snapshot.path
    rw [hdistrust]
    exact ⟨rfl, rfl, rfl⟩
  | selected name =>
    obtain ⟨store, saves, hpersist, -⟩ := persist_eq { session with selected := some name }
    rw [hpersist]
    exact ⟨rfl, rfl, rfl⟩

/-- In every state that a session can reach, each generation has sent for one listing. The present
one is not cancelled, and its token is held until its response has been handled; an earlier one is
cancelled if its response had not been handled when the next one was sent for, and only then. No
call, and no update that is handled, takes back a status request. -/
theorem superseded_loads_cancelled (status : Option StatusCache) (store : StateStore)
    (inputs : List Input) :
    let session := (start status store).run inputs
    session.dispatched.map Load.generation = List.range' 1 session.generation ∧
    session.isCancelled session.generation = false ∧
    (∀ generation, session.loadToken = some generation ↔
      generation = session.generation ∧ 1 ≤ generation ∧
        ¬ (start status store).Handles inputs generation) ∧
    (∀ generation, 1 ≤ generation → generation < session.generation →
      ∃ earlier input later, inputs = earlier ++ input :: later ∧
        ((start status store).run earlier).generation = generation ∧
        ((start status store).run (earlier ++ [input])).generation = generation + 1 ∧
        (session.isCancelled generation = true ↔
          ¬ (start status store).Handles (earlier ++ [input]) generation)) ∧
    (∀ input, input.isCall = true → (session.step input).jobs = session.jobs ∧
      (session.step input).pendingStatus = session.pendingStatus ∧
      (session.step input).inbox = session.inbox) ∧
    session.jobs <+: (session.step .process).jobs := by
  intro session
  have h := Held.run status store inputs
  refine ⟨h.dispatched, ?_, h.held, ?_, ?_, jobs_handleNext session⟩
  · rw [Bool.eq_false_iff, ne_eq, isCancelled_iff_mem]
    exact fun hcancelled ↦ (h.cancelled _ hcancelled).false
  · intro generation hpos hlt
    obtain ⟨earlier, input, later, rfl, hbefore, hafter⟩ := exists_opened status store inputs hlt
    refine ⟨earlier, input, later, rfl, hbefore, hafter, ?_⟩
    have hcancelled := isCancelled_run_iff status store earlier input later (by omega) (by omega)
    rwa [hbefore] at hcancelled
  · intro input hcall
    exact requests_called (session.step_called hcall)

end DirectoryBrowser.Session
