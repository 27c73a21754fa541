import DirectoryBrowser.Operation.Handle

/-!
# How an operation finishes

The course of an action is told without its operation: which counters each of
its updates has left, and how it has come back. Every turn of an operation
follows that course, whatever is done with the handle meanwhile, and the thread
needs only so many turns to the end. By then the sink has been told the whole
course and, once, how it ended, and the counters behind the lock are the last
ones of the course, even where a panic has poisoned it.
-/

namespace DirectoryBrowser

/-- The lock is entered whether or not it has been poisoned. -/
@[simp] theorem Lock.enter_eq {α : Type} (lock : Lock α) : lock.enter = lock.content := by
  cases hpoisoned : lock.poisoned <;> simp [enter, acquire, hpoisoned]

namespace Action

/-- How many turns the thread takes at most. An update takes a second one to be reported, and an
action that has come back still has to be told of, flagged and handed over. -/
def turns : Action → Nat
  | .ended _ => 4
  | .update _ next => turns next + 2
  | .cancel next => turns next + 1
  | .look next => max (turns (next false)) (turns (next true)) + 1

theorem four_le_turns (action : Action) : 4 ≤ action.turns := by
  induction action with
  | ended ending => exact Nat.le_refl 4
  | update f next ih => exact Nat.le_add_right_of_le ih
  | cancel next ih => exact Nat.le_add_right_of_le ih
  | look next ih =>
    calc 4 ≤ turns (next false) := ih false
      _ ≤ max (turns (next false)) (turns (next true)) := Nat.le_max_left _ _
      _ ≤ turns (.look next) := Nat.le_add_right _ 1

theorem turns_next_le (next : Bool → Action) (cancelled : Bool) :
    (next cancelled).turns ≤ max (turns (next false)) (turns (next true)) := by
  cases cancelled
  · exact Nat.le_max_left _ _
  · exact Nat.le_max_right _ _

end Action

namespace Operation

/-! ### The course of an action -/

/-- What an action has done when there is a rest of it left to do: the counters after each update
that came back, the counters as they are, and its token, which may be set from outside. -/
inductive Course (action : Action) (outside : Prop) :
    List Progress → Progress → Bool → Action → Prop
  | start : Course action outside [] Progress.zero false action
  | updated {reports : List Progress} {progress changed : Progress} {token : Bool}
      {f : Progress.Change} {next : Action}
      (hbefore : Course action outside reports progress token (.update f next))
      (hchanged : f progress = (changed, false)) :
      Course action outside (reports ++ [changed]) changed token next
  /-- An update that breaks off leaves what it has changed already. -/
  | brokenOff {reports : List Progress} {progress changed : Progress} {token : Bool}
      {f : Progress.Change} {next : Action}
      (hbefore : Course action outside reports progress token (.update f next))
      (hchanged : f progress = (changed, true)) :
      Course action outside reports changed token (.ended .panicked)
  | cancelled {reports : List Progress} {progress : Progress} {token : Bool} {next : Action}
      (hbefore : Course action outside reports progress token (.cancel next)) :
      Course action outside reports progress true next
  | looked {reports : List Progress} {progress : Progress} {token : Bool}
      {next : Bool → Action}
      (hbefore : Course action outside reports progress token (.look next)) :
      Course action outside reports progress token (next token)
  | interrupted {reports : List Progress} {progress : Progress} {token : Bool} {rest : Action}
      (hoccasion : outside) (hbefore : Course action outside reports progress token rest) :
      Course action outside reports progress true rest

variable {action rest : Action} {outside : Prop} {reports : List Progress} {progress : Progress}
  {token : Bool}

/-- Left alone, the rest of an action comes to what the whole of it comes to. -/
theorem Course.perform_eq (hcourse : Course action outside reports progress token rest)
    (halone : ¬ outside) :
    rest.perform ⟨progress, reports, token⟩ = action.perform (Running.start false) := by
  induction hcourse with
  | start => rfl
  | updated hbefore hchanged ih => simpa [Action.perform, Running.change, hchanged] using ih
  | brokenOff hbefore hchanged ih => simpa [Action.perform, Running.change, hchanged] using ih
  | cancelled hbefore ih => simpa only [Action.perform] using ih
  | looked hbefore ih => simpa only [Action.perform] using ih
  | interrupted hoccasion hbefore ih => exact absurd hoccasion halone

/-! ### Following the course -/

/-- Where an operation stands: how far the course of its action has come, and what has been told
of it. -/
inductive Reached (action : Action) (outside : Prop) : Operation → Prop
  | acting {reports : List Progress} {progress : Progress} {cancelled poisoned finished : Bool}
      {rest : Action} (hcourse : Course action outside reports progress cancelled rest) :
      Reached action outside
        ⟨.acting rest, cancelled, ⟨progress, poisoned⟩, reports.map .progress, finished, none⟩
  | reporting {reports : List Progress} {progress : Progress} {cancelled poisoned finished : Bool}
      {next : Action}
      (hcourse : Course action outside (reports ++ [progress]) progress cancelled next) :
      Reached action outside
        ⟨.reporting progress next, cancelled, ⟨progress, poisoned⟩, reports.map .progress, finished,
          none⟩
  | ended {reports : List Progress} {progress : Progress} {cancelled poisoned finished : Bool}
      {ending : Ending}
      (hcourse : Course action outside reports progress cancelled (.ended ending)) :
      Reached action outside
        ⟨.ended ending, cancelled, ⟨progress, poisoned⟩, reports.map .progress, finished, none⟩
  | told {reports : List Progress} {progress : Progress} {cancelled poisoned finished : Bool}
      {ending : Ending}
      (hcourse : Course action outside reports progress cancelled (.ended ending)) :
      Reached action outside
        ⟨.told (.ofEnding ending), cancelled, ⟨progress, poisoned⟩,
          reports.map .progress ++ [.finished (.ofEnding ending)], finished, none⟩
  | flagged {reports : List Progress} {progress : Progress} {cancelled poisoned finished : Bool}
      {ending : Ending}
      (hcourse : Course action outside reports progress cancelled (.ended ending)) :
      Reached action outside
        ⟨.flagged (.ofEnding ending), cancelled, ⟨progress, poisoned⟩,
          reports.map .progress ++ [.finished (.ofEnding ending)], finished, none⟩
  | gone {reports : List Progress} {progress : Progress} {cancelled poisoned finished : Bool}
      {ending : Ending}
      (hcourse : Course action outside reports progress cancelled (.ended ending)) :
      Reached action outside
        ⟨.gone, cancelled, ⟨progress, poisoned⟩,
          reports.map .progress ++ [.finished (.ofEnding ending)], finished,
          some (.ofEnding ending)⟩

variable {operation : Operation}

/-- A change that comes back leads on to its report, and one that breaks off ends the action. -/
theorem change_of_whole {f : Progress.Change} {changed : Progress} (next : Action)
    (hchanged : f operation.counters.content = (changed, false)) :
    operation.change f next =
      { operation with
        counters := { operation.counters with content := changed }
        stage := .reporting changed next } := by
  simp [Operation.change, hchanged]

theorem change_of_broken {f : Progress.Change} {changed : Progress} (next : Action)
    (hchanged : f operation.counters.content = (changed, true)) :
    operation.change f next =
      { operation with counters := ⟨changed, true⟩, stage := .ended .panicked } := by
  simp [Operation.change, hchanged]

theorem Course.reached_change {cancelled poisoned finished : Bool} {f : Progress.Change}
    {next : Action} (hcourse : Course action outside reports progress cancelled (.update f next)) :
    Reached action outside
      (Operation.change ⟨.acting (.update f next), cancelled, ⟨progress, poisoned⟩,
        reports.map .progress, finished, none⟩ f next) := by
  cases hchanged : f progress with
  | mk changed broken =>
    cases broken with
    | false =>
      rw [change_of_whole next hchanged]
      exact .reporting (hcourse.updated hchanged)
    | true =>
      rw [change_of_broken next hchanged]
      exact .ended (hcourse.brokenOff hchanged)

theorem Reached.advance (h : Reached action outside operation) :
    Reached action outside operation.advance := by
  cases h with
  | @acting _ _ _ _ _ rest hcourse =>
    cases rest with
    | ended ending => exact .ended hcourse
    | update f next => exact hcourse.reached_change
    | cancel next => exact .acting hcourse.cancelled
    | look next => exact .acting hcourse.looked
  | @reporting reports progress cancelled poisoned finished next hcourse =>
    have hreached : Reached action outside ⟨.acting next, cancelled, ⟨progress, poisoned⟩,
        (reports ++ [progress]).map .progress, finished, none⟩ := .acting hcourse
    rw [List.map_append] at hreached
    exact hreached
  | ended hcourse => exact .told hcourse
  | told hcourse => exact .flagged hcourse
  | flagged hcourse => exact .gone hcourse
  | gone hcourse => exact .gone hcourse

theorem Reached.cancel (h : Reached action outside operation) (hoccasion : outside) :
    Reached action outside { operation with cancelled := true } := by
  cases h with
  | acting hcourse => exact .acting (hcourse.interrupted hoccasion)
  | reporting hcourse => exact .reporting (hcourse.interrupted hoccasion)
  | ended hcourse => exact .ended (hcourse.interrupted hoccasion)
  | told hcourse => exact .told (hcourse.interrupted hoccasion)
  | flagged hcourse => exact .flagged (hcourse.interrupted hoccasion)
  | gone hcourse => exact .gone (hcourse.interrupted hoccasion)

theorem Reached.turn (h : Reached action outside operation) (next : Turn)
    (hoccasion : next ≠ .thread → outside) : Reached action outside (operation.turn next) := by
  cases next with
  | thread => exact h.advance
  | cancel => exact h.cancel (hoccasion nofun)
  | drop =>
    rw [Operation.turn]
    split
    · exact h
    · exact h.cancel (hoccasion nofun)

theorem Reached.foldl (h : Reached action outside operation) (schedule : List Turn)
    (hoccasion : ∀ turn ∈ schedule, turn ≠ .thread → outside) :
    Reached action outside (schedule.foldl Operation.turn operation) := by
  induction schedule generalizing operation with
  | nil => exact h
  | cons turn schedule ih =>
    rw [List.forall_mem_cons] at hoccasion
    exact ih (h.turn turn hoccasion.1) hoccasion.2

theorem start_reached : Reached action outside (start action) := by
  have hstart : Course action outside [] Progress.zero false action := .start
  show Reached action outside
    ⟨.acting action, false, ⟨Progress.zero, false⟩, [].map .progress, false, none⟩
  exact .acting hstart

theorem after_reached (action : Action) (schedule : List Turn) :
    Reached action (∃ turn ∈ schedule, turn ≠ .thread) (after action schedule) := by
  apply Reached.foldl
  · exact start_reached
  · intro turn hturn hother
    exact ⟨turn, hturn, hother⟩

/-! ### Coming to the end -/

/-- How many turns the thread still takes at most. -/
def Stage.left : Stage → Nat
  | .acting action => action.turns
  | .reporting _ next => next.turns + 1
  | .ended _ => 3
  | .told _ => 2
  | .flagged _ => 1
  | .gone => 0

theorem left_change_le (operation : Operation) (f : Progress.Change) (next : Action) :
    (operation.change f next).stage.left ≤ next.turns + 1 := by
  cases hchanged : f operation.counters.content with
  | mk changed broken =>
    cases broken with
    | false =>
      rw [change_of_whole next hchanged]
      exact Nat.le_refl _
    | true =>
      rw [change_of_broken next hchanged]
      calc (3 : Nat) ≤ 4 := Nat.le_succ 3
        _ ≤ next.turns := next.four_le_turns
        _ ≤ next.turns + 1 := Nat.le_succ _

theorem left_advance_le (operation : Operation) :
    operation.advance.stage.left ≤ operation.stage.left - 1 := by
  cases hstage : operation.stage with
  | acting rest =>
    cases rest with
    | update f next =>
      simp only [advance, hstage]
      exact left_change_le operation f next
    | look next =>
      simp only [advance, hstage]
      exact Action.turns_next_le next operation.cancelled
    | ended ending => simp [advance, hstage, Stage.left, Action.turns]
    | cancel next => simp [advance, hstage, Stage.left, Action.turns]
  | _ => simp [advance, tell, hstage, Stage.left]

theorem stage_turn_of_ne (operation : Operation) {next : Turn} (hother : next ≠ .thread) :
    (operation.turn next).stage = operation.stage := by
  cases next with
  | thread => exact absurd rfl hother
  | cancel => rfl
  | drop =>
    rw [turn]
    split <;> rfl

theorem left_foldl_le (operation : Operation) (schedule : List Turn) :
    (schedule.foldl turn operation).stage.left ≤
      operation.stage.left - schedule.count .thread := by
  induction schedule generalizing operation with
  | nil => exact Nat.le_refl _
  | cons next schedule ih =>
    rw [List.foldl_cons]
    by_cases hthread : next = .thread
    · subst hthread
      calc (schedule.foldl turn operation.advance).stage.left
          ≤ operation.advance.stage.left - schedule.count .thread := ih operation.advance
        _ ≤ operation.stage.left - 1 - schedule.count .thread :=
          Nat.sub_le_sub_right (left_advance_le operation) _
        _ = operation.stage.left - (Turn.thread :: schedule).count .thread := by
          rw [List.count_cons_self, Nat.sub_sub, Nat.add_comm]
    · rw [List.count_cons_of_ne hthread, ← stage_turn_of_ne operation hthread]
      exact ih (operation.turn next)

theorem Reached.isSome_outcome? (h : Reached action outside operation)
    (hleft : operation.stage.left = 0) : operation.outcome?.isSome := by
  cases h with
  | @acting _ _ _ _ _ rest hcourse =>
    have hfour := rest.four_le_turns
    simp only [Stage.left] at hleft
    omega
  | gone hcourse => rfl
  | _ => simp [Stage.left] at hleft

theorem Reached.of_outcome? {outcome : Outcome} (h : Reached action outside operation)
    (houtcome : operation.outcome? = some outcome) :
    ∃ reports token ending,
      Course action outside reports operation.progress token (.ended ending) ∧
      operation.events = reports.map .progress ++ [.finished outcome] ∧
      outcome = .ofEnding ending := by
  cases h with
  | @gone reports progress cancelled _ _ ending hcourse =>
    obtain rfl : Outcome.ofEnding ending = outcome := Option.some.inj houtcome
    refine ⟨reports, cancelled, ending, ?_, rfl, rfl⟩
    rw [Operation.progress, Lock.enter_eq]
    exact hcourse
  | _ => simp [outcome?] at houtcome

/-! ### What is reported of the end -/

theorem ofEnding_eq_completed_iff (ending : Ending) :
    Outcome.ofEnding ending = .completed ↔ ending = .returned := by
  cases ending with
  | failed error => cases error <;> simp [Outcome.ofEnding]
  | _ => simp [Outcome.ofEnding]

theorem ofEnding_eq_cancelled_iff (ending : Ending) :
    Outcome.ofEnding ending = .cancelled ↔ ending = .failed .cancelled := by
  cases ending with
  | failed error => cases error <;> simp [Outcome.ofEnding]
  | _ => simp [Outcome.ofEnding]

theorem ofEnding_failed {error : OperationError} (hother : error ≠ .cancelled) :
    Outcome.ofEnding (.failed error) = .failed error := by
  cases error with
  | cancelled => exact absurd rfl hother
  | _ => rfl

/-- Whatever is done with the handle meanwhile, an operation comes to its end in a number of turns
that its action bounds. Who waits then gets the outcome that the sink has been told last, after the
counters of every update that came back, and the handle shows the counters as the action has left
them. An operation left alone does what the action performs. -/
theorem finishes_once (action : Action) (schedule : List Turn) :
    (action.turns ≤ schedule.count .thread → (after action schedule).outcome?.isSome) ∧
    ∀ outcome, (after action schedule).outcome? = some outcome →
      ∃ reports token ending,
        Course action (∃ turn ∈ schedule, turn ≠ .thread) reports
          (after action schedule).progress token (.ended ending) ∧
        (after action schedule).events = reports.map .progress ++ [.finished outcome] ∧
        (outcome = .completed ↔ ending = .returned) ∧
        (outcome = .cancelled ↔ ending = .failed .cancelled) ∧
        (ending = .panicked → outcome = .failed .aborted) ∧
        (∀ error, error ≠ .cancelled → ending = .failed error → outcome = .failed error) ∧
        ((∀ turn ∈ schedule, turn = .thread) →
          action.perform (Running.start false) =
            (ending, ⟨(after action schedule).progress, reports, token⟩)) := by
  have hreached := after_reached action schedule
  constructor
  · intro hturns
    apply hreached.isSome_outcome?
    apply Nat.eq_zero_of_le_zero
    calc (after action schedule).stage.left
        ≤ action.turns - schedule.count .thread := left_foldl_le (start action) schedule
      _ = 0 := Nat.sub_eq_zero_of_le hturns
  · intro outcome houtcome
    obtain ⟨reports, token, ending, hcourse, hevents, rfl⟩ := hreached.of_outcome? houtcome
    refine ⟨reports, token, ending, hcourse, hevents, ofEnding_eq_completed_iff ending,
      ofEnding_eq_cancelled_iff ending, ?_, ?_, ?_⟩
    · rintro rfl
      rfl
    · rintro error hother rfl
      exact ofEnding_failed hother
    · intro halone
      have hnobody : ¬ ∃ turn ∈ schedule, turn ≠ .thread := by
        rintro ⟨turn, hturn, hother⟩
        exact hother (halone turn hturn)
      exact (hcourse.perform_eq hnobody).symm

end Operation

end DirectoryBrowser
