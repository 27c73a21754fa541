import DirectoryBrowser.Proofs.Operation.Crews
import DirectoryBrowser.Proofs.Operation.Levels
import Mathlib.Data.List.Perm.Subperm

/-!
# What lasts over a generation

A generation changes what it shows in few ways: it looks at its token, names a
directory, asks for it, takes its name off, and counts a failure. What each of
these keeps is kept by a whole level, whatever the turns of its workers, and by
all levels. The counters only grow, so every report stands below what is shown
in the end. And the calls of a level are for its own directories, no matter how
the workers take turns: what one of them has asked for is ahead of none any more.
-/

open scoped List

namespace DirectoryBrowser

variable {σ : Type}

/-! ### Counters only grow -/

namespace Progress

/-- The counters of a moment, and those of a later one. -/
structure Precedes (earlier later : Progress) : Prop where
  total : earlier.total = later.total
  done : earlier.done ≤ later.done
  failed : earlier.failed ≤ later.failed
  skipped : earlier.skipped ≤ later.skipped

theorem Precedes.refl (progress : Progress) : progress.Precedes progress :=
  ⟨rfl, Nat.le_refl _, Nat.le_refl _, Nat.le_refl _⟩

theorem Precedes.trans {first second third : Progress} (h : first.Precedes second)
    (h' : second.Precedes third) : first.Precedes third :=
  ⟨h.total.trans h'.total, Nat.le_trans h.done h'.done, Nat.le_trans h.failed h'.failed,
    Nat.le_trans h.skipped h'.skipped⟩

/-- The failure of an item, and what is lost by it. -/
abbrev addFailure (below : Nat) : Change := followedBy (addFailed 1) (addSkipped below)

theorem done_addFailure (below : Nat) (progress : Progress) :
    (addFailure below progress).1.done = progress.done := by
  unfold addFailure followedBy addFailed addSkipped
  dsimp only
  split
  case isTrue =>
    rw [if_neg Bool.false_ne_true]
    split
    · rfl
    · rfl
  case isFalse => rfl

theorem precedes_addFailed (n : Nat) (progress : Progress) :
    progress.Precedes (addFailed n progress).1 := by
  unfold addFailed
  split
  · exact ⟨rfl, Nat.le_refl _, Nat.le_add_right _ _, Nat.le_refl _⟩
  · exact .refl progress

theorem precedes_addSkipped (n : Nat) (progress : Progress) :
    progress.Precedes (addSkipped n progress).1 := by
  unfold addSkipped
  split
  · exact ⟨rfl, Nat.le_refl _, Nat.le_refl _, Nat.le_add_right _ _⟩
  · exact .refl progress

theorem precedes_addFailure (below : Nat) (progress : Progress) :
    progress.Precedes (addFailure below progress).1 := by
  have hfailed := precedes_addFailed 1 progress
  unfold addFailure followedBy
  dsimp only
  split
  · exact hfailed
  · exact hfailed.trans (precedes_addSkipped below _)

end Progress

namespace Running

/-- Every report stands between the start and what the counters are by now. -/
def Follows (start : Progress) (running : Running σ) : Prop :=
  start.Precedes running.progress ∧ ∀ report ∈ running.reports, report.Precedes running.progress

theorem Follows.change {start : Progress} {running : Running σ} {f : Progress.Change}
    (h : running.Follows start) (hgrow : running.progress.Precedes (f running.progress).1) :
    (running.change f).2.Follows start := by
  obtain ⟨hstart, hreports⟩ := h
  have hearlier : ∀ report ∈ running.reports, report.Precedes (f running.progress).1 :=
    fun report hreport ↦ (hreports report hreport).trans hgrow
  unfold Running.change
  dsimp only
  split
  · exact ⟨hstart.trans hgrow, hearlier⟩
  · refine ⟨hstart.trans hgrow, List.forall_mem_append.mpr ⟨hearlier, ?_⟩⟩
    exact List.forall_mem_singleton.mpr (.refl _)

end Running

namespace Generate

theorem change_progress (running : Running σ) (f : Progress.Change) :
    (running.change f).2.progress = (f running.progress).1 := by
  unfold Running.change
  dsimp only
  split
  · rfl
  · rfl

/-- What no failure destroys that is counted holds once all of them are. -/
theorem tally_induction {motive : Running σ → Prop} {below : Nat} {running : Running σ}
    (hfailure : ∀ running, motive running →
      motive (running.change (Progress.addFailure below)).2)
    (firstError : Option OperationError) (outcomes : List (String × Except BackendError Unit))
    (hstart : motive running) : motive (tally below running firstError outcomes).running := by
  induction outcomes generalizing running firstError with
  | nil => exact hstart
  | cons outcome outcomes ih =>
    obtain ⟨path, result⟩ := outcome
    cases result with
    | ok _ => exact ih firstError hstart
    | error error =>
      unfold tally
      dsimp only
      split
      · exact hfailure running hstart
      · exact ih _ (hfailure running hstart)

theorem tally_done (below : Nat) (running : Running σ) (firstError : Option OperationError)
    (outcomes : List (String × Except BackendError Unit)) :
    (tally below running firstError outcomes).running.progress.done = running.progress.done := by
  refine tally_induction (motive := fun next ↦ next.progress.done = running.progress.done)
    (fun next hnext ↦ ?_) firstError outcomes rfl
  rw [change_progress, Progress.done_addFailure, hnext]

/-- A property that no step of a generation destroys. -/
structure Lasts (workplace : Workplace σ) (motive : Running σ → Prop) : Prop where
  poll : ∀ running, motive running → motive (running.poll workplace).2
  beginItem : ∀ running path, motive running → motive (running.beginItem path)
  act : ∀ running path, motive running → motive (running.act workplace path).2
  endItem : ∀ running path created, motive running →
    motive (running.endItem path (countCreated created))
  addFailure : ∀ running below, motive running →
    motive (running.change (Progress.addFailure below)).2

namespace Lasts

variable {workplace : Workplace σ} {motive : Running σ → Prop} {running : Running σ}

theorem createShares (h : Lasts workplace motive) (processors : Nat) (schedule : List Nat)
    (work : List String) (hstart : motive running) :
    motive (createShares processors schedule workplace running work).2 := by
  rw [createShares_eq]
  unfold crewAfter
  refine turns_induction (motive := fun _ running ↦ motive running) _ hstart ?_
  rintro _ running _ _ hrunning (_ | ⟨_, _, _, _, -, hstepped⟩)
  · exact hrunning
  · cases hstepped with
    | finished => exact hrunning
    | refused | cleared => exact h.poll running hrunning
    | begun path => exact h.beginItem running path hrunning
    | answered path | panicked path => exact h.act running path hrunning
    | ended path result => exact h.endItem running path _ hrunning

theorem createLevels (h : Lasts workplace motive) {createLevel : LevelRunner σ}
    (hlevel : ∀ remaining running work, motive running →
      motive (createLevel remaining running work).2)
    (layout : TreeLayout) (parents : List String) (firstError : Option OperationError)
    (remaining : Nat) (hstart : motive running) :
    motive (createLevels createLevel workplace layout running parents firstError remaining).2 := by
  induction remaining generalizing running parents firstError with
  | zero => exact hstart
  | succ remaining ih =>
    have hlevelled := createLevels_levelled createLevel workplace layout running parents
      firstError remaining
    generalize (Generate.createLevels createLevel workplace layout running parents firstError
      (remaining + 1)).1 = ending at hlevelled ⊢
    generalize (Generate.createLevels createLevel workplace layout running parents firstError
      (remaining + 1)).2 = final at hlevelled ⊢
    have hpolled := h.poll running hstart
    have hcreated {results : List (Except BackendError Unit)} {next : Running σ}
        {work : List String}
        (hnext : createLevel remaining (running.poll workplace).2 work = (results, next)) :
        motive (next.poll workplace).2 := by
      have hdone := hlevel remaining _ work hpolled
      rw [hnext] at hdone
      exact h.poll next hdone
    cases hlevelled with
    | cancelled | nothing => exact hpolled
    | interrupted results next hnext => exact hcreated hnext
    | broken results next counted hnext _ htally =>
      rw [← htally]
      exact tally_induction (fun running ↦ h.addFailure running _) _ _ (hcreated hnext)
    | deeper results next counted hnext _ htally =>
      refine ih _ _ ?_
      rw [← htally]
      exact tally_induction (fun running ↦ h.addFailure running _) _ _ (hcreated hnext)

end Lasts

theorem lasts_follows (workplace : Workplace σ) (start : Progress) :
    Lasts workplace (Running.Follows start) where
  poll _ h := h
  beginItem _ _ h := h.change ⟨rfl, Nat.le_refl _, Nat.le_refl _, Nat.le_refl _⟩
  act _ _ h := h
  endItem running path created h := by
    cases created with
    | true => exact h.change ⟨rfl, Nat.le_add_right _ _, Nat.le_refl _, Nat.le_refl _⟩
    | false => exact h.change ⟨rfl, Nat.le_refl _, Nat.le_refl _, Nat.le_refl _⟩
  addFailure running below h := h.change (Progress.precedes_addFailure below running.progress)

/-! ### The calls of a level -/

/-- The calls made in between are for these paths, for each at most as often as it is listed. -/
def Asks (start next : Recorded σ) (paths : List String) : Prop :=
  ∃ made, next.calls = start.calls ++ made ∧ made.map WorkCall.path <+~ paths

namespace Asks

variable {start next final : Recorded σ} {paths others : List String}

theorem nothing (hcalls : next.calls = start.calls) : Asks start next paths :=
  ⟨[], hcalls.trans (List.append_nil _).symm, List.nil_subperm⟩

theorem same (h : Asks start next paths) (hcalls : final.calls = next.calls) :
    Asks start final paths := by
  obtain ⟨made, hmade, hpaths⟩ := h
  exact ⟨made, hcalls.trans hmade, hpaths⟩

theorem mono (h : Asks start next paths) (hpaths : paths <+~ others) : Asks start next others := by
  obtain ⟨made, hcalls, hmade⟩ := h
  exact ⟨made, hcalls, hmade.trans hpaths⟩

theorem append (h : Asks start next paths) (hlater : Asks next final others) :
    Asks start final (paths ++ others) := by
  obtain ⟨made, hcalls, hmade⟩ := h
  obtain ⟨more, hmore, hothers⟩ := hlater
  refine ⟨made ++ more, ?_, ?_⟩
  · rw [hmore, hcalls, List.append_assoc]
  · rw [List.map_append]
    exact hmade.append hothers

end Asks

theorem asks_act (workplace : Workplace σ) (running : Recorded σ) (path : String) :
    Asks running (running.act workplace.recorded path).2 [path] :=
  ⟨_, running.calls_act workplace path, List.Subperm.refl _⟩

namespace Worker

/-- The directories that a worker may still ask for. -/
def ahead (worker : Worker) : List String :=
  match worker.phase with
  | .free | .answered .. => worker.waiting
  | .cleared path | .begun path => path :: worker.waiting

/-- What a worker asks for was ahead of it, and is no longer. -/
theorem ahead_stepped {workplace : Workplace σ} {worker worker' : Worker}
    {running next : Recorded σ} (h : Stepped workplace.recorded worker running worker' next) :
    ∃ asked, Asks running next asked ∧ asked ++ worker'.ahead <+ worker.ahead := by
  cases h with
  | finished => exact ⟨[], .nothing rfl, List.Sublist.refl _⟩
  | refused path waiting hphase hwaiting =>
    refine ⟨[], .nothing rfl, ?_⟩
    simp only [ahead, hphase, hwaiting]
    exact List.sublist_cons_self path waiting
  | cleared path waiting hphase hwaiting =>
    refine ⟨[], .nothing rfl, ?_⟩
    simp only [ahead, hphase, hwaiting]
    exact List.Sublist.refl _
  | begun path hphase =>
    refine ⟨[], .nothing rfl, ?_⟩
    simp only [ahead, hphase]
    exact List.Sublist.refl _
  | answered path result hphase =>
    refine ⟨[path], asks_act workplace running path, ?_⟩
    simp only [ahead, hphase]
    exact List.Sublist.refl _
  | panicked path hphase =>
    refine ⟨[path], asks_act workplace running path, ?_⟩
    simp only [ahead, hphase]
    exact List.singleton_sublist.mpr List.mem_cons_self
  | ended path result hphase =>
    refine ⟨[], .nothing rfl, ?_⟩
    simp only [ahead, hphase]
    exact List.Sublist.refl _

end Worker

/-- The calls since the start and those to come are for directories of the level, for each at most
as often as the level has it. -/
def Engaged (start : Recorded σ) (work : List String) (crew : List Worker)
    (running : Recorded σ) : Prop :=
  ∃ asked, Asks start running asked ∧ asked ++ crew.flatMap Worker.ahead <+~ work

theorem Engaged.turned {workplace : Workplace σ} {start running next : Recorded σ}
    {work : List String} {crew crew' : List Worker} (h : Engaged start work crew running)
    (hturned : Turned workplace.recorded crew running crew' next) :
    Engaged start work crew' next := by
  cases hturned with
  | skipped => exact h
  | stepped before after worker worker' hcrew hstepped =>
    subst hcrew
    obtain ⟨asked, hasked, hwork⟩ := h
    obtain ⟨more, hmore, hahead⟩ := Worker.ahead_stepped hstepped
    refine ⟨asked ++ more, hasked.append hmore, ?_⟩
    simp only [List.flatMap_append, List.flatMap_cons] at hwork ⊢
    have hmoved : more ++ (before.flatMap Worker.ahead ++
          (worker'.ahead ++ after.flatMap Worker.ahead)) ~
        before.flatMap Worker.ahead ++ (more ++ worker'.ahead ++ after.flatMap Worker.ahead) := by
      rw [List.append_assoc]
      exact List.perm_append_comm_assoc ..
    have hfewer := (hahead.append_right (after.flatMap Worker.ahead)).append_left
      (before.flatMap Worker.ahead)
    rw [List.append_assoc]
    apply List.Subperm.trans _ hwork
    apply (List.subperm_append_left asked).mpr
    exact hmoved.subperm.trans hfewer.subperm

theorem createShares_asks (processors : Nat) (schedule : List Nat) (workplace : Workplace σ)
    (start : Recorded σ) (work : List String) :
    Asks start (createShares processors schedule workplace.recorded start work).2 work := by
  rw [createShares_eq]
  unfold crewAfter
  dsimp only
  generalize (work.length + (processors - 1)) / max processors 1 = size
  have hahead : ((shares size work).map Worker.ofShare).flatMap Worker.ahead = work := by
    rw [List.flatMap_map]
    exact (List.flatten_eq_flatMap ..).symm.trans (flatten_shares size work)
  have hfresh : Engaged start work ((shares size work).map Worker.ofShare) start := by
    have hnone : [] ++ work <+~ work := List.Subperm.refl work
    exact ⟨[], .nothing rfl, hahead.symm ▸ hnone⟩
  obtain ⟨asked, hasked, hwork⟩ := turns_induction (motive := Engaged start work) _ hfresh
    fun _ _ _ _ h hturned ↦ h.turned hturned
  exact hasked.mono ((List.sublist_append_left _ _).subperm.trans hwork)

end Generate

end DirectoryBrowser
