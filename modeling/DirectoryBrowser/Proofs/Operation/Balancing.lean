import DirectoryBrowser.Proofs.Operation.Levels
import DirectoryBrowser.Proofs.Operation.Sizes
import DirectoryBrowser.Proofs.Operation.Tallying

/-!
# The accounts of a generated tree

Three places change the counters of a generation: the announcement of the whole
tree, a worker that has created a directory, and the count of a level's
failures, which writes off what would have been below them. Between two levels
`Balanced` holds: what has been done, given up and is still to come adds up to
what was announced. Below a level the tree splits in those that were created
and those that were not, and both are as large.
-/

namespace DirectoryBrowser.Generate

variable {σ : Type}

theorem length_workOf (layout : TreeLayout) (level : Nat) (parents : List String) :
    (workOf layout level parents).length = parents.length * layout.breadth := by
  simp [workOf]

/-- Everything announced has been done, has been given up, or is still to come. -/
structure Balanced (size : Nat) (running : Recorded σ) (pending : Nat) : Prop where
  total : running.progress.total = size
  done : running.progress.done = running.created
  failed : running.progress.failed = running.refused
  processing : running.progress.processing = []
  sum : running.progress.done + running.progress.failed + running.progress.skipped + pending =
    size

/-- The failures of a level that was not finished have not been counted. -/
structure Interrupted (size : Nat) (running : Recorded σ) : Prop where
  total : running.progress.total = size
  done : running.progress.done = running.created
  processing : running.progress.processing = []
  sum : running.progress.done + running.progress.failed + running.progress.skipped ≤ size

inductive Accounted (size : Nat) (running : Recorded σ) : Ending → Prop
  | returned (hbalanced : Balanced size running 0) : Accounted size running .returned
  | failed (error : OperationError) (herror : IsEntryError error)
      (hbalanced : Balanced size running 0) : Accounted size running (.failed error)
  | cancelled (hinterrupted : Interrupted size running) :
      Accounted size running (.failed .cancelled)

namespace Balanced

variable {size pending : Nat} {running : Recorded σ}

theorem interrupted (h : Balanced size running pending) : Interrupted size running where
  total := h.total
  done := h.done
  processing := h.processing
  sum := by
    have hsum := h.sum
    omega

theorem accounted (h : Balanced size running 0) {firstError : Option OperationError}
    (hfirst : ∀ error, firstError = some error → IsEntryError error) :
    Accounted size running (endingOf firstError) := by
  cases firstError with
  | none => exact .returned h
  | some error => exact .failed error (hfirst error rfl) h

theorem poll (h : Balanced size running pending) (workplace : Workplace σ) :
    Balanced size (running.poll workplace.recorded).2 pending := ⟨h.1, h.2, h.3, h.4, h.5⟩

end Balanced

section Levels

variable {workplace : Workplace σ} {isSet : σ → Prop} {layout : TreeLayout} {size : Nat}
  {start next : Recorded σ} {work parents : List String} {remaining : Nat}
  {results : List (Except BackendError Unit)}

theorem pending_succ (parents : List String) (layout : TreeLayout) (remaining : Nat) :
    parents.length * TreeLayout.nodesBelow layout.breadth (remaining + 1) =
      parents.length * layout.breadth +
        parents.length * layout.breadth * TreeLayout.nodesBelow layout.breadth remaining := by
  rw [TreeLayout.nodesBelow_succ]
  ring

/-- A level that was broken off has created no more than it was to create. -/
theorem Balanced.broken
    (h : Balanced size start (parents.length * TreeLayout.nodesBelow layout.breadth (remaining + 1)))
    (hwork : work.length = parents.length * layout.breadth)
    (hlevel : LevelAccount isSet start work results next) : Interrupted size next := by
  have hprogress := hlevel.progress
  constructor
  case total => rw [hprogress, ← h.total]
  case done => rw [hprogress, hlevel.created, ← h.done]
  case processing => rw [hprogress, ← h.processing]
  case sum =>
    have hcreated : results.countP isCreated ≤ parents.length * layout.breadth := by
      rw [← hwork, ← hlevel.length]
      exact List.countP_le_length
    have hsum := h.sum
    rw [pending_succ] at hsum
    rw [hprogress]
    dsimp only
    omega

/-- A level that was finished leaves the parents of the next one to be gone on with. -/
theorem Balanced.counted {counted : Tally (σ × List (WorkCall σ))}
    (h : Balanced size start (parents.length * TreeLayout.nodesBelow layout.breadth (remaining + 1)))
    (hwork : work.length = parents.length * layout.breadth)
    (hlevel : LevelAccount isSet start work results next) (hunset : ¬ isSet next.world.1)
    {firstError : Option OperationError}
    (hcounted : Counted (TreeLayout.nodesBelow layout.breadth remaining) next firstError
      (work.zip results) counted) :
    Balanced size counted.running
      (counted.parents.length * TreeLayout.nodesBelow layout.breadth remaining) := by
  have hcalls : counted.running.calls = next.calls := congrArg Prod.snd hcounted.world
  have hcreated : counted.running.created = start.created + results.countP isCreated := by
    rw [← hlevel.created]
    exact congrArg (List.countP WorkCall.succeeded) hcalls
  have hrefused : counted.running.refused = start.refused + results.countP isRefused := by
    rw [← hlevel.refused hunset]
    exact congrArg (List.countP WorkCall.failed) hcalls
  have hprogress := hcounted.progress
  have hparents := hcounted.length_parents
  rw [hlevel.map_snd_zip] at hprogress hparents
  rw [hlevel.progress] at hprogress
  constructor
  case total => rw [hprogress, ← h.total]
  case done => rw [hprogress, hcreated, ← h.done]
  case failed => rw [hprogress, hrefused, ← h.failed]
  case processing => rw [hprogress, ← h.processing]
  case sum =>
    -- Both what was refused and what was created stands above a tree with one level less.
    have hresults : results.countP isCreated + results.countP isRefused =
        parents.length * layout.breadth := by
      rw [countP_isCreated_add_isRefused, hlevel.length, hwork]
    have hsplit : parents.length * TreeLayout.nodesBelow layout.breadth (remaining + 1) =
        results.countP isCreated + results.countP isRefused +
          (results.countP isCreated * TreeLayout.nodesBelow layout.breadth remaining +
            results.countP isRefused * TreeLayout.nodesBelow layout.breadth remaining) := by
      rw [pending_succ, ← hresults, Nat.add_mul]
    have hsum := h.sum
    rw [hprogress, hparents]
    dsimp only
    omega

/-- Nothing that is counted exceeds what was announced, so no counter gives out. -/
theorem Balanced.tallied
    (h : Balanced size start (parents.length * TreeLayout.nodesBelow layout.breadth (remaining + 1)))
    (hwork : work.length = parents.length * layout.breadth) (hsize : size < Progress.limit)
    (hlevel : LevelAccount isSet start work results next) (firstError : Option OperationError) :
    Counted (TreeLayout.nodesBelow layout.breadth remaining) next firstError (work.zip results)
      (tally (TreeLayout.nodesBelow layout.breadth remaining) next firstError
        (work.zip results)) := by
  have hresults := hlevel.map_snd_zip
  have hrefused : results.countP isRefused ≤ parents.length * layout.breadth := by
    rw [← hwork, ← hlevel.length]
    exact List.countP_le_length
  have hbelow := Nat.mul_le_mul_right (TreeLayout.nodesBelow layout.breadth remaining) hrefused
  have hsum := h.sum
  rw [pending_succ] at hsum
  have hcounted := tally_counted (TreeLayout.nodesBelow layout.breadth remaining)
    (work.zip results) next firstError
  rw [hresults, hlevel.progress] at hcounted
  exact hcounted (by dsimp only; omega) (by dsimp only; omega)

theorem createLevels_account {createLevel : LevelRunner (σ × List (WorkCall σ))}
    (htoken : workplace.IsToken isSet)
    (hlevel : ∀ remaining (start : Recorded σ) work, start.progress.processing = [] →
      LevelAccount isSet start work (createLevel remaining start work).1
        (createLevel remaining start work).2)
    (hdepth : layout.depth < UInt32.size)
    (hsize : TreeLayout.nodesBelow layout.breadth layout.depth < Progress.limit)
    (hremaining : remaining ≤ layout.depth) {firstError : Option OperationError}
    (hfirst : ∀ error, firstError = some error → IsEntryError error)
    (h : Balanced (TreeLayout.nodesBelow layout.breadth layout.depth) start
      (parents.length * TreeLayout.nodesBelow layout.breadth remaining)) :
    Accounted (TreeLayout.nodesBelow layout.breadth layout.depth)
      (createLevels createLevel workplace.recorded layout start parents firstError remaining).2
      (createLevels createLevel workplace.recorded layout start parents firstError
        remaining).1 := by
  induction remaining generalizing start parents firstError with
  | zero =>
    rw [TreeLayout.nodesBelow, Nat.mul_zero] at h
    exact h.accounted hfirst
  | succ remaining ih =>
    have hbelow : layout.subtreeSize remaining = TreeLayout.nodesBelow layout.breadth remaining :=
      layout.subtreeSize_eq (by omega)
        ((TreeLayout.nodesBelow_mono layout.breadth (by omega)).trans_lt hsize)
    have hpolled := h.poll workplace
    have hwork := length_workOf layout (layout.depth - remaining) parents
    have hlevelled := createLevels_levelled createLevel workplace.recorded layout start parents
      firstError remaining
    generalize workOf layout (layout.depth - remaining) parents = work at hwork hlevelled
    have haccount {results : List (Except BackendError Unit)} {next : Recorded σ}
        (hcreated : createLevel remaining (start.poll workplace.recorded).2 work =
          (results, next)) :
        LevelAccount isSet (start.poll workplace.recorded).2 work results
          (next.poll workplace.recorded).2 := by
      have haccount := hlevel remaining (start.poll workplace.recorded).2 work hpolled.processing
      rw [hcreated] at haccount
      exact haccount.poll htoken
    generalize (createLevels createLevel workplace.recorded layout start parents firstError
      (remaining + 1)).1 = ending at hlevelled ⊢
    generalize (createLevels createLevel workplace.recorded layout start parents firstError
      (remaining + 1)).2 = final at hlevelled ⊢
    cases hlevelled with
    | cancelled => exact .cancelled hpolled.interrupted
    | nothing _ hempty =>
      rw [hempty, List.length_nil] at hwork
      rw [pending_succ, ← hwork, Nat.zero_mul] at hpolled
      exact hpolled.accounted hfirst
    | interrupted results next hcreated =>
      exact .cancelled (hpolled.broken hwork (haccount hcreated))
    | broken results next counted hcreated _ htally hbroken =>
      have hcounted := hpolled.tallied hwork hsize (haccount hcreated) firstError
      rw [hbelow] at htally
      rw [htally] at hcounted
      exact absurd hbroken (ne_true_of_eq_false hcounted.whole)
    | deeper results next counted hcreated hpoll htally =>
      have hcounted := hpolled.tallied hwork hsize (haccount hcreated) firstError
      rw [hbelow] at htally
      rw [htally] at hcounted
      exact ih (by omega) (hcounted.entry hfirst) (hpolled.counted hwork (haccount hcreated)
        (htoken.not_isSet_of_poll hpoll) hcounted)

end Levels

/-- Calls of a generation on a number of processors, in their order. -/
def callsOn (processors : Nat) (schedule : Nat → List Nat) (workplace : Workplace σ) (world : σ)
    (root : String) (layout : TreeLayout) : List (WorkCall σ) :=
  (runOn processors schedule workplace.recorded (world, []) root layout).2.calls

/-- Every directory of the layout is accounted for, whatever the processors, their turns, the
failures and the moment of a cancellation. -/
theorem every_directory_accounted {workplace : Workplace σ} {isSet : σ → Prop}
    (htoken : workplace.IsToken isSet)
    (hact : ∀ path world, (workplace.act path world).1 ≠ none) {layout : TreeLayout}
    (hvalid : layout.validate = .ok ()) (hdepth : layout.depth < 2 ^ 32)
    (hsize : ∑ level ∈ Finset.Icc 1 layout.depth, layout.breadth ^ level < 2 ^ 64)
    (processors : Nat) (schedule : Nat → List Nat) (world : σ) (root : String) :
    let calls := callsOn processors schedule workplace world root layout
    let (ending, running) := runOn processors schedule workplace world root layout
    let progress := running.progress
    ((ending = .returned ∨ ∃ path source, ending = .failed (.entry path source)) ∧
      progress.total = ∑ level ∈ Finset.Icc 1 layout.depth, layout.breadth ^ level ∧
      progress.done = calls.countP WorkCall.succeeded ∧
      progress.failed = calls.countP WorkCall.failed ∧
      progress.total = progress.done + progress.failed + progress.skipped ∧
      progress.processing = []) ∨
    (ending = .failed .cancelled ∧
      progress.done = calls.countP WorkCall.succeeded ∧
      progress.processing = [] ∧
      progress.done + progress.failed + progress.skipped ≤ progress.total) := by
  dsimp only
  rw [← TreeLayout.nodesBelow_eq_sum] at hsize ⊢
  have htotal : layout.total = TreeLayout.nodesBelow layout.breadth layout.depth :=
    layout.subtreeSize_eq hdepth hsize
  have hstart : Balanced (TreeLayout.nodesBelow layout.breadth layout.depth)
      (announced layout (world, ([] : List (WorkCall σ))))
      ([root].length * TreeLayout.nodesBelow layout.breadth layout.depth) := by
    refine ⟨htotal, rfl, rfl, rfl, ?_⟩
    rw [List.length_singleton, Nat.one_mul]
    exact Nat.zero_add _
  have hfirst : ∀ error, (none : Option OperationError) = some error → IsEntryError error := nofun
  have haccounted := createLevels_account htoken
    (fun remaining start work ↦ createShares_account hact htoken processors (schedule remaining)
      start work) hdepth hsize (Nat.le_refl _) hfirst hstart
  rw [runOn_recorded]
  unfold callsOn runOn runWith
  rw [hvalid]
  dsimp only
  revert haccounted
  generalize createLevels _ _ _ _ _ _ _ = run
  obtain ⟨ending, running⟩ := run
  rintro (h | ⟨_, ⟨path, source, rfl⟩, h⟩ | h)
  · exact .inl ⟨.inl rfl, h.total, h.done, h.failed, h.total.trans h.sum.symm, h.processing⟩
  · exact .inl ⟨.inr ⟨path, source, rfl⟩, h.total, h.done, h.failed, h.total.trans h.sum.symm,
      h.processing⟩
  · exact .inr ⟨rfl, h.done, h.processing, h.sum.trans h.total.ge⟩

theorem every_directory_accounted_refused :
    let layout : TreeLayout := ⟨2, 3, "d{level}_{index}"⟩
    let calls := callsOn 2 (fun _ ↦ [1, 0, 1]) (.refusing (· == "/root/d1_1")) false "/root" layout
    let (ending, running) := runOn 2 (fun _ ↦ [1, 0, 1]) (.refusing (· == "/root/d1_1")) false "/root" layout
    ending = .failed (.entry "/root/d1_1" (.permissionDenied "/root/d1_1")) ∧
      running.progress = ⟨14, 7, 1, 6, []⟩ ∧
      calls.countP WorkCall.succeeded = 7 ∧ calls.countP WorkCall.failed = 1 := by
  intro layout calls
  have hvalid : layout.validate = .ok () := by decide +kernel
  have haccounted := every_directory_accounted (Workplace.refusing_isToken (· == "/root/d1_1"))
    (Workplace.refusing_act_ne_none _) hvalid (by decide) (by decide) 2 (fun _ ↦ [1, 0, 1]) false
    "/root"
  have hrun : (runOn 2 (fun _ ↦ [1, 0, 1]) (.refusing (· == "/root/d1_1")) false "/root" layout).1 =
        .failed (.entry "/root/d1_1" (.permissionDenied "/root/d1_1")) ∧
      (runOn 2 (fun _ ↦ [1, 0, 1]) (.refusing (· == "/root/d1_1")) false "/root" layout).2.progress =
        ⟨14, 7, 1, 6, []⟩ := by
    decide +kernel
  dsimp only at haccounted ⊢
  rw [hrun.1, hrun.2] at haccounted
  rcases haccounted with ⟨-, -, hdone, hfailed, -, -⟩ | ⟨hcancelled, -⟩
  · exact ⟨hrun.1, hrun.2, hdone.symm, hfailed.symm⟩
  · cases hcancelled

end DirectoryBrowser.Generate
