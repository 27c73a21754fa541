import DirectoryBrowser.Proofs.Operation.Accounting

/-!
# Counting the failures of a level

Once a level is created its failures are counted, each with what would have been
below it, and the first of them is kept. The counters of failures are the only
ones that can give out, and then the count breaks off.
-/

namespace DirectoryBrowser.Generate

variable {σ : Type}

/-- The error that an outcome is reported with. -/
def refusal? : String × Except BackendError Unit → Option OperationError
  | (_, .ok ()) => none
  | (path, .error error) => some (.entry path error)

theorem change_failure (below : Nat) (running : Running σ)
    (hfailed : running.progress.failed + 1 < Progress.limit)
    (hskipped : running.progress.skipped + below < Progress.limit) :
    ∃ next : Running σ,
      running.change (Progress.followedBy (Progress.addFailed 1) (Progress.addSkipped below)) =
        (false, next) ∧
      next.world = running.world ∧ next.progress = { running.progress with
        failed := running.progress.failed + 1
        skipped := running.progress.skipped + below } := by
  unfold Running.change Progress.followedBy Progress.addFailed Progress.addSkipped
  simp only [hfailed, hskipped, if_true, Bool.false_eq_true, if_false]
  exact ⟨_, rfl, rfl, rfl⟩

/-- Every failure of a level is counted once and writes off what is below it. -/
structure Counted (below : Nat) (running : Running σ) (firstError : Option OperationError)
    (outcomes : List (String × Except BackendError Unit)) (counted : Tally σ) : Prop where
  whole : counted.broken = false
  parents : counted.parents = (outcomes.filter fun outcome ↦ isCreated outcome.2).map Prod.fst
  world : counted.running.world = running.world
  progress : counted.running.progress = { running.progress with
    failed := running.progress.failed + (outcomes.map Prod.snd).countP isRefused
    skipped := running.progress.skipped + (outcomes.map Prod.snd).countP isRefused * below }
  first : counted.firstError = firstError.or (outcomes.findSome? refusal?)

theorem tally_counted (below : Nat) (outcomes : List (String × Except BackendError Unit))
    (running : Running σ) (firstError : Option OperationError)
    (hfailed : running.progress.failed + (outcomes.map Prod.snd).countP isRefused <
      Progress.limit)
    (hskipped : running.progress.skipped + (outcomes.map Prod.snd).countP isRefused * below <
      Progress.limit) :
    Counted below running firstError outcomes (tally below running firstError outcomes) := by
  induction outcomes generalizing running firstError with
  | nil => exact ⟨rfl, rfl, rfl, by simp [tally], (Option.or_none).symm⟩
  | cons outcome outcomes ih =>
    obtain ⟨path, result⟩ := outcome
    cases result with
    | ok _ =>
      have hrefused : (((path, .ok ()) :: outcomes).map Prod.snd).countP isRefused =
          (outcomes.map Prod.snd).countP isRefused := List.countP_cons_of_neg Bool.false_ne_true
      rw [hrefused] at hfailed hskipped
      have hcounted := ih running firstError hfailed hskipped
      constructor
      case whole => exact hcounted.whole
      case parents => rw [List.filter_cons_of_pos rfl, List.map_cons, ← hcounted.parents, tally]
      case world => exact hcounted.world
      case progress =>
        rw [hrefused]
        exact hcounted.progress
      case first => exact hcounted.first
    | error error =>
      have hrefused : (((path, .error error) :: outcomes).map Prod.snd).countP isRefused =
          (outcomes.map Prod.snd).countP isRefused + 1 := List.countP_cons_of_pos rfl
      rw [hrefused] at hfailed hskipped
      rw [Nat.succ_mul] at hskipped
      obtain ⟨next, hchange, hworld, hprogress⟩ :=
        change_failure below running (by omega) (by omega)
      have hcounted := ih next (firstError.or (some (.entry path error)))
        (by rw [hprogress]; dsimp only; omega) (by rw [hprogress]; dsimp only; omega)
      have htally : tally below running firstError ((path, .error error) :: outcomes) =
          tally below next (firstError.or (some (.entry path error))) outcomes := by
        simp only [tally, hchange, Bool.false_eq_true, if_false]
      rw [htally]
      constructor
      case whole => exact hcounted.whole
      case parents => rw [List.filter_cons_of_neg Bool.false_ne_true, hcounted.parents]
      case world => exact hcounted.world.trans hworld
      case progress =>
        rw [hcounted.progress, hprogress, hrefused, Nat.succ_mul]
        simp only [Progress.mk.injEq, true_and, and_true]
        omega
      case first =>
        rw [hcounted.first, Option.or_assoc]
        rfl

theorem not_fits_of_broken {below : Nat} {running : Running σ} {firstError : Option OperationError}
    {outcomes : List (String × Except BackendError Unit)}
    (h : (tally below running firstError outcomes).broken = true) :
    ¬ (running.progress.failed + (outcomes.map Prod.snd).countP isRefused < Progress.limit ∧
      running.progress.skipped + (outcomes.map Prod.snd).countP isRefused * below <
        Progress.limit) := by
  rintro ⟨hfailed, hskipped⟩
  have hcounted := tally_counted below outcomes running firstError hfailed hskipped
  exact absurd h (ne_true_of_eq_false hcounted.whole)

/-- A failure names the entry at which it happened, which sets it apart from a cancellation. -/
def IsEntryError (error : OperationError) : Prop :=
  ∃ path source, error = .entry path source

namespace Counted

variable {below : Nat} {running : Running σ} {firstError : Option OperationError}
  {outcomes : List (String × Except BackendError Unit)} {counted : Tally σ}

theorem length_parents (h : Counted below running firstError outcomes counted) :
    counted.parents.length = (outcomes.map Prod.snd).countP isCreated := by
  rw [h.parents, List.length_map, List.countP_map, List.countP_eq_length_filter]
  rfl

theorem entry (h : Counted below running firstError outcomes counted)
    (hfirst : ∀ error, firstError = some error → IsEntryError error) :
    ∀ error, counted.firstError = some error → IsEntryError error := by
  intro error herror
  rw [h.first, Option.or_eq_some_iff] at herror
  rcases herror with hearlier | ⟨-, hlater⟩
  · exact hfirst error hearlier
  · obtain ⟨⟨path, result⟩, -, hrefusal⟩ := List.exists_of_findSome?_eq_some hlater
    cases result with
    | ok _ => cases hrefusal
    | error source => exact ⟨path, source, (Option.some.inj hrefusal).symm⟩

end Counted

theorem change_world (running : Running σ) (f : Progress.Change) :
    (running.change f).2.world = running.world := by
  unfold Running.change
  dsimp only
  split
  · rfl
  · rfl

theorem tally_world (below : Nat) (running : Running σ) (firstError : Option OperationError)
    (outcomes : List (String × Except BackendError Unit)) :
    (tally below running firstError outcomes).running.world = running.world := by
  induction outcomes generalizing running firstError with
  | nil => rfl
  | cons outcome outcomes ih =>
    obtain ⟨path, result⟩ := outcome
    cases result with
    | ok _ => exact ih running firstError
    | error error =>
      unfold tally
      dsimp only
      split
      · exact change_world running _
      · exact (ih _ _).trans (change_world running _)

/-- Counting asks for nothing. -/
theorem tally_calls (running : Recorded σ) (below : Nat) (firstError : Option OperationError)
    (outcomes : List (String × Except BackendError Unit)) :
    (tally below running firstError outcomes).running.calls = running.calls :=
  congrArg Prod.snd (tally_world below running firstError outcomes)

/-- Only directories of the level that were created have others below them, whether or not the
count is whole. -/
theorem parents_tally_sublist (below : Nat) (running : Running σ)
    (firstError : Option OperationError) (work : List String)
    (results : List (Except BackendError Unit)) :
    (tally below running firstError (work.zip results)).parents.Sublist work := by
  induction work generalizing running firstError results with
  | nil => exact List.nil_sublist _
  | cons path work ih =>
    cases results with
    | nil => exact List.nil_sublist _
    | cons result results =>
      rw [List.zip_cons_cons]
      cases result with
      | ok _ => exact (ih running firstError results).cons_cons path
      | error error =>
        unfold tally
        dsimp only
        split
        · exact List.nil_sublist _
        · exact (ih _ _ results).cons path

/-- A failure that could be counted did fit. -/
theorem fits_of_change {below : Nat} {running : Running σ}
    (h : (running.change
      (Progress.followedBy (Progress.addFailed 1) (Progress.addSkipped below))).1 = false) :
    running.progress.failed + 1 < Progress.limit ∧
      running.progress.skipped + below < Progress.limit := by
  by_contra hover
  rcases not_and_or.mp hover with hfailed | hskipped
  · simp [Running.change, Progress.followedBy, Progress.addFailed, hfailed] at h
  · by_cases hfailed : running.progress.failed + 1 < Progress.limit
    · simp [Running.change, Progress.followedBy, Progress.addFailed, Progress.addSkipped, hfailed,
        hskipped] at h
    · simp [Running.change, Progress.followedBy, Progress.addFailed, hfailed] at h

theorem fits_of_tally {below : Nat} {running : Running σ} {firstError : Option OperationError}
    {outcomes : List (String × Except BackendError Unit)}
    (hfailed : running.progress.failed < Progress.limit)
    (hskipped : running.progress.skipped < Progress.limit)
    (h : (tally below running firstError outcomes).broken = false) :
    running.progress.failed + (outcomes.map Prod.snd).countP isRefused < Progress.limit ∧
      running.progress.skipped + (outcomes.map Prod.snd).countP isRefused * below <
        Progress.limit := by
  induction outcomes generalizing running firstError with
  | nil => simpa using ⟨hfailed, hskipped⟩
  | cons outcome outcomes ih =>
    obtain ⟨path, result⟩ := outcome
    cases result with
    | ok _ => exact ih hfailed hskipped h
    | error error =>
      have hrefused : (((path, .error error) :: outcomes).map Prod.snd).countP isRefused =
          (outcomes.map Prod.snd).countP isRefused + 1 := List.countP_cons_of_pos rfl
      unfold tally at h
      dsimp only at h
      split at h
      case isTrue => cases h
      case isFalse hwhole =>
        obtain ⟨hfailed, hskipped⟩ := fits_of_change (Bool.not_eq_true _ ▸ hwhole)
        obtain ⟨next, hchange, -, hprogress⟩ := change_failure below running hfailed hskipped
        rw [hchange] at h
        have hlater := ih (by rw [hprogress]; exact hfailed) (by rw [hprogress]; exact hskipped) h
        rw [hprogress] at hlater
        dsimp only at hlater
        rw [hrefused, Nat.succ_mul]
        omega

end DirectoryBrowser.Generate
