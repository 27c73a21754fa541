import DirectoryBrowser.Proofs.Operation.Balancing
import DirectoryBrowser.Proofs.Operation.Lasting
import DirectoryBrowser.Proofs.Operation.Walk

/-!
# How far the counters of a generation reach

What is announced of a tree is cut off at the largest counter, and so is what is
lost below one directory that could not be created. But the losses of several
directories are added up as they are, so the counter of skipped directories can
give out. `Reckoned` ties the counters to the calls that were made, level by
level: a generation breaks off exactly where the failures of the levels it has
finished, or what is lost below them, no longer fit. Trees whose directories can
all be counted are never among those.
-/

namespace DirectoryBrowser

variable {σ : Type}

/-! ### Bounds -/

/-- The counters are 64 bits wide, and no more is skipped than was announced. -/
structure Progress.InBounds (progress : Progress) : Prop where
  done : progress.done < 2 ^ 64
  failed : progress.failed < 2 ^ 64
  skipped : progress.skipped < 2 ^ 64
  announced : progress.skipped ≤ progress.total

theorem Progress.Precedes.inBounds {earlier later : Progress} (h : earlier.Precedes later)
    (hlater : later.InBounds) : earlier.InBounds where
  done := h.done.trans_lt hlater.done
  failed := h.failed.trans_lt hlater.failed
  skipped := h.skipped.trans_lt hlater.skipped
  announced := h.total ▸ h.skipped.trans hlater.announced

/-- What is shown last decides on all that was shown. -/
theorem Running.Follows.inBounds_iff {start : Progress} {running : Running σ}
    (h : running.Follows start) :
    (∀ progress ∈ running.progress :: running.reports, progress.InBounds) ↔
      running.progress.InBounds := by
  refine ⟨fun hall ↦ hall _ List.mem_cons_self, fun hlast ↦ ?_⟩
  refine List.forall_mem_cons.mpr ⟨hlast, fun report hreport ↦ ?_⟩
  exact (h.2 report hreport).inBounds hlast

namespace Generate

/-! ### One level -/

/-- What a level leaves behind, and the calls that were made for it. -/
structure LevelMade (isSet : σ → Prop) (start : Recorded σ) (work : List String)
    (results : List (Except BackendError Unit)) (next : Recorded σ) (made : List (WorkCall σ)) :
    Prop extends LevelAccount isSet start work results next where
  calls : next.calls = start.calls ++ made
  paths : ∀ call ∈ made, call.path ∈ work

namespace LevelMade

variable {workplace : Workplace σ} {isSet : σ → Prop} {start next : Recorded σ}
  {work : List String} {results : List (Except BackendError Unit)} {made : List (WorkCall σ)}

theorem poll (h : LevelMade isSet start work results next made) (htoken : workplace.IsToken isSet) :
    LevelMade isSet start work results (next.poll workplace.recorded).2 made where
  toLevelAccount := h.toLevelAccount.poll htoken
  calls := h.calls
  paths := h.paths

theorem after_poll
    (h : LevelMade isSet (start.poll workplace.recorded).2 work results next made) :
    LevelMade isSet start work results next made where
  toLevelAccount := ⟨h.length, h.progress, h.created, h.refused⟩
  calls := h.calls
  paths := h.paths

theorem countP_succeeded (h : LevelMade isSet start work results next made) :
    made.countP WorkCall.succeeded = results.countP isCreated := by
  have hcreated := h.created
  unfold Running.created at hcreated
  rw [h.calls, List.countP_append] at hcreated
  exact Nat.add_left_cancel hcreated

theorem countP_failed (h : LevelMade isSet start work results next made)
    (hunset : ¬ isSet next.world.1) :
    made.countP WorkCall.failed = results.countP isRefused := by
  have hrefused := h.refused hunset
  unfold Running.refused at hrefused
  rw [h.calls, List.countP_append] at hrefused
  exact Nat.add_left_cancel hrefused

end LevelMade

theorem createShares_made {workplace : Workplace σ} {isSet : σ → Prop}
    (hact : ∀ path world, (workplace.act path world).1 ≠ none)
    (htoken : workplace.IsToken isSet) (processors : Nat) (schedule : List Nat)
    (start : Recorded σ) (work : List String) (hfree : start.progress.processing = []) :
    ∃ made, LevelMade isSet start work
      (createShares processors schedule workplace.recorded start work).1
      (createShares processors schedule workplace.recorded start work).2 made := by
  obtain ⟨made, hcalls, hmade⟩ := createShares_asks processors schedule workplace start work
  have hpaths : ∀ call ∈ made, call.path ∈ work := fun _ hcall ↦
    hmade.subset (List.mem_map_of_mem hcall)
  have haccount := createShares_account hact htoken processors schedule start work hfree
  exact ⟨made, haccount, hcalls, hpaths⟩

/-- Paths of a level are those of its nodes. -/
theorem exists_nodes {nodes : List Node} {path : Node → String} {paths : List String}
    (h : ∀ other ∈ paths, other ∈ nodes.map path) :
    ∃ found : List Node, paths = found.map path ∧ ∀ node ∈ found, node ∈ nodes := by
  induction paths with
  | nil => exact ⟨[], rfl, nofun⟩
  | cons other paths ih =>
    obtain ⟨hother, hpaths⟩ := List.forall_mem_cons.mp h
    obtain ⟨node, hnode, rfl⟩ := List.mem_map.mp hother
    obtain ⟨found, rfl, hfound⟩ := ih hpaths
    exact ⟨node :: found, rfl, List.forall_mem_cons.mpr ⟨hnode, hfound⟩⟩

/-- The nodes of the directories that a level could not create. -/
theorem LevelMade.exists_lost {isSet : σ → Prop} {start next : Recorded σ} {layout : TreeLayout}
    {root : String} {kids : List Node} {results : List (Except BackendError Unit)}
    {made : List (WorkCall σ)}
    (h : LevelMade isSet start (kids.map (layout.pathOf root)) results next made)
    (hunset : ¬ isSet next.world.1) {remaining : Nat}
    (hlength : ∀ node ∈ kids, node.length + remaining = layout.depth) :
    ∃ lost : List Node,
      (made.filter WorkCall.failed).map WorkCall.path = lost.map (layout.pathOf root) ∧
      lost.length = results.countP isRefused ∧
      layout.lost lost = results.countP isRefused * layout.subtreeSize remaining := by
  have hpaths : ∀ path ∈ (made.filter WorkCall.failed).map WorkCall.path,
      path ∈ kids.map (layout.pathOf root) := by
    intro path hpath
    obtain ⟨call, hcall, rfl⟩ := List.mem_map.mp hpath
    exact h.paths call (List.mem_of_mem_filter hcall)
  obtain ⟨lost, hlost, hkids⟩ := exists_nodes hpaths
  have hcount : lost.length = results.countP isRefused := by
    rw [← h.countP_failed hunset, List.countP_eq_length_filter, ← List.length_map WorkCall.path,
      hlost, List.length_map]
  refine ⟨lost, hlost, hcount, ?_⟩
  rw [lost_level fun node hnode ↦ hlength node (hkids node hnode), hcount]

/-- The directories that were created stand for nodes of the level. -/
theorem exists_frontier {layout : TreeLayout} {root : String} {kids : List Node}
    {below : Nat} {running : Recorded σ} {firstError : Option OperationError}
    {results : List (Except BackendError Unit)} {counted : Tally (σ × List (WorkCall σ))}
    (h : Counted below running firstError ((kids.map (layout.pathOf root)).zip results) counted) :
    ∃ frontier : List Node, counted.parents = frontier.map (layout.pathOf root) ∧
      ∀ node ∈ frontier, node ∈ kids := by
  refine exists_nodes fun path hpath ↦ ?_
  rw [h.parents] at hpath
  obtain ⟨outcome, houtcome, rfl⟩ := List.mem_map.mp hpath
  exact (List.of_mem_zip (List.mem_of_mem_filter houtcome)).1

/-! ### All levels -/

/-- The counters from a start to an end, and the calls that were made in between: those of the
levels that were finished, among which `lost` are the nodes that failed, and those of the level
in which the operation was cancelled. `room` is what there is below the start. -/
structure Reckoned (isSet : σ → Prop) (layout : TreeLayout) (root : String) (start : Recorded σ)
    (room : Nat) (finished rest : List (WorkCall σ)) (lost : List Node) (ending : Ending)
    (final : Recorded σ) : Prop where
  calls : final.calls = start.calls ++ (finished ++ rest)
  done : final.progress.done =
    start.progress.done + (finished ++ rest).countP WorkCall.succeeded
  whole : ¬ isSet final.world.1 → rest = []
  failures : (finished.filter WorkCall.failed).map WorkCall.path = lost.map (layout.pathOf root)
  size : layout.depth < UInt32.size →
    (finished ++ rest).countP WorkCall.succeeded + lost.length + layout.lost lost ≤ room
  panicked : ending = .panicked ↔
    ¬ Fits layout start.progress.failed start.progress.skipped lost
  counters : ending ≠ .panicked →
    final.progress.failed = start.progress.failed + lost.length ∧
      final.progress.skipped = start.progress.skipped + layout.lost lost

theorem endingOf_ne_panicked (firstError : Option OperationError) :
    endingOf firstError ≠ .panicked := by
  cases firstError with
  | none => nofun
  | some error => nofun

section Levels

variable {workplace : Workplace σ} {isSet : σ → Prop} {layout : TreeLayout} {root : String}
  {start next : Recorded σ} {frontier kids : List Node} {remaining : Nat}
  {results : List (Except BackendError Unit)} {made : List (WorkCall σ)}

theorem reckoned_nothing (final : Recorded σ) (room : Nat)
    (hfits : Fits layout start.progress.failed start.progress.skipped [])
    (hcalls : final.calls = start.calls)
    (hprogress : final.progress = start.progress) {ending : Ending} (hending : ending ≠ .panicked) :
    Reckoned isSet layout root start room [] [] [] ending final where
  calls := hcalls.trans (List.append_nil _).symm
  done := by
    rw [hprogress]
    rfl
  whole _ := rfl
  failures := rfl
  size _ := Nat.zero_le _
  panicked := iff_of_false hending (not_not_intro hfits)
  counters _ := by
    rw [hprogress]
    exact ⟨rfl, rfl⟩

/-- The level in which the operation was cancelled is not counted. -/
theorem LevelMade.interrupted
    (h : LevelMade isSet start (kids.map (layout.pathOf root)) results next made)
    (hset : isSet next.world.1)
    (hfits : Fits layout start.progress.failed start.progress.skipped []) {room : Nat}
    (hroom : kids.length ≤ room) :
    Reckoned isSet layout root start room [] made [] (.failed .cancelled) next where
  calls := h.calls
  done := by
    rw [h.progress, List.nil_append, h.countP_succeeded]
  whole hunset := absurd hset hunset
  failures := rfl
  size _ := by
    have hcreated : results.countP isCreated ≤ kids.length := by
      rw [← List.length_map (layout.pathOf root), ← h.length]
      exact List.countP_le_length
    rw [List.nil_append, h.countP_succeeded]
    exact hcreated.trans hroom
  panicked := iff_of_false nofun (not_not_intro hfits)
  counters _ := by
    rw [h.progress]
    exact ⟨rfl, rfl⟩

/-- A level does not count its own failures. -/
theorem LevelMade.fits {work : List String} (h : LevelMade isSet start work results next made)
    (hfits : Fits layout start.progress.failed start.progress.skipped []) :
    Fits layout next.progress.failed next.progress.skipped [] := by
  rwa [h.progress]

/-- What a level has lost, as it is counted. -/
theorem LevelMade.fits_iff
    (h : LevelMade isSet start (kids.map (layout.pathOf root)) results next made)
    {lost : List Node} (hcount : lost.length = results.countP isRefused)
    (hlost : layout.lost lost = results.countP isRefused * layout.subtreeSize remaining) :
    Fits layout start.progress.failed start.progress.skipped lost ↔
      next.progress.failed +
          (((kids.map (layout.pathOf root)).zip results).map Prod.snd).countP isRefused <
        Progress.limit ∧
      next.progress.skipped +
          (((kids.map (layout.pathOf root)).zip results).map Prod.snd).countP isRefused *
            layout.subtreeSize remaining <
        Progress.limit := by
  unfold Fits
  rw [h.map_snd_zip, h.progress, hcount, hlost]

/-- A level and what is lost below it take no more room than there is. -/
theorem LevelMade.room
    (h : LevelMade isSet start (kids.map (layout.pathOf root)) results next made)
    (hkids : kids.length = frontier.length * layout.breadth)
    (hremaining : remaining + 1 ≤ layout.depth) (hdepth : layout.depth < UInt32.size) :
    results.countP isCreated + results.countP isRefused +
        results.countP isRefused * layout.subtreeSize remaining +
        results.countP isCreated * TreeLayout.nodesBelow layout.breadth remaining ≤
      frontier.length * TreeLayout.nodesBelow layout.breadth (remaining + 1) := by
  have hresults : results.countP isCreated + results.countP isRefused = kids.length := by
    rw [countP_isCreated_add_isRefused, h.length, List.length_map]
  have hlevels : remaining < UInt32.size := by omega
  have hbelow := Nat.mul_le_mul_left (results.countP isRefused) (layout.subtreeSize_le hlevels)
  have hsplit := pending_succ (frontier.map (layout.pathOf root)) layout remaining
  rw [List.length_map, ← hkids] at hsplit
  rw [hsplit, ← hresults, Nat.add_mul]
  omega

/-- A level whose failures, or what is lost below them, can no longer be counted. -/
theorem LevelMade.broken
    (h : LevelMade isSet start (kids.map (layout.pathOf root)) results next made)
    (hunset : ¬ isSet next.world.1)
    (hkids : kids.length = frontier.length * layout.breadth)
    (hlength : ∀ node ∈ kids, node.length + remaining = layout.depth)
    (hremaining : remaining + 1 ≤ layout.depth) {firstError : Option OperationError}
    (hbroken : (tally (layout.subtreeSize remaining) next firstError
      ((kids.map (layout.pathOf root)).zip results)).broken = true) :
    ∃ lost, Reckoned isSet layout root start
      (frontier.length * TreeLayout.nodesBelow layout.breadth (remaining + 1)) made [] lost
      .panicked
      (tally (layout.subtreeSize remaining) next firstError
        ((kids.map (layout.pathOf root)).zip results)).running := by
  obtain ⟨lost, hfailures, hcount, hlost⟩ := h.exists_lost hunset hlength
  have hover : ¬ Fits layout start.progress.failed start.progress.skipped lost := by
    rw [h.fits_iff hcount hlost]
    exact not_fits_of_broken hbroken
  refine ⟨lost, ?_⟩
  constructor
  case calls =>
    rw [List.append_nil, ← h.calls]
    exact tally_calls next ..
  case done =>
    rw [tally_done, h.progress, List.append_nil, h.countP_succeeded]
  case whole => exact fun _ ↦ rfl
  case failures => exact hfailures
  case size =>
    intro hdepth
    have hroom := h.room hkids hremaining hdepth
    rw [List.append_nil, h.countP_succeeded, hcount, hlost]
    omega
  case panicked => exact iff_of_true rfl hover
  case counters => exact fun hending ↦ absurd rfl hending

/-- A level that was finished, and what is made below it. -/
theorem LevelMade.followed
    (h : LevelMade isSet start (kids.map (layout.pathOf root)) results next made)
    (hunset : ¬ isSet next.world.1)
    (hkids : kids.length = frontier.length * layout.breadth)
    (hlength : ∀ node ∈ kids, node.length + remaining = layout.depth)
    (hremaining : remaining + 1 ≤ layout.depth) {firstError : Option OperationError}
    {counted : Tally (σ × List (WorkCall σ))}
    (hcounted : Counted (layout.subtreeSize remaining) next firstError
      ((kids.map (layout.pathOf root)).zip results) counted)
    {finished rest : List (WorkCall σ)} {lost : List Node} {ending : Ending} {final : Recorded σ}
    (hlater : Reckoned isSet layout root counted.running
      (counted.parents.length * TreeLayout.nodesBelow layout.breadth remaining) finished rest lost
      ending final) :
    ∃ lost, Reckoned isSet layout root start
      (frontier.length * TreeLayout.nodesBelow layout.breadth (remaining + 1)) (made ++ finished)
      rest lost ending final := by
  obtain ⟨above, hfailures, hcount, hlost⟩ := h.exists_lost hunset hlength
  have hcalls : counted.running.calls = next.calls := congrArg Prod.snd hcounted.world
  have hparents := hcounted.length_parents
  have hprogress := hcounted.progress
  rw [h.map_snd_zip] at hparents hprogress
  have hfailed : counted.running.progress.failed = start.progress.failed + above.length := by
    rw [hprogress, h.progress, hcount]
  have hskipped : counted.running.progress.skipped =
      start.progress.skipped + layout.lost above := by
    rw [hprogress, h.progress, hlost]
  have hsucceeded : (made ++ finished ++ rest).countP WorkCall.succeeded =
      results.countP isCreated + (finished ++ rest).countP WorkCall.succeeded := by
    rw [List.append_assoc, List.countP_append, h.countP_succeeded]
  refine ⟨above ++ lost, ?_⟩
  constructor
  case calls => rw [hlater.calls, hcalls, h.calls, List.append_assoc, List.append_assoc]
  case done =>
    rw [hlater.done, hprogress, h.progress, hsucceeded, Nat.add_assoc]
  case whole => exact hlater.whole
  case failures =>
    rw [List.filter_append, List.map_append, hfailures, hlater.failures, List.map_append]
  case size =>
    intro hdepth
    have hroom := h.room hkids hremaining hdepth
    have hbelow := hlater.size hdepth
    rw [hparents] at hbelow
    rw [hsucceeded, List.length_append, hcount, layout.lost_append, hlost]
    omega
  case panicked => rw [fits_append, ← hfailed, ← hskipped, hlater.panicked]
  case counters =>
    intro hending
    obtain ⟨hlaterFailed, hlaterSkipped⟩ := hlater.counters hending
    rw [hlaterFailed, hlaterSkipped, hfailed, hskipped, List.length_append, layout.lost_append,
      Nat.add_assoc, Nat.add_assoc]
    exact ⟨rfl, rfl⟩

theorem createLevels_reckoned {createLevel : LevelRunner (σ × List (WorkCall σ))}
    (root : String) (start : Recorded σ) (htoken : workplace.IsToken isSet)
    (hlevel : ∀ remaining (start : Recorded σ) work, start.progress.processing = [] →
      ∃ made, LevelMade isSet start work (createLevel remaining start work).1
        (createLevel remaining start work).2 made)
    (hremaining : remaining ≤ layout.depth) (firstError : Option OperationError)
    (hlength : ∀ node ∈ frontier, node.length + remaining = layout.depth)
    (hfree : start.progress.processing = [])
    (hfits : Fits layout start.progress.failed start.progress.skipped []) :
    ∃ finished rest lost, Reckoned isSet layout root start
      (frontier.length * TreeLayout.nodesBelow layout.breadth remaining) finished rest lost
      (createLevels createLevel workplace.recorded layout start
        (frontier.map (layout.pathOf root)) firstError remaining).1
      (createLevels createLevel workplace.recorded layout start
        (frontier.map (layout.pathOf root)) firstError remaining).2 := by
  induction remaining generalizing start frontier firstError with
  | zero =>
    exact ⟨[], [], [],
      reckoned_nothing start _ hfits rfl rfl (endingOf_ne_panicked firstError)⟩
  | succ remaining ih =>
    have hbelow := layout.length_children hlength
    have hkids : (layout.children frontier).length = frontier.length * layout.breadth := by
      simp [TreeLayout.children]
    have hlevelled := createLevels_levelled_nodes createLevel workplace.recorded root start
      firstError hlength
    generalize layout.children frontier = kids at hbelow hkids hlevelled
    have hnothing {ending : Ending} (hending : ending ≠ .panicked) :
        Reckoned isSet layout root start
          (frontier.length * TreeLayout.nodesBelow layout.breadth (remaining + 1)) [] [] [] ending
          (start.poll workplace.recorded).2 :=
      reckoned_nothing (start.poll workplace.recorded).2 _ hfits rfl rfl hending
    have hcreated {results : List (Except BackendError Unit)} {next : Recorded σ}
        (hnext : createLevel remaining (start.poll workplace.recorded).2
          (kids.map (layout.pathOf root)) = (results, next)) :
        ∃ made, LevelMade isSet start (kids.map (layout.pathOf root)) results
          (next.poll workplace.recorded).2 made := by
      obtain ⟨made, hmade⟩ := hlevel remaining (start.poll workplace.recorded).2
        (kids.map (layout.pathOf root)) hfree
      rw [hnext] at hmade
      exact ⟨made, hmade.after_poll.poll htoken⟩
    generalize (createLevels createLevel workplace.recorded layout start
      (frontier.map (layout.pathOf root)) firstError (remaining + 1)).1 = ending at hlevelled ⊢
    generalize (createLevels createLevel workplace.recorded layout start
      (frontier.map (layout.pathOf root)) firstError (remaining + 1)).2 = final at hlevelled ⊢
    cases hlevelled with
    | cancelled _ => exact ⟨[], [], [], hnothing (endingOf_ne_panicked (some .cancelled))⟩
    | nothing _ _ => exact ⟨[], [], [], hnothing (endingOf_ne_panicked firstError)⟩
    | interrupted results next hnext hpoll =>
      obtain ⟨made, hmade⟩ := hcreated hnext
      have hset := (htoken.poll_eq_true_iff next.world.1).mp hpoll
      refine ⟨[], made, [], hmade.interrupted hset hfits ?_⟩
      rw [hkids, TreeLayout.nodesBelow_succ, ← Nat.mul_assoc]
      exact Nat.le_mul_of_pos_right _ (by omega)
    | broken results next counted hnext hpoll htally hbroken =>
      obtain ⟨made, hmade⟩ := hcreated hnext
      subst htally
      obtain ⟨lost, hreckoned⟩ :=
        hmade.broken (htoken.not_isSet_of_poll hpoll) hkids hbelow hremaining hbroken
      exact ⟨made, [], lost, hreckoned⟩
    | deeper results next counted hnext hpoll htally hwhole =>
      obtain ⟨made, hmade⟩ := hcreated hnext
      have hunset := htoken.not_isSet_of_poll hpoll
      rw [← htally] at hwhole
      obtain ⟨hcounted, hfitted⟩ := counted_of_whole (hmade.fits hfits) hwhole
      rw [htally] at hcounted hfitted
      obtain ⟨frontier', hparents, hnodes⟩ := exists_frontier hcounted
      have hfreed : counted.running.progress.processing = [] := by
        rw [hcounted.progress, hmade.progress, hfree]
      obtain ⟨finished, rest, lost, hlater⟩ := ih counted.running (by omega) counted.firstError
        (fun node hnode ↦ hbelow node (hnodes node hnode)) hfreed hfitted
      rw [← hparents, ← List.length_map (layout.pathOf root), ← hparents] at hlater
      obtain ⟨lost, hreckoned⟩ := hmade.followed hunset hkids hbelow hremaining hcounted hlater
      exact ⟨made ++ finished, rest, lost, hreckoned⟩

end Levels

/-! ### Whole generations -/

section Runs

variable {workplace : Workplace σ} {isSet : σ → Prop} {layout : TreeLayout}

theorem runOn_reckoned (htoken : workplace.IsToken isSet)
    (hact : ∀ path world, (workplace.act path world).1 ≠ none)
    (hvalid : layout.validate = .ok ()) (processors : Nat) (schedule : Nat → List Nat) (world : σ)
    (root : String) :
    ∃ finished rest lost, Reckoned isSet layout root (announced layout (world, []))
      (TreeLayout.nodesBelow layout.breadth layout.depth) finished rest lost
      (runOn processors schedule workplace.recorded (world, []) root layout).1
      (runOn processors schedule workplace.recorded (world, []) root layout).2 := by
  have hlength : ∀ node ∈ ([[]] : List Node), node.length + layout.depth = layout.depth := by simp
  have hlimit : 0 < Progress.limit := by decide
  have hreckoned := createLevels_reckoned root (announced layout (world, [])) htoken
    (fun remaining start work hfree ↦
      createShares_made hact htoken processors (schedule remaining) start work hfree)
    (Nat.le_refl _) none hlength rfl ⟨hlimit, hlimit⟩
  rw [List.length_singleton, Nat.one_mul] at hreckoned
  unfold runOn runWith
  rw [hvalid]
  exact hreckoned

theorem runOn_follows (workplace : Workplace σ) (hvalid : layout.validate = .ok ())
    (processors : Nat) (schedule : Nat → List Nat) (world : σ) (root : String) :
    (runOn processors schedule workplace world root layout).2.Follows
      (announced layout world).progress := by
  have hlasts := lasts_follows workplace (announced layout world).progress
  have hstart : (announced layout world).Follows (announced layout world).progress :=
    ⟨.refl _, List.forall_mem_singleton.mpr (.refl _)⟩
  unfold runOn runWith
  rw [hvalid]
  refine hlasts.createLevels (fun remaining running work hrunning ↦ ?_) layout [root] none
    layout.depth hstart
  exact hlasts.createShares processors (schedule remaining) work hrunning

end Runs

namespace Reckoned

variable {isSet : σ → Prop} {layout : TreeLayout} {root : String} {world : σ}
  {finished rest : List (WorkCall σ)} {lost : List Node} {ending : Ending} {final : Recorded σ}
  {room : Nat}

theorem panicked_iff
    (h : Reckoned isSet layout root (announced layout (world, [])) room finished rest lost ending
      final) :
    ending = .panicked ↔ ¬ (lost.length < 2 ^ 64 ∧ layout.lost lost < 2 ^ 64) := by
  have hpanicked := h.panicked
  have hfailed : (announced layout (world, ([] : List (WorkCall σ)))).progress.failed = 0 := rfl
  have hskipped : (announced layout (world, ([] : List (WorkCall σ)))).progress.skipped = 0 := rfl
  unfold Fits at hpanicked
  rwa [hfailed, hskipped, Nat.zero_add, Nat.zero_add] at hpanicked

theorem inBounds_iff
    (h : Reckoned isSet layout root (announced layout (world, [])) room finished rest lost ending
      final)
    (hfollows : final.Follows (announced layout (world, ([] : List (WorkCall σ)))).progress) :
    (ending ≠ .panicked ∧
        ∀ progress ∈ final.progress :: final.reports, progress.InBounds) ↔
      (finished ++ rest).countP WorkCall.succeeded < 2 ^ 64 ∧ lost.length < 2 ^ 64 ∧
        layout.lost lost < 2 ^ 64 ∧ layout.lost lost ≤ layout.total := by
  have hpanicked := h.panicked_iff
  have hdone : final.progress.done = (finished ++ rest).countP WorkCall.succeeded :=
    h.done.trans (Nat.zero_add _)
  have htotal : final.progress.total = layout.total := hfollows.1.total.symm
  rw [hfollows.inBounds_iff]
  by_cases hending : ending = .panicked
  case pos =>
    refine iff_of_false (fun hbounds ↦ hbounds.1 hending) ?_
    rintro ⟨-, hlength, hlost, -⟩
    exact hpanicked.mp hending ⟨hlength, hlost⟩
  case neg =>
    obtain ⟨hfailed, hskipped⟩ := h.counters hending
    have hfailed : final.progress.failed = lost.length := hfailed.trans (Nat.zero_add _)
    have hskipped : final.progress.skipped = layout.lost lost := hskipped.trans (Nat.zero_add _)
    rw [← hdone, ← hfailed, ← hskipped, ← htotal]
    exact ⟨fun ⟨_, hbounds⟩ ↦ ⟨hbounds.done, hbounds.failed, hbounds.skipped, hbounds.announced⟩,
      fun ⟨hdone, hfailed, hskipped, hannounced⟩ ↦
        ⟨hending, hdone, hfailed, hskipped, hannounced⟩⟩

/-- Nothing is lost twice, so what is lost exceeds what was announced only beyond the counters. -/
theorem lost_le_total
    (h : Reckoned isSet layout root (announced layout (world, []))
      (TreeLayout.nodesBelow layout.breadth layout.depth) finished rest lost ending final)
    (hdepth : layout.depth < 2 ^ 32) (hlost : layout.lost lost < 2 ^ 64) :
    layout.lost lost ≤ layout.total := by
  have hsize := h.size hdepth
  have htotal : layout.total =
      min (TreeLayout.nodesBelow layout.breadth layout.depth) (Progress.limit - 1) :=
    layout.subtreeSize_eq_min hdepth
  have hlimit : Progress.limit = 2 ^ 64 := rfl
  rw [htotal]
  omega

end Reckoned

/-- No counter gives out, and none counts more than was announced, exactly where the failed
directories and what is lost below them can be counted. Trees that can be counted are all so. -/
theorem counters_fit_iff {workplace : Workplace σ} {isSet : σ → Prop}
    (htoken : workplace.IsToken isSet)
    (hact : ∀ path world, (workplace.act path world).1 ≠ none) {layout : TreeLayout}
    (hvalid : layout.validate = .ok ()) (processors : Nat) (schedule : Nat → List Nat) (world : σ)
    (root : String) :
    let calls := callsOn processors schedule workplace world root layout
    let (ending, running) := runOn processors schedule workplace world root layout
    ∃ (finished rest : List (WorkCall σ)) (lost : List Node),
      calls = finished ++ rest ∧
      (¬ isSet running.world → rest = []) ∧
      (finished.filter WorkCall.failed).map WorkCall.path = lost.map (layout.pathOf root) ∧
      (ending = .panicked ↔ ¬ (lost.length < 2 ^ 64 ∧ layout.lost lost < 2 ^ 64)) ∧
      ((ending ≠ .panicked ∧
          ∀ progress ∈ running.progress :: running.reports, progress.InBounds) ↔
        calls.countP WorkCall.succeeded < 2 ^ 64 ∧ lost.length < 2 ^ 64 ∧
          layout.lost lost < 2 ^ 64 ∧ layout.lost lost ≤ layout.total) ∧
      (layout.depth < 2 ^ 32 → layout.lost lost < 2 ^ 64 →
        layout.lost lost ≤ layout.total) ∧
      (layout.depth < 2 ^ 32 →
        ∑ level ∈ Finset.Icc 1 layout.depth, layout.breadth ^ level < 2 ^ 64 →
        ending ≠ .panicked ∧
          ∀ progress ∈ running.progress :: running.reports, progress.InBounds) := by
  obtain ⟨finished, rest, lost, hreckoned⟩ :=
    runOn_reckoned htoken hact hvalid processors schedule world root
  have hfollows := runOn_follows workplace.recorded hvalid processors schedule (world, []) root
  have hcalls : callsOn processors schedule workplace world root layout = finished ++ rest :=
    hreckoned.calls
  have hbounds := hreckoned.inBounds_iff hfollows
  rw [runOn_recorded, hcalls]
  dsimp only
  refine ⟨finished, rest, lost, rfl, hreckoned.whole, hreckoned.failures, hreckoned.panicked_iff,
    hbounds, hreckoned.lost_le_total, fun hdepth hsum ↦ ?_⟩
  rw [← TreeLayout.nodesBelow_eq_sum] at hsum
  have hsize := hreckoned.size hdepth
  have hlost : layout.lost lost < 2 ^ 64 := by omega
  refine hbounds.mpr ⟨by omega, by omega, hlost, ?_⟩
  exact hreckoned.lost_le_total hdepth hlost

theorem counters_fit_refused :
    let layout : TreeLayout := ⟨2, 3, "d{level}_{index}"⟩
    let (ending, running) :=
      runOn 2 (fun _ ↦ [1, 0, 1]) (.refusing (· == "/root/d1_1")) false "/root" layout
    running.progress = ⟨14, 7, 1, 6, []⟩ ∧ ending ≠ .panicked ∧
      ∀ progress ∈ running.progress :: running.reports, progress.InBounds := by
  intro layout
  have hvalid : layout.validate = .ok () := by decide +kernel
  obtain ⟨finished, rest, lost, -, -, -, -, -, -, hbounds⟩ := counters_fit_iff
    (Workplace.refusing_isToken (· == "/root/d1_1")) (Workplace.refusing_act_ne_none _) hvalid 2
    (fun _ ↦ [1, 0, 1]) false "/root"
  exact ⟨by decide +kernel, hbounds (by decide) (by decide)⟩

/-- What is below each of three directories can be counted, but not what is below two. -/
theorem skipped_gives_out :
    let layout : TreeLayout := ⟨3, 41, "d{level}_{index}"⟩
    let bench : Workbench := ⟨MemoryTree.default.withDirectory "/r", false, .empty, false, []⟩
    let (ending, running) :=
      runOn 1 (fun _ ↦ []) (Workbench.workplace .generateTree) bench "/nope" layout
    layout.validate = .ok () ∧ running.world.cancelled = false ∧
      running.progress.failed = 2 ∧ running.progress.skipped = layout.subtreeSize 40 ∧
      layout.subtreeSize 40 = TreeLayout.nodesBelow 3 40 ∧
      2 ^ 64 ≤ running.progress.skipped + layout.subtreeSize 40 ∧ ending = .panicked := by
  decide +kernel

/-- Levels are counted in 32 bits, so of a deeper tree more can be lost than was announced. -/
example :
    let layout : TreeLayout := ⟨1, 2 ^ 32 + 1, "d"⟩
    let (ending, running) :=
      runOn 1 (fun _ ↦ []) (.refusing (· == "/root/d/d")) false "/root" layout
    ending = .failed (.entry "/root/d/d" (.permissionDenied "/root/d/d")) ∧
      running.progress = ⟨1, 1, 1, 2 ^ 32 - 1, []⟩ := by
  decide +kernel

end Generate

end DirectoryBrowser
