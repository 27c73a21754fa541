import DirectoryBrowser.Proofs.Operation.Balancing
import DirectoryBrowser.Proofs.Operation.Lasting
import DirectoryBrowser.Proofs.Operation.Naming
import DirectoryBrowser.Proofs.Operation.Walk

/-!
# A generation asks once

A level asks for its own directories, and the levels below it for those of deeper
nodes. So the calls of a generation are for paths of nodes of the layout, and none
of them is made for more nodes than have that path. In a layout that was found valid
siblings have different names, which gives every node a path of its own.
-/

open scoped List

namespace DirectoryBrowser.Generate

section Levels

variable {σ : Type} {workplace : Workplace σ} {layout : TreeLayout}

/-- The levels that remain ask for their own nodes. The induction is on these levels; the frontier
above them is a part of its level, so that its children are a part of the next. -/
theorem createLevels_asks {createLevel : LevelRunner (σ × List (WorkCall σ))}
    (hlevel : ∀ remaining (start : Recorded σ) work,
      Asks start (createLevel remaining start work).2 work)
    (root : String) (start : Recorded σ) {frontier : List Node} (firstError : Option OperationError)
    {level remaining : Nat} (hdepth : level + remaining = layout.depth)
    (hfrontier : frontier <+ layout.nodesAt level) :
    Asks start
      (createLevels createLevel workplace.recorded layout start
        (frontier.map (layout.pathOf root)) firstError remaining).2
      (((List.range' level remaining).flatMap fun level ↦ layout.nodesAt (level + 1)).map
        (layout.pathOf root)) := by
  induction remaining generalizing start frontier firstError level with
  | zero => exact .nothing rfl
  | succ remaining ih =>
    have hlength : ∀ node ∈ frontier, node.length + (remaining + 1) = layout.depth := by
      intro node hnode
      rw [(TreeLayout.mem_nodesAt.mp (hfrontier.subset hnode)).1, hdepth]
    have hkids : layout.children frontier <+ layout.nodesAt (level + 1) :=
      hfrontier.flatMap _
    have hlevelled := createLevels_levelled_nodes createLevel workplace.recorded root start
      firstError hlength
    generalize layout.children frontier = kids at hkids hlevelled
    generalize (createLevels createLevel workplace.recorded layout start
      (frontier.map (layout.pathOf root)) firstError (remaining + 1)).1 = ending at hlevelled
    generalize (createLevels createLevel workplace.recorded layout start
      (frontier.map (layout.pathOf root)) firstError (remaining + 1)).2 = final at hlevelled ⊢
    rw [List.range'_succ, List.flatMap_cons, List.map_append]
    have hcreated {results : List (Except BackendError Unit)} {next after : Recorded σ}
        (hnext : createLevel remaining (start.poll workplace.recorded).2
          (kids.map (layout.pathOf root)) = (results, next))
        (hafter : after.calls = next.calls) :
        Asks start after ((layout.nodesAt (level + 1)).map (layout.pathOf root)) := by
      have hasks := hlevel remaining (start.poll workplace.recorded).2
        (kids.map (layout.pathOf root))
      rw [hnext] at hasks
      exact (hasks.same hafter).mono (hkids.map (layout.pathOf root)).subperm
    have hlast {after : Recorded σ}
        (hasks : Asks start after ((layout.nodesAt (level + 1)).map (layout.pathOf root))) :=
      hasks.mono (List.sublist_append_left _ (((List.range' (level + 1) remaining).flatMap
        fun level ↦ layout.nodesAt (level + 1)).map (layout.pathOf root))).subperm
    cases hlevelled with
    | cancelled => exact .nothing rfl
    | nothing => exact .nothing rfl
    | interrupted results next hnext => exact hlast (hcreated hnext rfl)
    | broken results next counted hnext _ htally =>
      apply hlast
      apply hcreated hnext
      rw [← htally]
      exact tally_calls (next.poll workplace.recorded).2 ..
    | deeper results next counted hnext _ htally =>
      have hcalls : counted.running.calls = next.calls := by
        rw [← htally]
        exact tally_calls (next.poll workplace.recorded).2 ..
      have hparents : counted.parents <+ kids.map (layout.pathOf root) := by
        rw [← htally]
        exact parents_tally_sublist ..
      obtain ⟨below, hbelow, hpaths⟩ := List.sublist_map_iff.mp hparents
      rw [hpaths]
      apply (hcreated hnext hcalls).append
      exact ih counted.running counted.firstError (by omega) (hbelow.trans hkids)

end Levels

/-- A generation asks for paths of nodes, for each at most as often as there are nodes with it. -/
theorem callsOn_subperm {σ : Type} (workplace : Workplace σ) (processors : Nat)
    (schedule : Nat → List Nat) (world : σ) (root : String) (layout : TreeLayout) :
    (callsOn processors schedule workplace world root layout).map WorkCall.path <+~
      layout.breadthFirst.map (layout.pathOf root) := by
  unfold callsOn runOn runWith
  split
  case h_1 => exact List.nil_subperm
  case h_2 =>
    have hfrontier : [[]] <+ layout.nodesAt 0 := List.Sublist.refl _
    obtain ⟨made, hcalls, hmade⟩ := createLevels_asks
      (fun remaining start work ↦
        createShares_asks processors (schedule remaining) workplace start work)
      root (announced layout (world, [])) none (Nat.zero_add layout.depth) hfrontier
    rw [← List.range_eq_range'] at hmade
    have hnone : (announced layout (world, ([] : List (WorkCall σ)))).calls = [] := rfl
    rw [hnone, List.nil_append] at hcalls
    exact hcalls.symm ▸ hmade

/-- Siblings have names of their own that can be joined to a path, and so no path is asked for
twice, whatever the processors, their turns, the failures and the moment of a cancellation. -/
theorem siblings_never_collide {layout : TreeLayout} (hvalid : layout.validate = .ok ()) :
    (∀ level, ∀ i ∈ Finset.Icc 1 layout.breadth, ∀ j ∈ Finset.Icc 1 layout.breadth, i ≠ j →
      layout.name level i ≠ layout.name level j) ∧
    (∀ level index, layout.name level index ≠ "" ∧ '/' ∉ (layout.name level index).toList) ∧
    ∀ {σ : Type} (workplace : Workplace σ) (processors : Nat) (schedule : Nat → List Nat)
      (world : σ) (root : String),
      ((callsOn processors schedule workplace world root layout).map WorkCall.path).Nodup := by
  obtain ⟨hname, -⟩ := TreeLayout.validate_eq_ok_iff.mp hvalid
  refine ⟨?_, TreeLayout.isName_name hname, ?_⟩
  · intro level i hi j hj hne hsame
    exact hne (TreeLayout.name_injOn hvalid level hi hj hsame)
  · intro σ workplace processors schedule world root
    have hpaths := TreeLayout.nodup_paths hvalid root
    obtain ⟨paths, hperm, hsub⟩ := callsOn_subperm workplace processors schedule world root layout
    exact hperm.nodup_iff.mp (hpaths.sublist hsub)

/-- The level is written in the middle of what would be a place of the index without it, and the
index stands next to a digit of the template. -/
theorem siblings_never_collide_spliced :
    let layout : TreeLayout := ⟨11, 2, "{in{level}dex}{index}1{index}"⟩
    let calls := callsOn 2 (fun _ ↦ [1, 0, 1]) (.refusing (· != "/root/{in1dex}111")) false
      "/root" layout
    layout.validate = .ok () ∧
      layout.name 1 1 = "{in1dex}111" ∧ layout.name 1 11 = "{in1dex}11111" ∧
      layout.name 1 1 ≠ layout.name 1 11 ∧ '/' ∉ (layout.name 1 11).toList ∧
      calls.length = 22 ∧ (calls.map WorkCall.path).Nodup := by
  intro layout calls
  have hvalid : layout.validate = .ok () := by decide +kernel
  obtain ⟨hnames, hproper, hcalls⟩ := siblings_never_collide hvalid
  exact ⟨hvalid, by decide +kernel, by decide +kernel,
    hnames 1 1 (by decide) 11 (by decide) (by decide), (hproper 1 11).2, by decide +kernel,
    hcalls _ 2 (fun _ ↦ [1, 0, 1]) false "/root"⟩

end DirectoryBrowser.Generate
