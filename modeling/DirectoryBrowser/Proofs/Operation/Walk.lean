import DirectoryBrowser.Operation.Workbench
import DirectoryBrowser.Proofs.Operation.Levels
import DirectoryBrowser.Proofs.Operation.Pruning
import DirectoryBrowser.Proofs.Operation.SoleWorker
import DirectoryBrowser.Proofs.Operation.Tallying

/-!
# The walk of a generation

With one processor the calls of a generation go through the layout in order. The
induction is on the levels: what a level leaves of its nodes is the frontier of
the next one, and which nodes fail is settled level by level, so that what is
settled on one level is not touched by those below it.

A counter that gives out breaks the walk off only in a build with overflow
checks, which is the one that is modelled. It wraps around otherwise, and the
walk goes on with a count that is too small.
-/

namespace DirectoryBrowser

variable {σ : Type}

/-- The error that a call is reported with if it fails. -/
def WorkCall.error? (call : WorkCall σ) : Option OperationError :=
  call.result.bind fun result ↦ Generate.refusal? (call.path, result)

namespace Generate

/-! ### One level -/

/-- The calls made for the directories of a level. Those that are left out are so because the
operation has been cancelled. -/
structure LevelWalk (isSet : σ → Prop) (start : Recorded σ) (paths : List String)
    (results : List (Except BackendError Unit)) (next : Recorded σ) (calls : List (WorkCall σ)) :
    Prop where
  recorded : next.calls = start.calls ++ calls
  made : calls.map (fun call ↦ (call.path, call.result)) <+: paths.zip (results.map some)
  whole : ¬ isSet next.world.1 → calls.length = paths.length
  length : results.length = paths.length
  failed : next.progress.failed = start.progress.failed
  skipped : next.progress.skipped = start.progress.skipped
  before : ∀ call ∈ calls, ¬ isSet call.before
  after : ∀ call ∈ calls, isSet call.after → isSet next.world.1
  stopped : isSet start.world.1 → calls = [] ∧ isSet next.world.1

namespace LevelWalk

variable {workplace : Workplace σ} {isSet : σ → Prop} {start next : Recorded σ}
  {paths : List String} {results : List (Except BackendError Unit)} {calls : List (WorkCall σ)}

theorem cancelled (path : String) (hset : isSet (start.poll workplace.recorded).2.world.1)
    (h : LevelWalk isSet (start.poll workplace.recorded).2 paths results next calls) :
    LevelWalk isSet start (path :: paths) (.error (.cancelled path) :: results) next [] := by
  obtain ⟨rfl, hnext⟩ := h.stopped hset
  exact {
    recorded := h.recorded
    made := List.nil_prefix
    whole := fun hunset ↦ absurd hnext hunset
    length := congrArg Nat.succ h.length
    failed := h.failed
    skipped := h.skipped
    before := nofun
    after := nofun
    stopped := fun _ ↦ ⟨rfl, hnext⟩ }

theorem called {begun acted ended : Recorded σ} {path : String}
    {result : Except BackendError Unit} (hunset : ¬ isSet begun.world.1)
    (hstart : isSet start.world.1 → isSet begun.world.1) (hbegun : begun.calls = start.calls)
    (hacted : acted.calls = begun.calls ++ [⟨path, some result, begun.world.1, acted.world.1⟩])
    (hended : ended.world = acted.world)
    (hfailed : ended.progress.failed = start.progress.failed)
    (hskipped : ended.progress.skipped = start.progress.skipped)
    (h : LevelWalk isSet ended paths results next calls) :
    LevelWalk isSet start (path :: paths) (result :: results) next
      (⟨path, some result, begun.world.1, acted.world.1⟩ :: calls) where
  recorded := by
    have hsame : ended.calls = acted.calls := congrArg Prod.snd hended
    rw [h.recorded, hsame, hacted, hbegun, List.append_assoc]
    rfl
  made := (List.prefix_cons_inj _).mpr h.made
  whole hlater := congrArg Nat.succ (h.whole hlater)
  length := congrArg Nat.succ h.length
  failed := h.failed.trans hfailed
  skipped := h.skipped.trans hskipped
  before := by
    rw [List.forall_mem_cons]
    exact ⟨hunset, h.before⟩
  after := by
    rw [List.forall_mem_cons]
    refine ⟨fun hset ↦ (h.stopped ?_).2, h.after⟩
    rwa [hended]
  stopped hset := absurd (hstart hset) hunset

theorem poll (h : LevelWalk isSet start paths results next calls)
    (htoken : workplace.IsToken isSet) :
    LevelWalk isSet start paths results (next.poll workplace.recorded).2 calls where
  recorded := h.recorded
  made := h.made
  whole hunset := h.whole (mt (htoken.poll next.world.1) hunset)
  length := h.length
  failed := h.failed
  skipped := h.skipped
  before := h.before
  after call hcall hset := htoken.poll next.world.1 (h.after call hcall hset)
  stopped hset := ⟨(h.stopped hset).1, htoken.poll next.world.1 (h.stopped hset).2⟩

theorem after_poll
    (h : LevelWalk isSet (start.poll workplace.recorded).2 paths results next calls)
    (htoken : workplace.IsToken isSet) : LevelWalk isSet start paths results next calls where
  recorded := h.recorded
  made := h.made
  whole := h.whole
  length := h.length
  failed := h.failed
  skipped := h.skipped
  before := h.before
  after := h.after
  stopped hset := h.stopped (htoken.poll start.world.1 hset)

end LevelWalk

theorem createPaths_walk {workplace : Workplace σ} {isSet : σ → Prop}
    (htoken : workplace.IsToken isSet) (hact : ∀ path world, (workplace.act path world).1 ≠ none)
    (start : Recorded σ) (paths : List String) :
    ∃ results calls, (createPaths workplace.recorded start paths).1 = some results ∧
      LevelWalk isSet start paths results (createPaths workplace.recorded start paths).2 calls := by
  induction paths generalizing start with
  | nil =>
    exact ⟨[], [], rfl, (List.append_nil _).symm, List.nil_prefix, fun _ ↦ rfl, rfl, rfl, rfl,
      nofun, nofun, fun hset ↦ ⟨rfl, hset⟩⟩
  | cons path paths ih =>
    cases hpoll : (start.poll workplace.recorded).1 with
    | true =>
      have hset : isSet (start.poll workplace.recorded).2.world.1 :=
        (htoken.poll_eq_true_iff start.world.1).mp hpoll
      obtain ⟨results, calls, hresults, hwalk⟩ := ih (start.poll workplace.recorded).2
      rw [createPaths_of_cancelled hpoll, hresults]
      exact ⟨_, _, rfl, hwalk.cancelled path hset⟩
    | false =>
      let begun := (start.poll workplace.recorded).2.beginItem path
      let acted := begun.act workplace.recorded path
      have hunset : ¬ isSet begun.world.1 := htoken.not_isSet_of_poll hpoll
      obtain ⟨result, hresult⟩ : ∃ result, acted.1 = some result :=
        Option.ne_none_iff_exists'.mp (hact path begun.world.1)
      let ended := acted.2.endItem path (countCreated (isCreated result))
      have hrecorded : acted.2.calls =
          begun.calls ++ [⟨path, some result, begun.world.1, acted.2.world.1⟩] := by
        rw [← hresult]
        rfl
      have hended : ended.world = acted.2.world := rfl
      have hprogress := endItem_progress acted.2 path (isCreated result)
      have hfailed : ended.progress.failed = start.progress.failed := by
        rw [hprogress]
        rfl
      have hskipped : ended.progress.skipped = start.progress.skipped := by
        rw [hprogress]
        rfl
      obtain ⟨results, calls, hresults, hwalk⟩ := ih ended
      have hrest : createRest workplace.recorded begun path paths =
          (some (result :: results), (createPaths workplace.recorded ended paths).2) := by
        unfold createRest
        dsimp only
        rw [hresult]
        dsimp only
        rw [hresults]
        rfl
      rw [createPaths_of_cleared hpoll, hrest]
      exact ⟨_, _, rfl, hwalk.called hunset (htoken.poll start.world.1) rfl hrecorded hended
        hfailed hskipped⟩

theorem createLevel_walk {workplace : Workplace σ} {isSet : σ → Prop}
    (htoken : workplace.IsToken isSet) (hact : ∀ path world, (workplace.act path world).1 ≠ none)
    (start : Recorded σ) (paths : List String) :
    ∃ calls, LevelWalk isSet start paths (createLevel workplace.recorded start paths).1
      (createLevel workplace.recorded start paths).2 calls := by
  obtain ⟨results, calls, hresults, hwalk⟩ := createPaths_walk htoken hact start paths
  refine ⟨calls, ?_⟩
  unfold createLevel
  dsimp only
  rwa [hresults, Option.getD_some]

/-! ### Verdicts -/

/-- What is found out about the nodes of a level does not concern the others. -/
theorem exists_verdicts {nodes : List Node} (hnodup : nodes.Nodup) (base : Node → Bool)
    (flags : List Bool) (hlength : flags.length = nodes.length) :
    ∃ fails : Node → Bool, nodes.map fails = flags ∧ ∀ node ∉ nodes, fails node = base node := by
  induction nodes generalizing flags with
  | nil => exact ⟨base, (List.length_eq_zero_iff.mp hlength).symm, fun _ _ ↦ rfl⟩
  | cons first nodes ih =>
    obtain ⟨hfirst, hnodup⟩ := List.nodup_cons.mp hnodup
    obtain ⟨flag, flags, rfl⟩ := List.exists_cons_of_length_eq_add_one hlength
    obtain ⟨fails, hmap, hother⟩ := ih hnodup flags (Nat.succ.inj hlength)
    refine ⟨fun node ↦ if node = first then flag else fails node, ?_, fun node hnode ↦ ?_⟩
    · rw [List.map_cons, if_pos rfl, ← hmap]
      refine congrArg _ (List.map_congr_left fun node hnode ↦ if_neg ?_)
      rintro rfl
      exact hfirst hnode
    · obtain ⟨hne, hnotin⟩ := not_or.mp (mt List.mem_cons.mpr hnode)
      exact (if_neg hne).trans (hother node hnotin)

theorem created_of_verdicts {nodes : List Node} {fails : Node → Bool}
    {results : List (Except BackendError Unit)} (path : Node → String)
    (h : nodes.map fails = results.map isRefused) :
    (((nodes.map path).zip results).filter fun outcome ↦ isCreated outcome.2).map Prod.fst =
      (nodes.filter fun node ↦ !fails node).map path := by
  induction nodes generalizing results with
  | nil => rfl
  | cons node nodes ih =>
    cases results with
    | nil => cases h
    | cons result results =>
      obtain ⟨hfirst, hrest⟩ := List.cons.inj h
      have hcreated : isCreated result = !fails node := by
        rw [hfirst]
        exact (Bool.not_not _).symm
      rw [List.map_cons, List.zip_cons_cons, List.filter_cons, List.filter_cons, hcreated]
      cases fails node with
      | true => exact ih hrest
      | false => exact congrArg _ (ih hrest)

theorem countP_of_verdicts {nodes : List Node} {fails : Node → Bool}
    {results : List (Except BackendError Unit)} (h : nodes.map fails = results.map isRefused) :
    results.countP isRefused = (nodes.filter fails).length := by
  have hresults : results.countP isRefused = (results.map isRefused).countP id := by
    rw [List.countP_map]
    rfl
  rw [hresults, ← h, List.countP_map, ← List.countP_eq_length_filter]
  rfl

/-! ### Counting the failures -/

/-- The failures are few enough to be counted, and so is what is lost below them. -/
def Fits (layout : TreeLayout) (failed skipped : Nat) (nodes : List Node) : Prop :=
  failed + nodes.length < Progress.limit ∧ skipped + layout.lost nodes < Progress.limit

theorem fits_append {layout : TreeLayout} {failed skipped : Nat} {nodes later : List Node} :
    Fits layout failed skipped (nodes ++ later) ↔
      Fits layout (failed + nodes.length) (skipped + layout.lost nodes) later := by
  unfold Fits
  rw [layout.lost_append, List.length_append, Nat.add_assoc, Nat.add_assoc]

/-- A count that was not broken off is whole, and leaves counters that more can be added to. -/
theorem counted_of_whole {layout : TreeLayout} {running : Running σ}
    (hfits : Fits layout running.progress.failed running.progress.skipped []) {below : Nat}
    {firstError : Option OperationError} {outcomes : List (String × Except BackendError Unit)}
    (hwhole : (tally below running firstError outcomes).broken = false) :
    Counted below running firstError outcomes (tally below running firstError outcomes) ∧
      Fits layout (tally below running firstError outcomes).running.progress.failed
        (tally below running firstError outcomes).running.progress.skipped [] := by
  have hfitted := fits_of_tally hfits.1 hfits.2 hwhole
  have hcounted := tally_counted _ _ running firstError hfitted.1 hfitted.2
  refine ⟨hcounted, ?_⟩
  rw [hcounted.progress]
  exact hfitted

theorem lost_level {layout : TreeLayout} {remaining : Nat} {nodes : List Node}
    (hlength : ∀ node ∈ nodes, node.length + remaining = layout.depth) :
    layout.lost nodes = nodes.length * layout.subtreeSize remaining := by
  have hsame : nodes.map (fun node ↦ layout.subtreeSize (layout.depth - node.length)) =
      nodes.map fun _ ↦ layout.subtreeSize remaining :=
    List.map_congr_left fun node hnode ↦ by
      rw [← hlength node hnode, Nat.add_sub_cancel_left]
  unfold TreeLayout.lost
  rw [hsame, List.map_const', List.sum_replicate_nat]

/-! ### All levels -/

/-- How a walk ends: it is whole, or the operation has been cancelled, or the failures could not
be counted any longer. -/
inductive Ended (isSet : σ → Prop) (layout : TreeLayout) (start : Recorded σ)
    (firstError : Option OperationError) (whole nodes failed : List Node)
    (calls : List (WorkCall σ)) (final : Recorded σ) : Ending → Prop
  | finished (hwhole : nodes = whole)
      (hfits : Fits layout start.progress.failed start.progress.skipped failed)
      (hset : isSet final.world.1 → calls = [] ∧ isSet start.world.1) :
      Ended isSet layout start firstError whole nodes failed calls final
        (endingOf (firstError.or (calls.findSome? WorkCall.error?)))
  | cancelled (hset : isSet final.world.1) :
      Ended isSet layout start firstError whole nodes failed calls final (.failed .cancelled)
  | broken (hunset : ¬ isSet final.world.1)
      (hover : ¬ Fits layout start.progress.failed start.progress.skipped failed) :
      Ended isSet layout start firstError whole nodes failed calls final .panicked

/-- The calls made for the nodes of a walk, from a start to its end. -/
structure Walked (isSet : σ → Prop) (layout : TreeLayout) (root : String) (start : Recorded σ)
    (firstError : Option OperationError) (whole : List Node) (fails : Node → Bool)
    (nodes : List Node) (calls : List (WorkCall σ)) (ending : Ending) (final : Recorded σ) :
    Prop where
  recorded : final.calls = start.calls ++ calls
  made : calls.map (fun call ↦ (call.path, call.failed)) =
    nodes.map fun node ↦ (layout.pathOf root node, fails node)
  inOrder : nodes <+: whole
  before : ∀ call ∈ calls, ¬ isSet call.before
  after : ∀ call ∈ calls, isSet call.after → isSet final.world.1
  ended : Ended isSet layout start firstError whole nodes (nodes.filter fails) calls final ending

section Levels

variable {workplace : Workplace σ} {isSet : σ → Prop} {layout : TreeLayout} {root : String}
  {start next : Recorded σ} {nodes : List Node} {fails : Node → Bool}
  {results : List (Except BackendError Unit)} {calls : List (WorkCall σ)}

theorem LevelWalk.made_nodes
    (h : LevelWalk isSet start (nodes.map (layout.pathOf root)) results next calls)
    (hfails : nodes.map fails = results.map isRefused) :
    calls.map (fun call ↦ (call.path, call.failed)) =
      (nodes.take calls.length).map fun node ↦ (layout.pathOf root node, fails node) := by
  have hmade := h.made.map fun answer ↦ (answer.1, answer.2.any isRefused)
  have hverdicts : ((nodes.map (layout.pathOf root)).zip (results.map some)).map
      (fun answer ↦ (answer.1, answer.2.any isRefused)) =
        nodes.map fun node ↦ (layout.pathOf root node, fails node) :=
    calc _
      _ = (nodes.map (layout.pathOf root)).zip (results.map isRefused) := by
        rw [List.zip_map_right, List.map_map, List.zip_map_right]
        rfl
      _ = _ := by rw [← hfails, List.zip_map']
  rw [hverdicts, List.map_map, List.prefix_iff_eq_take, List.length_map] at hmade
  rw [List.map_take, ← hmade]
  refine List.map_congr_left fun call _ ↦ ?_
  rw [WorkCall.failed_eq]
  rfl

theorem LevelWalk.first_error {paths : List String}
    (h : LevelWalk isSet start paths results next calls) (hunset : ¬ isSet next.world.1) :
    (paths.zip results).findSome? refusal? = calls.findSome? WorkCall.error? := by
  have hlength : (calls.map fun call ↦ (call.path, call.result)).length =
      (paths.zip (results.map some)).length := by
    rw [List.length_map, h.whole hunset, List.length_zip, List.length_map, h.length, Nat.min_self]
  have hmade := h.made.eq_of_length hlength
  calc (paths.zip results).findSome? refusal?
    _ = (paths.zip (results.map some)).findSome? fun answer ↦
        answer.2.bind fun result ↦ refusal? (answer.1, result) := by
      rw [List.zip_map_right, List.findSome?_map]
      rfl
    _ = calls.findSome? WorkCall.error? := by
      rw [← hmade, List.findSome?_map]
      rfl

theorem walked_nothing (fails : Node → Bool) (firstError : Option OperationError)
    (hfits : Fits layout start.progress.failed start.progress.skipped [])
    (hcalls : next.calls = start.calls) (hset : isSet next.world.1 → isSet start.world.1) :
    Walked isSet layout root start firstError [] fails [] [] (endingOf firstError) next where
  recorded := hcalls.trans (List.append_nil _).symm
  made := rfl
  inOrder := List.nil_prefix
  before := nofun
  after := nofun
  ended := by
    have hended : Ended isSet layout start firstError [] [] [] [] next
        (endingOf (firstError.or (([] : List (WorkCall σ)).findSome? WorkCall.error?))) :=
      .finished rfl hfits fun hfinal ↦ ⟨rfl, hset hfinal⟩
    rwa [List.findSome?_nil, Option.or_none] at hended

theorem walked_cancelled (fails : Node → Bool) (firstError : Option OperationError)
    (whole : List Node) (hcalls : next.calls = start.calls) (hset : isSet next.world.1) :
    Walked isSet layout root start firstError whole fails [] [] (.failed .cancelled) next where
  recorded := hcalls.trans (List.append_nil _).symm
  made := rfl
  inOrder := List.nil_prefix
  before := nofun
  after := nofun
  ended := .cancelled hset

theorem LevelWalk.interrupted
    (h : LevelWalk isSet start (nodes.map (layout.pathOf root)) results next calls)
    (hfails : nodes.map fails = results.map isRefused) (hset : isSet next.world.1)
    {whole : List Node} (hwhole : nodes <+: whole) (firstError : Option OperationError) :
    Walked isSet layout root start firstError whole fails (nodes.take calls.length) calls
      (.failed .cancelled) next where
  recorded := h.recorded
  made := h.made_nodes hfails
  inOrder := (List.take_prefix _ _).trans hwhole
  before := h.before
  after := h.after
  ended := .cancelled hset

theorem LevelWalk.take_nodes
    (h : LevelWalk isSet start (nodes.map (layout.pathOf root)) results next calls)
    (hunset : ¬ isSet next.world.1) : nodes.take calls.length = nodes := by
  rw [h.whole hunset, List.length_map, List.take_length]

theorem LevelWalk.broken
    (h : LevelWalk isSet start (nodes.map (layout.pathOf root)) results next calls)
    (hfails : nodes.map fails = results.map isRefused) (hunset : ¬ isSet next.world.1)
    (hover : ¬ Fits layout start.progress.failed start.progress.skipped (nodes.filter fails))
    {final : Recorded σ} (hfinal : final.world = next.world)
    {whole : List Node} (hwhole : nodes <+: whole) (firstError : Option OperationError) :
    Walked isSet layout root start firstError whole fails nodes calls .panicked final where
  recorded := by
    rw [← h.recorded]
    exact congrArg Prod.snd hfinal
  made := by
    rw [h.made_nodes hfails, h.take_nodes hunset]
  inOrder := hwhole
  before := h.before
  after := by
    rw [hfinal]
    exact h.after
  ended := .broken (by rwa [hfinal]) hover

theorem LevelWalk.counters
    (h : LevelWalk isSet start (nodes.map (layout.pathOf root)) results next calls)
    (hfails : nodes.map fails = results.map isRefused) {remaining : Nat}
    (hlength : ∀ node ∈ nodes, node.length + remaining = layout.depth) :
    next.progress.failed +
        (((nodes.map (layout.pathOf root)).zip results).map Prod.snd).countP isRefused =
      start.progress.failed + (nodes.filter fails).length ∧
    next.progress.skipped +
        (((nodes.map (layout.pathOf root)).zip results).map Prod.snd).countP isRefused *
          layout.subtreeSize remaining =
      start.progress.skipped + layout.lost (nodes.filter fails) := by
  have hlost : layout.lost (nodes.filter fails) =
      (nodes.filter fails).length * layout.subtreeSize remaining :=
    lost_level fun node hnode ↦ hlength node (List.mem_of_mem_filter hnode)
  rw [List.map_snd_zip (Nat.le_of_eq h.length), countP_of_verdicts hfails, h.failed, h.skipped, hlost]
  exact ⟨rfl, rfl⟩

theorem LevelWalk.not_fits
    (h : LevelWalk isSet start (nodes.map (layout.pathOf root)) results next calls)
    (hfails : nodes.map fails = results.map isRefused) {remaining : Nat}
    (hlength : ∀ node ∈ nodes, node.length + remaining = layout.depth)
    {firstError : Option OperationError}
    (hbroken : (tally (layout.subtreeSize remaining) next firstError
      ((nodes.map (layout.pathOf root)).zip results)).broken = true) :
    ¬ Fits layout start.progress.failed start.progress.skipped (nodes.filter fails) := by
  obtain ⟨hfailed, hskipped⟩ := h.counters hfails hlength
  have hover := not_fits_of_broken hbroken
  rwa [hfailed, hskipped] at hover

theorem LevelWalk.counted {paths : List String}
    (h : LevelWalk isSet start paths results next calls)
    (hfits : Fits layout start.progress.failed start.progress.skipped []) {below : Nat}
    {firstError : Option OperationError}
    (hwhole : (tally below next firstError (paths.zip results)).broken = false) :
    Counted below next firstError (paths.zip results)
        (tally below next firstError (paths.zip results)) ∧
      Fits layout (tally below next firstError (paths.zip results)).running.progress.failed
        (tally below next firstError (paths.zip results)).running.progress.skipped [] := by
  rw [← h.failed, ← h.skipped] at hfits
  exact counted_of_whole hfits hwhole

/-- A level that was finished, and the walk below it. -/
theorem LevelWalk.followed
    (h : LevelWalk isSet start (nodes.map (layout.pathOf root)) results next calls)
    (hfails : nodes.map fails = results.map isRefused) (hunset : ¬ isSet next.world.1)
    {remaining : Nat} (hlength : ∀ node ∈ nodes, node.length + remaining = layout.depth)
    {firstError : Option OperationError} {counted : Tally (σ × List (WorkCall σ))}
    (hcounted : Counted (layout.subtreeSize remaining) next firstError
      ((nodes.map (layout.pathOf root)).zip results) counted)
    {whole nodes' : List Node} {calls' : List (WorkCall σ)} {ending : Ending} {final : Recorded σ}
    (hlater : Walked isSet layout root counted.running counted.firstError whole fails nodes' calls'
      ending final) :
    Walked isSet layout root start firstError (nodes ++ whole) fails (nodes ++ nodes')
      (calls ++ calls') ending final := by
  have hcalls : counted.running.calls = next.calls := congrArg Prod.snd hcounted.world
  have hstart : ¬ isSet counted.running.world.1 := by rwa [hcounted.world]
  have hfits : Fits layout start.progress.failed start.progress.skipped
        ((nodes ++ nodes').filter fails) ↔
      Fits layout counted.running.progress.failed counted.running.progress.skipped
        (nodes'.filter fails) := by
    obtain ⟨hfailed, hskipped⟩ := h.counters hfails hlength
    rw [List.filter_append, fits_append, ← hfailed, ← hskipped, hcounted.progress]
  have hfirst : counted.firstError.or (calls'.findSome? WorkCall.error?) =
      firstError.or ((calls ++ calls').findSome? WorkCall.error?) := by
    rw [hcounted.first, h.first_error hunset, Option.or_assoc, List.findSome?_append]
  constructor
  case recorded => rw [hlater.recorded, hcalls, h.recorded, List.append_assoc]
  case made =>
    rw [List.map_append, List.map_append, hlater.made, h.made_nodes hfails, h.take_nodes hunset]
  case inOrder => exact (List.prefix_append_right_inj nodes).mpr hlater.inOrder
  case before => exact List.forall_mem_append.mpr ⟨h.before, hlater.before⟩
  case after =>
    refine List.forall_mem_append.mpr ⟨fun call hcall hset ↦ ?_, hlater.after⟩
    exact absurd (h.after call hcall hset) hunset
  case ended =>
    cases hlater.ended with
    | finished hwhole hlaterFits hset =>
      rw [hfirst]
      exact .finished (congrArg _ hwhole) (hfits.mpr hlaterFits)
        fun hfinal ↦ absurd (hset hfinal).2 hstart
    | cancelled hset => exact .cancelled hset
    | broken hfinal hover => exact .broken hfinal (mt hfits.mp hover)

/-- The verdicts of a level, and of those above it, are what the walk below it starts from. -/
theorem LevelWalk.deeper {verdicts : Node → Bool}
    (h : LevelWalk isSet start (nodes.map (layout.pathOf root)) results next calls)
    (hverdicts : nodes.map verdicts = results.map isRefused) (hunset : ¬ isSet next.world.1)
    {remaining : Nat} (hlength : ∀ node ∈ nodes, node.length + remaining = layout.depth)
    {firstError : Option OperationError} {counted : Tally (σ × List (WorkCall σ))}
    (hcounted : Counted (layout.subtreeSize remaining) next firstError
      ((nodes.map (layout.pathOf root)).zip results) counted)
    (hsame : ∀ node, node.length + remaining ≤ layout.depth → fails node = verdicts node)
    {nodes' : List Node} {calls' : List (WorkCall σ)} {ending : Ending} {final : Recorded σ}
    (hlater : Walked isSet layout root counted.running counted.firstError
      (layout.walk fails (nodes.filter fun node ↦ !verdicts node) remaining) fails nodes' calls'
      ending final) :
    Walked isSet layout root start firstError
      (nodes ++ layout.walk fails (nodes.filter fun node ↦ !fails node) remaining) fails
      (nodes ++ nodes') (calls ++ calls') ending final := by
  have hnodes : ∀ node ∈ nodes, fails node = verdicts node :=
    fun node hnode ↦ hsame node (Nat.le_of_eq (hlength node hnode))
  have hfrontier : (nodes.filter fun node ↦ !fails node) =
      nodes.filter fun node ↦ !verdicts node :=
    List.filter_congr fun node hnode ↦ congrArg _ (hnodes node hnode)
  rw [hfrontier]
  exact h.followed ((List.map_congr_left hnodes).trans hverdicts) hunset hlength hcounted hlater

/-- The calls for one level, with verdicts that leave the levels above as they were. -/
theorem createLevel_verdicts (htoken : workplace.IsToken isSet)
    (hact : ∀ path world, (workplace.act path world).1 ≠ none) (start : Recorded σ)
    (path : Node → String) (hnodup : nodes.Nodup) {remaining : Nat}
    (hlength : ∀ node ∈ nodes, node.length + remaining = layout.depth) (base : Node → Bool)
    (hcreated : createLevel workplace.recorded (start.poll workplace.recorded).2 (nodes.map path) =
      (results, next)) :
    ∃ calls fails, LevelWalk isSet start (nodes.map path) results (next.poll workplace.recorded).2
        calls ∧ nodes.map fails = results.map isRefused ∧
      ∀ node, node.length + (remaining + 1) ≤ layout.depth → fails node = base node := by
  obtain ⟨calls, hwalk⟩ := createLevel_walk htoken hact (start.poll workplace.recorded).2
    (nodes.map path)
  rw [hcreated] at hwalk
  have hverdicts : (results.map isRefused).length = nodes.length := by
    rw [List.length_map, hwalk.length, List.length_map]
  obtain ⟨fails, hfails, hbase⟩ := exists_verdicts hnodup base (results.map isRefused) hverdicts
  refine ⟨calls, fails, (hwalk.after_poll htoken).poll htoken, hfails, fun node hnode ↦ ?_⟩
  refine hbase node fun hmem ↦ ?_
  have hlevel := hlength node hmem
  omega

/-- The work of a level is that of the children of its nodes. -/
theorem createLevels_levelled_nodes (createLevel : LevelRunner σ) (workplace : Workplace σ)
    (root : String) (start : Running σ) (firstError : Option OperationError) {remaining : Nat}
    (hlength : ∀ node ∈ nodes, node.length + (remaining + 1) = layout.depth) :
    Levelled createLevel workplace layout start ((layout.children nodes).map (layout.pathOf root))
      firstError remaining
      (createLevels createLevel workplace layout start (nodes.map (layout.pathOf root)) firstError
        (remaining + 1)).1
      (createLevels createLevel workplace layout start (nodes.map (layout.pathOf root)) firstError
        (remaining + 1)).2 := by
  have hwork : workOf layout (layout.depth - remaining) (nodes.map (layout.pathOf root)) =
      (layout.children nodes).map (layout.pathOf root) :=
    layout.workOf_map_pathOf root fun node hnode ↦ by
      have hnode := hlength node hnode
      omega
  rw [← hwork]
  exact createLevels_levelled ..

theorem createLevels_walked (htoken : workplace.IsToken isSet)
    (hact : ∀ path world, (workplace.act path world).1 ≠ none) (root : String) {remaining : Nat}
    (start : Recorded σ) {frontier : List Node} (firstError : Option OperationError)
    (base : Node → Bool) (hnodup : frontier.Nodup)
    (hlength : ∀ node ∈ frontier, node.length + remaining = layout.depth)
    (hfits : Fits layout start.progress.failed start.progress.skipped []) :
    ∃ fails nodes calls, (∀ node, node.length + remaining ≤ layout.depth → fails node = base node) ∧
      Walked isSet layout root start firstError (layout.walk fails frontier remaining) fails nodes
        calls
        (createLevels (fun _ ↦ createLevel workplace.recorded) workplace.recorded layout start
          (frontier.map (layout.pathOf root)) firstError remaining).1
        (createLevels (fun _ ↦ createLevel workplace.recorded) workplace.recorded layout start
          (frontier.map (layout.pathOf root)) firstError remaining).2 := by
  induction remaining generalizing start frontier firstError base with
  | zero => exact ⟨base, [], [], fun _ _ ↦ rfl, walked_nothing base firstError hfits rfl id⟩
  | succ remaining ih =>
    have hbelow := layout.length_children hlength
    have hkids := layout.nodup_children hnodup
    have hlevelled := createLevels_levelled_nodes (fun _ ↦ createLevel workplace.recorded)
      workplace.recorded root start firstError hlength
    dsimp only [TreeLayout.walk]
    generalize layout.children frontier = kids at hbelow hkids hlevelled ⊢
    generalize (createLevels (fun _ ↦ createLevel workplace.recorded) workplace.recorded layout
      start (frontier.map (layout.pathOf root)) firstError (remaining + 1)).1 = ending
      at hlevelled ⊢
    generalize (createLevels (fun _ ↦ createLevel workplace.recorded) workplace.recorded layout
      start (frontier.map (layout.pathOf root)) firstError (remaining + 1)).2 = final
      at hlevelled ⊢
    cases hlevelled with
    | cancelled hpoll =>
      refine ⟨base, [], [], fun _ _ ↦ rfl, walked_cancelled base firstError _ rfl ?_⟩
      exact (htoken.poll_eq_true_iff start.world.1).mp hpoll
    | nothing hpoll hempty =>
      rw [List.map_eq_nil_iff.mp hempty]
      refine ⟨base, [], [], fun _ _ ↦ rfl, ?_⟩
      rw [List.filter_nil, TreeLayout.walk_nil]
      exact walked_nothing base firstError hfits rfl
        fun hset ↦ absurd hset (htoken.not_isSet_of_poll hpoll)
    | interrupted results next hcreated hpoll =>
      obtain ⟨calls, verdicts, hwalk, hverdicts, hagree⟩ :=
        createLevel_verdicts htoken hact start _ hkids hbelow base hcreated
      have hset := (htoken.poll_eq_true_iff next.world.1).mp hpoll
      exact ⟨verdicts, _, calls, hagree,
        hwalk.interrupted hverdicts hset (List.prefix_append _ _) firstError⟩
    | broken results next counted hcreated hpoll htally hbroken =>
      obtain ⟨calls, verdicts, hwalk, hverdicts, hagree⟩ :=
        createLevel_verdicts htoken hact start _ hkids hbelow base hcreated
      have hunset := htoken.not_isSet_of_poll hpoll
      subst htally
      have hover := hwalk.not_fits hverdicts hbelow hbroken
      exact ⟨verdicts, kids, calls, hagree, hwalk.broken hverdicts hunset hover (tally_world ..)
        (List.prefix_append _ _) firstError⟩
    | deeper results next counted hcreated hpoll htally hwhole =>
      obtain ⟨calls, verdicts, hwalk, hverdicts, hagree⟩ :=
        createLevel_verdicts htoken hact start _ hkids hbelow base hcreated
      have hunset := htoken.not_isSet_of_poll hpoll
      rw [← htally] at hwhole
      obtain ⟨hcounted, hcounters⟩ := hwalk.counted hfits hwhole
      rw [htally] at hcounted hcounters
      rw [hcounted.parents, created_of_verdicts _ hverdicts]
      obtain ⟨fails, nodes, later, hsame, hlater⟩ := ih counted.running counted.firstError
        verdicts (hkids.filter fun node ↦ !verdicts node)
        (fun node hnode ↦ hbelow node (List.mem_of_mem_filter hnode)) hcounters
      refine ⟨fails, kids ++ nodes, calls ++ later, fun node hnode ↦ ?_, ?_⟩
      · exact (hsame node (by omega)).trans (hagree node hnode)
      · exact hwalk.deeper hverdicts hunset hbelow hcounted hsame hlater

end Levels

section Runs

variable {workplace : Workplace σ} {isSet : σ → Prop} {layout : TreeLayout}

theorem run_walked (htoken : workplace.IsToken isSet)
    (hact : ∀ path world, (workplace.act path world).1 ≠ none)
    (hvalid : layout.validate = .ok ()) (world : σ) (root : String) :
    ∃ fails nodes calls, Walked isSet layout root (announced layout (world, [])) none
      (layout.pruned fails) fails nodes calls (run workplace.recorded (world, []) root layout).1
      (run workplace.recorded (world, []) root layout).2 := by
  have hlevel : ∀ node ∈ ([[]] : List Node), node.length + layout.depth = layout.depth := by simp
  have hlimit : 0 < Progress.limit := by decide
  obtain ⟨fails, nodes, calls, -, hwalked⟩ := createLevels_walked htoken hact root
    (announced layout (world, [])) none (fun _ ↦ false) (List.nodup_singleton []) hlevel
    ⟨hlimit, hlimit⟩
  refine ⟨fails, nodes, calls, ?_⟩
  unfold run runWith
  rw [hvalid, ← layout.walk_eq_pruned]
  exact hwalked

end Runs

/-- Calls of a generation that creates the directories in order. -/
def callsOf (workplace : Workplace σ) (world : σ) (root : String) (layout : TreeLayout) :
    List (WorkCall σ) :=
  (run workplace.recorded (world, []) root layout).2.calls

/-- The calls follow the pruned tree until the operation is cancelled. If it is not, they are made
for all of it, unless the failures can no longer be counted. -/
theorem walks_pruned_tree {workplace : Workplace σ} {isSet : σ → Prop}
    (htoken : workplace.IsToken isSet)
    (hact : ∀ path world, (workplace.act path world).1 ≠ none) {layout : TreeLayout}
    (hvalid : layout.validate = .ok ()) (world : σ) (root : String) :
    let calls := callsOf workplace world root layout
    let (ending, running) := run workplace world root layout
    ∃ (fails : Node → Bool) (nodes : List Node),
      nodes <+: layout.pruned fails ∧
      calls.map (fun call ↦ (call.path, call.failed)) =
        nodes.map (fun node ↦ (layout.pathOf root node, fails node)) ∧
      (∀ call ∈ calls, ¬ isSet call.before) ∧
      (∀ call ∈ calls, isSet call.after → ending = .failed .cancelled) ∧
      (¬ isSet running.world →
        if (nodes.filter fails).length < 2 ^ 64 ∧ layout.lost (nodes.filter fails) < 2 ^ 64 then
          nodes = layout.pruned fails ∧ ending = endingOf (calls.findSome? WorkCall.error?)
        else ending = .panicked) := by
  obtain ⟨fails, nodes, calls, hwalked⟩ := run_walked htoken hact hvalid world root
  have hcalls : callsOf workplace world root layout = calls := hwalked.recorded
  rw [run_recorded, hcalls]
  dsimp only
  generalize (run workplace.recorded (world, []) root layout).1 = ending at hwalked ⊢
  generalize (run workplace.recorded (world, []) root layout).2 = final at hwalked ⊢
  refine ⟨fails, nodes, hwalked.inOrder, hwalked.made, hwalked.before, ?_, ?_⟩
  · intro call hcall hset
    have hfinal := hwalked.after call hcall hset
    cases hwalked.ended with
    | finished _ _ hnone => exact absurd hcall ((hnone hfinal).1 ▸ List.not_mem_nil)
    | cancelled _ => rfl
    | broken hunset _ => exact absurd hfinal hunset
  · intro hunset
    have hfits : Fits layout 0 0 (nodes.filter fails) ↔
        (nodes.filter fails).length < 2 ^ 64 ∧ layout.lost (nodes.filter fails) < 2 ^ 64 := by
      unfold Fits
      rw [Nat.zero_add, Nat.zero_add]
      rfl
    cases hwalked.ended with
    | finished hwhole hcount _ =>
      rw [if_pos (hfits.mp hcount)]
      exact ⟨hwhole, rfl⟩
    | cancelled hset => exact absurd hset hunset
    | broken _ hover =>
      rw [if_neg (mt hfits.mpr hover)]

theorem walks_pruned_tree_refused :
    let layout : TreeLayout := ⟨2, 2, "d{level}_{index}"⟩
    let calls := callsOf (.refusing (· == "/root/d1_1")) false "/root" layout
    let (ending, _) := run (.refusing (· == "/root/d1_1")) false "/root" layout
    calls.map (fun call ↦ (call.path, call.failed)) = [("/root/d1_1", true), ("/root/d1_2", false),
      ("/root/d1_2/d2_1", false), ("/root/d1_2/d2_2", false)] ∧
    ending = .failed (.entry "/root/d1_1" (.permissionDenied "/root/d1_1")) ∧
    ∃ fails, calls.map (fun call ↦ (call.path, call.failed)) =
      (layout.pruned fails).map fun node ↦ (layout.pathOf "/root" node, fails node) := by
  intro layout calls
  have hvalid : layout.validate = .ok () := by decide +kernel
  have hcalls : calls.map (fun call ↦ (call.path, call.failed)) = [("/root/d1_1", true),
      ("/root/d1_2", false), ("/root/d1_2/d2_1", false), ("/root/d1_2/d2_2", false)] := by
    decide +kernel
  have hrun : (run (.refusing (· == "/root/d1_1")) false "/root" layout).1 =
        .failed (.entry "/root/d1_1" (.permissionDenied "/root/d1_1")) ∧
      (run (.refusing (· == "/root/d1_1")) false "/root" layout).2.world = false := by
    decide +kernel
  obtain ⟨fails, nodes, -, hmade, -, -, hwhole⟩ := walks_pruned_tree
    (Workplace.refusing_isToken (· == "/root/d1_1")) (Workplace.refusing_act_ne_none _) hvalid false
    "/root"
  refine ⟨hcalls, hrun.1, fails, ?_⟩
  have hended := hwhole (ne_true_of_eq_false hrun.2)
  split at hended
  · rw [← hended.1]
    exact hmade
  · cases hrun.1.symm.trans hended

/-- What is below one of two directories already fills the counter, so the second failure cannot
be counted, and with overflow checks the generation ends without an error that names an entry. -/
theorem pruned_walk_aborted :
    let layout : TreeLayout := ⟨2, 70, "d{level}_{index}"⟩
    let bench : Workbench := ⟨MemoryTree.default.withDirectory "/r", false, .empty, false, []⟩
    let calls := callsOf (Workbench.workplace .generateTree) bench "/nope" layout
    let (ending, running) := run (Workbench.workplace .generateTree) bench "/nope" layout
    layout.validate = .ok () ∧ running.world.cancelled = false ∧
      calls.map (fun call ↦ (call.path, call.result)) =
        [("/nope/d1_1", some (.error (.notFound "/nope"))),
          ("/nope/d1_2", some (.error (.notFound "/nope")))] ∧
      ending = .panicked ∧
      endingOf (calls.findSome? WorkCall.error?) =
        .failed (.entry "/nope/d1_1" (.notFound "/nope")) := by
  decide +kernel

end Generate

end DirectoryBrowser
