import DirectoryBrowser.Operation.Delete
import DirectoryBrowser.Proofs.Operation.Recording

/-!
# The course of a deletion

A deletion goes through its paths until one of three things stops it: the token
is seen to be set before a path, a call comes back cancelled, or a call fails
otherwise. `Course` says so of the calls alone, without the counters. Whatever
the course, the counters follow from the calls that were made and from how the
deletion came back, and they always add up.
-/

namespace DirectoryBrowser.Delete

variable {σ τ : Type}

/-- A call made for a path, after a look at the token that has shown it unset. -/
structure Made (workplace : Workplace σ) (world : σ) (path : String) (call : WorkCall σ) :
    Prop where
  looked : workplace.poll world = (false, call.before)
  asked : call.path = path
  answered : workplace.act path call.before = (call.result, call.after)

/-- How a deletion goes through its paths, from the world it finds. -/
inductive Course (workplace : Workplace σ) :
    σ → List String → List (WorkCall σ) → Ending → Prop
  | finished (world : σ) : Course workplace world [] [] .returned
  | cancelled {world : σ} {path : String} {paths : List String}
      (hpoll : (workplace.poll world).1 = true) :
      Course workplace world (path :: paths) [] (.failed .cancelled)
  | interrupted {world : σ} {path : String} {paths : List String} {call : WorkCall σ}
      {error : BackendError} (hmade : Made workplace world path call)
      (hresult : call.result = some (.error error)) (hcancelled : error.isCancelled = true) :
      Course workplace world (path :: paths) [call] (.failed .cancelled)
  | failed {world : σ} {path : String} {paths : List String} {call : WorkCall σ}
      {error : BackendError} (hmade : Made workplace world path call)
      (hresult : call.result = some (.error error)) (hother : error.isCancelled = false) :
      Course workplace world (path :: paths) [call] (.failed (.entry path error))
  | deleted {world : σ} {path : String} {paths : List String} {call : WorkCall σ}
      {calls : List (WorkCall σ)} {ending : Ending} (hmade : Made workplace world path call)
      (hresult : call.result = some (.ok ()))
      (hlater : Course workplace call.after paths calls ending) :
      Course workplace world (path :: paths) (call :: calls) ending

/-- The counters at the end, where all but the last of the calls have been counted. -/
def settled (progress : Progress) : Ending → Progress
  | .failed (.entry _ _) => { progress with
      failed := progress.failed + 1
      skipped := progress.total - progress.done - (progress.failed + 1) }
  | _ => progress

/-! ### The counters on the way -/

theorem withoutItem_begun {progress : Progress} (hfree : progress.processing = [])
    (item : String) : Progress.withoutItem item
      { progress with processing := progress.processing ++ [item] } = progress := by
  obtain ⟨total, done, failed, skipped, processing⟩ := progress
  obtain rfl : processing = [] := hfree
  simp [Progress.withoutItem]

theorem skipRest_of_le {progress : Progress}
    (hroom : progress.done + (progress.failed + 1) ≤ progress.total) (path : String)
    (error : BackendError) :
    Progress.skipRest progress = (settled progress (.failed (.entry path error)), false) := by
  simp only [Progress.skipRest, settled, hroom, if_true]

section Paths

variable {workplace : Workplace σ} {path : String} {paths : List String}

/-- The operation while the call for a path is being made. -/
def begun (workplace : Workplace σ) (start : Recorded σ) (path : String) : Recorded σ :=
  (start.poll workplace.recorded).2.beginItem path

/-- The operation when that call has come back. -/
def acted (workplace : Workplace σ) (start : Recorded σ) (path : String) : Recorded σ :=
  ((begun workplace start path).act workplace.recorded path).2

def callFor (workplace : Workplace σ) (start : Recorded σ) (path : String) : WorkCall σ :=
  ⟨path, ((begun workplace start path).act workplace.recorded path).1,
    (begun workplace start path).world.1, (acted workplace start path).world.1⟩

theorem callFor_made {start : Recorded σ} (hpoll : (start.poll workplace.recorded).1 = false) :
    Made workplace start.world.1 path (callFor workplace start path) where
  looked := Prod.ext hpoll rfl
  asked := rfl
  answered := rfl

theorem calls_acted (workplace : Workplace σ) (start : Recorded σ) (path : String) :
    (acted workplace start path).calls = start.calls ++ [callFor workplace start path] := rfl

theorem acted_withoutItem {start : Recorded σ} (hfree : start.progress.processing = []) :
    (acted workplace start path).progress.withoutItem path = start.progress := by
  have hacted : (acted workplace start path).progress =
      { start.progress with processing := start.progress.processing ++ [path] } := rfl
  rw [hacted, withoutItem_begun hfree]

theorem acted_endItem {start : Recorded σ} (hfree : start.progress.processing = [])
    (f : Progress → Progress) :
    ((acted workplace start path).endItem path f).progress = f start.progress := by
  have hended : ((acted workplace start path).endItem path f).progress =
      f ((acted workplace start path).progress.withoutItem path) := rfl
  rw [hended, acted_withoutItem hfree]

/-- What becomes of a deletion with the path that is next, by what the token and the call say. -/
theorem deletePaths_of_cancelled {start : Recorded σ}
    (hpoll : (start.poll workplace.recorded).1 = true) :
    deletePaths workplace.recorded start (path :: paths) =
      (.failed .cancelled, (start.poll workplace.recorded).2) := by
  simp only [deletePaths, hpoll, if_true]

theorem deletePaths_of_deleted {start : Recorded σ}
    (hpoll : (start.poll workplace.recorded).1 = false)
    (hresult : (callFor workplace start path).result = some (.ok ())) :
    deletePaths workplace.recorded start (path :: paths) =
      deletePaths workplace.recorded ((acted workplace start path).endItem path countDone)
        paths := by
  unfold callFor begun at hresult
  dsimp only at hresult
  simp only [deletePaths, hpoll, Bool.false_eq_true, if_false, hresult]
  rfl

theorem deletePaths_of_interrupted {start : Recorded σ} {error : BackendError}
    (hpoll : (start.poll workplace.recorded).1 = false)
    (hresult : (callFor workplace start path).result = some (.error error))
    (hcancelled : error.isCancelled = true) :
    deletePaths workplace.recorded start (path :: paths) =
      (.failed .cancelled, (acted workplace start path).endItem path id) := by
  unfold callFor begun at hresult
  dsimp only at hresult
  simp only [deletePaths, hpoll, Bool.false_eq_true, if_false, hresult, hcancelled, if_true]
  rfl

theorem deletePaths_of_failed {start : Recorded σ} {error : BackendError}
    (hpoll : (start.poll workplace.recorded).1 = false)
    (hresult : (callFor workplace start path).result = some (.error error))
    (hother : error.isCancelled = false) (hfree : start.progress.processing = [])
    (hroom : start.progress.done + (start.progress.failed + 1) ≤ start.progress.total) :
    deletePaths workplace.recorded start (path :: paths) =
      (.failed (.entry path error), { (acted workplace start path) with
        progress := settled start.progress (.failed (.entry path error))
        reports := (acted workplace start path).reports ++
          [settled start.progress (.failed (.entry path error))] }) := by
  have hskip : Progress.skipRest ((acted workplace start path).progress.withoutItem path) =
      (settled start.progress (.failed (.entry path error)), false) := by
    rw [acted_withoutItem hfree, skipRest_of_le hroom]
  unfold callFor begun at hresult
  unfold acted begun at hskip
  dsimp only at hresult
  simp only [deletePaths, hpoll, Bool.false_eq_true, if_false, hresult, hother, Running.change,
    hskip]
  rfl

end Paths

/-- The calls, the ending and the counters of a deletion. The room left in the counters is what
keeps the count of the rest from breaking off. -/
theorem deletePaths_course {workplace : Workplace σ}
    (hact : ∀ path world, (workplace.act path world).1 ≠ none) (start : Recorded σ)
    (paths : List String) (hfree : start.progress.processing = [])
    (hroom : start.progress.done + start.progress.failed + paths.length ≤ start.progress.total) :
    ∃ ending final calls, deletePaths workplace.recorded start paths = (ending, final) ∧
      Course workplace start.world.1 paths calls ending ∧
      final.calls = start.calls ++ calls ∧
      final.progress = settled { start.progress with
        done := start.progress.done + calls.countP WorkCall.succeeded } ending := by
  induction paths generalizing start with
  | nil => exact ⟨_, _, [], rfl, .finished _, (List.append_nil _).symm, rfl⟩
  | cons path paths ih =>
    rw [List.length_cons] at hroom
    cases hpoll : (start.poll workplace.recorded).1 with
    | true =>
      rw [deletePaths_of_cancelled hpoll]
      exact ⟨_, _, [], rfl, .cancelled hpoll, (List.append_nil _).symm, rfl⟩
    | false =>
      have hmade : Made workplace start.world.1 path (callFor workplace start path) :=
        callFor_made hpoll
      obtain ⟨result, hresult⟩ :
          ∃ result, (callFor workplace start path).result = some result :=
        Option.ne_none_iff_exists'.mp (hact path _)
      cases result with
      | ok _ =>
        let ended := (acted workplace start path).endItem path countDone
        have hprogress : ended.progress =
            { start.progress with done := start.progress.done + 1 } := acted_endItem hfree countDone
        obtain ⟨ending, final, calls, hrun, hcourse, hcalls, hfinal⟩ :=
          ih ended (by rw [hprogress]; exact hfree) (by rw [hprogress]; dsimp only; omega)
        have hsucceeded : (callFor workplace start path).succeeded = true := by
          simp only [WorkCall.succeeded, hresult]
        rw [deletePaths_of_deleted hpoll hresult]
        refine ⟨ending, final, callFor workplace start path :: calls, hrun,
          .deleted hmade hresult hcourse, ?_, ?_⟩
        · calc final.calls
            _ = (acted workplace start path).calls ++ calls := hcalls
            _ = start.calls ++ callFor workplace start path :: calls := by
              rw [calls_acted, List.append_assoc, List.singleton_append]
        · rw [hfinal, hprogress, List.countP_cons_of_pos hsucceeded, Nat.add_assoc,
            Nat.add_comm 1]
      | error error =>
        have hsucceeded : (callFor workplace start path).succeeded = false := by
          simp only [WorkCall.succeeded, hresult]
        have hdone : [callFor workplace start path].countP WorkCall.succeeded = 0 := by
          rw [List.countP_singleton, hsucceeded]
          rfl
        cases hcancelled : error.isCancelled with
        | true =>
          rw [deletePaths_of_interrupted hpoll hresult hcancelled]
          refine ⟨_, _, [callFor workplace start path], rfl,
            .interrupted hmade hresult hcancelled, calls_acted workplace start path, ?_⟩
          rw [acted_endItem hfree, hdone]
          rfl
        | false =>
          rw [deletePaths_of_failed hpoll hresult hcancelled hfree (by omega)]
          refine ⟨_, _, [callFor workplace start path], rfl,
            .failed hmade hresult hcancelled, calls_acted workplace start path, ?_⟩
          rw [hdone]
          rfl

/-! ### What stopped it -/

/-- The world as the calls have left it. -/
def worldAfter (world : σ) (calls : List (WorkCall σ)) : σ :=
  (calls.getLast?.map WorkCall.after).getD world

theorem worldAfter_cons (world : σ) (call : WorkCall σ) (calls : List (WorkCall σ)) :
    worldAfter world (call :: calls) = worldAfter call.after calls := by
  unfold worldAfter
  rw [List.getLast?_cons]
  cases calls.getLast? with
  | none => rfl
  | some last => rfl

/-- All calls before the one that stopped the deletion, if a call did, have succeeded. -/
inductive Stopped (workplace : Workplace σ) (world : σ) (count : Nat) :
    List (WorkCall σ) → Ending → Prop
  | finished {calls : List (WorkCall σ)} (hsucceeded : ∀ call ∈ calls, call.succeeded = true)
      (hcount : calls.length = count) : Stopped workplace world count calls .returned
  | seen {calls : List (WorkCall σ)} (hsucceeded : ∀ call ∈ calls, call.succeeded = true)
      (hcount : calls.length < count)
      (hpoll : (workplace.poll (worldAfter world calls)).1 = true) :
      Stopped workplace world count calls (.failed .cancelled)
  | interrupted {earlier : List (WorkCall σ)} {call : WorkCall σ} {error : BackendError}
      (hsucceeded : ∀ call ∈ earlier, call.succeeded = true)
      (hresult : call.result = some (.error error)) (hcancelled : error.isCancelled = true) :
      Stopped workplace world count (earlier ++ [call]) (.failed .cancelled)
  | failed {earlier : List (WorkCall σ)} {call : WorkCall σ} {error : BackendError}
      (hsucceeded : ∀ call ∈ earlier, call.succeeded = true)
      (hresult : call.result = some (.error error)) (hother : error.isCancelled = false) :
      Stopped workplace world count (earlier ++ [call]) (.failed (.entry call.path error))

namespace Course

variable {workplace : Workplace σ} {world : σ} {paths : List String} {calls : List (WorkCall σ)}
  {ending : Ending}

theorem asked (h : Course workplace world paths calls ending) :
    calls.map WorkCall.path = paths.take calls.length := by
  induction h with
  | finished world => rfl
  | cancelled hpoll => rfl
  | interrupted hmade hresult hcancelled => simp [hmade.asked]
  | failed hmade hresult hother => simp [hmade.asked]
  | deleted hmade hresult hlater ih => simp [hmade.asked, ih]

theorem length_le (h : Course workplace world paths calls ending) :
    calls.length ≤ paths.length := by
  have hasked := congrArg List.length h.asked
  rw [List.length_map, List.length_take] at hasked
  rw [hasked]
  exact Nat.min_le_right _ _

/-- The token has been looked at before every call. -/
theorem looked (h : Course workplace world paths calls ending) {earlier later : List (WorkCall σ)}
    {call : WorkCall σ} (hcalls : calls = earlier ++ call :: later) :
    workplace.poll (worldAfter world earlier) = (false, call.before) := by
  have hsole {world : σ} {path : String} {other : WorkCall σ}
      (hmade : Made workplace world path other) {earlier : List (WorkCall σ)}
      (hcalls : [other] = earlier ++ call :: later) :
      workplace.poll (worldAfter world earlier) = (false, call.before) := by
    obtain ⟨rfl, rfl, -⟩ : earlier = [] ∧ other = call ∧ later = [] := by
      simpa [List.append_eq_cons_iff, eq_comm] using hcalls
    exact hmade.looked
  induction h generalizing earlier with
  | finished world => simp at hcalls
  | cancelled hpoll => simp at hcalls
  | interrupted hmade hresult hcancelled => exact hsole hmade hcalls
  | failed hmade hresult hother => exact hsole hmade hcalls
  | deleted hmade hresult hlater ih =>
    cases earlier with
    | nil =>
      obtain ⟨rfl, -⟩ := List.cons.inj hcalls
      exact hmade.looked
    | cons first earlier =>
      obtain ⟨rfl, hrest⟩ := List.cons.inj hcalls
      rw [worldAfter_cons]
      exact ih hrest

theorem stopped (h : Course workplace world paths calls ending) :
    Stopped workplace world paths.length calls ending := by
  induction h with
  | finished world => exact .finished nofun rfl
  | cancelled hpoll => exact .seen nofun (Nat.succ_pos _) hpoll
  | interrupted hmade hresult hcancelled =>
    show Stopped _ _ _ ([] ++ [_]) _
    exact .interrupted nofun hresult hcancelled
  | failed hmade hresult hother =>
    rw [← hmade.asked]
    show Stopped _ _ _ ([] ++ [_]) _
    exact .failed nofun hresult hother
  | @deleted world path paths call calls ending hmade hresult hlater ih =>
    have hfirst : call.succeeded = true := by simp only [WorkCall.succeeded, hresult]
    have hcons {others : List (WorkCall σ)} (hothers : ∀ call ∈ others, call.succeeded = true) :
        ∀ other ∈ call :: others, other.succeeded = true :=
      List.forall_mem_cons.mpr ⟨hfirst, hothers⟩
    cases ih with
    | finished hsucceeded hcount => exact .finished (hcons hsucceeded) (congrArg Nat.succ hcount)
    | seen hsucceeded hcount hpoll =>
      rw [← worldAfter_cons world] at hpoll
      exact .seen (hcons hsucceeded) (Nat.succ_lt_succ hcount) hpoll
    | @interrupted earlier last error hsucceeded hresult hcancelled =>
      show Stopped _ _ _ ((call :: earlier) ++ [last]) _
      exact .interrupted (hcons hsucceeded) hresult hcancelled
    | @failed earlier last error hsucceeded hresult hother =>
      show Stopped _ _ _ ((call :: earlier) ++ [last]) _
      exact .failed (hcons hsucceeded) hresult hother

end Course

namespace Stopped

variable {workplace : Workplace σ} {world : σ} {count : Nat} {calls : List (WorkCall σ)}
  {ending : Ending}

theorem not_succeeded {call : WorkCall σ} {error : BackendError}
    (hresult : call.result = some (.error error)) : call.succeeded = false := by
  simp only [WorkCall.succeeded, hresult]

/-- After an error there is no other call. -/
theorem succeeded_dropLast (h : Stopped workplace world count calls ending) :
    ∀ call ∈ calls.dropLast, call.succeeded = true := by
  cases h with
  | finished hsucceeded hcount =>
    exact fun call hcall ↦ hsucceeded call (List.dropLast_subset _ hcall)
  | seen hsucceeded hcount hpoll =>
    exact fun call hcall ↦ hsucceeded call (List.dropLast_subset _ hcall)
  | interrupted hsucceeded hresult hcancelled => rwa [List.dropLast_concat]
  | failed hsucceeded hresult hother => rwa [List.dropLast_concat]

theorem returned_iff (h : Stopped workplace world count calls ending) :
    ending = .returned ↔
      calls.length = count ∧ ∀ call ∈ calls, call.succeeded = true := by
  cases h with
  | finished hsucceeded hcount => exact iff_of_true rfl ⟨hcount, hsucceeded⟩
  | seen hsucceeded hcount hpoll => exact iff_of_false nofun fun hwhole ↦ Nat.ne_of_lt hcount hwhole.1
  | interrupted hsucceeded hresult hcancelled =>
    refine iff_of_false nofun fun hwhole ↦ ?_
    exact absurd (hwhole.2 _ List.mem_concat_self) (ne_true_of_eq_false (not_succeeded hresult))
  | failed hsucceeded hresult hother =>
    refine iff_of_false nofun fun hwhole ↦ ?_
    exact absurd (hwhole.2 _ List.mem_concat_self) (ne_true_of_eq_false (not_succeeded hresult))

theorem no_error_of_succeeded (hsucceeded : ∀ call ∈ calls, call.succeeded = true)
    {call : WorkCall σ} (hlast : calls.getLast? = some call) {error : BackendError} :
    call.result ≠ some (.error error) := by
  intro hresult
  have hcall := hsucceeded call (List.mem_of_mem_getLast? hlast)
  exact absurd hcall (ne_true_of_eq_false (not_succeeded hresult))

theorem entry_iff (h : Stopped workplace world count calls ending) (path : String)
    (error : BackendError) : ending = .failed (.entry path error) ↔
      ∃ call, calls.getLast? = some call ∧ call.path = path ∧
        call.result = some (.error error) ∧ error.isCancelled = false := by
  cases h with
  | finished hsucceeded hcount =>
    refine iff_of_false nofun ?_
    rintro ⟨call, hlast, -, hresult, -⟩
    exact no_error_of_succeeded hsucceeded hlast hresult
  | seen hsucceeded hcount hpoll =>
    refine iff_of_false nofun ?_
    rintro ⟨call, hlast, -, hresult, -⟩
    exact no_error_of_succeeded hsucceeded hlast hresult
  | interrupted hsucceeded hresult hcancelled =>
    refine iff_of_false nofun ?_
    rw [List.getLast?_concat]
    rintro ⟨call, hlast, -, hother, hunset⟩
    cases hlast
    cases hresult.symm.trans hother
    exact absurd hcancelled (ne_true_of_eq_false hunset)
  | failed hsucceeded hresult hother =>
    rw [List.getLast?_concat]
    constructor
    · rintro ⟨rfl, rfl⟩
      exact ⟨_, rfl, rfl, hresult, hother⟩
    · rintro ⟨call, hlast, hpath, hsame, -⟩
      cases hlast
      cases hresult.symm.trans hsame
      rw [hpath]

theorem cancelled_iff (h : Stopped workplace world count calls ending) :
    ending = .failed .cancelled ↔
      (∃ call error, calls.getLast? = some call ∧ call.result = some (.error error) ∧
        error.isCancelled = true) ∨
      ((∀ call ∈ calls, call.succeeded = true) ∧ calls.length < count ∧
        (workplace.poll (worldAfter world calls)).1 = true) := by
  cases h with
  | finished hsucceeded hcount =>
    refine iff_of_false nofun ?_
    rintro (⟨call, error, hlast, hresult, -⟩ | ⟨-, hless, -⟩)
    · exact no_error_of_succeeded hsucceeded hlast hresult
    · exact Nat.ne_of_lt hless hcount
  | seen hsucceeded hcount hpoll => exact iff_of_true rfl (.inr ⟨hsucceeded, hcount, hpoll⟩)
  | interrupted hsucceeded hresult hcancelled =>
    exact iff_of_true rfl (.inl ⟨_, _, List.getLast?_concat, hresult, hcancelled⟩)
  | failed hsucceeded hresult hother =>
    refine iff_of_false nofun ?_
    rw [List.getLast?_concat]
    rintro (⟨call, error, hlast, hsame, hcancelled⟩ | ⟨hwhole, -, -⟩)
    · cases hlast
      cases hresult.symm.trans hsame
      exact absurd hcancelled (ne_true_of_eq_false hother)
    · exact absurd (hwhole _ List.mem_concat_self)
        (ne_true_of_eq_false (not_succeeded hresult))

/-- Of the paths, one has failed or none, and nothing is skipped unless one has. -/
theorem counters {paths : List String} {progress : Progress}
    (h : Stopped workplace world paths.length calls ending)
    (hlength : calls.length ≤ paths.length)
    (hprogress : progress =
      settled ⟨paths.length, calls.countP WorkCall.succeeded, 0, 0, []⟩ ending) :
    progress.total = paths.length ∧ progress.done = calls.countP WorkCall.succeeded ∧
    progress.processing = [] ∧
    ((∃ path error, ending = .failed (.entry path error)) →
      progress.done + 1 = calls.length ∧ progress.failed = 1 ∧
        calls.length + progress.skipped = paths.length) ∧
    (ending = .returned ∨ ending = .failed .cancelled →
      progress.failed = 0 ∧ progress.skipped = 0) := by
  subst hprogress
  cases h with
  | finished hsucceeded hcount => exact ⟨rfl, rfl, rfl, nofun, fun _ ↦ ⟨rfl, rfl⟩⟩
  | seen hsucceeded hcount hpoll => exact ⟨rfl, rfl, rfl, nofun, fun _ ↦ ⟨rfl, rfl⟩⟩
  | interrupted hsucceeded hresult hcancelled =>
    exact ⟨rfl, rfl, rfl, nofun, fun _ ↦ ⟨rfl, rfl⟩⟩
  | @failed earlier call error hsucceeded hresult hother =>
    have hdone : (earlier ++ [call]).countP WorkCall.succeeded = earlier.length := by
      rw [List.countP_append, List.countP_eq_length.mpr hsucceeded, List.countP_singleton,
        not_succeeded hresult]
      rfl
    rw [List.length_append, List.length_singleton] at hlength ⊢
    refine ⟨rfl, rfl, rfl, fun _ ↦ ⟨congrArg Nat.succ hdone, rfl, ?_⟩, nofun⟩
    dsimp only [settled]
    omega

end Stopped

/-! ### Whole deletions -/

section Runs

variable {workplace : Workplace τ} {image : Workplace σ} {project : τ → σ}

theorem deletePaths_map (h : workplace.Projects image project) (running : Running τ)
    (paths : List String) : deletePaths image (running.map project) paths =
      ((deletePaths workplace running paths).1,
        (deletePaths workplace running paths).2.map project) := by
  induction paths generalizing running with
  | nil => rfl
  | cons path paths ih =>
    have hbegin (running : Running τ) :
        (running.map project).beginItem path = (running.beginItem path).map project := rfl
    have hend (running : Running τ) (f : Progress → Progress) :
        (running.map project).endItem path f = (running.endItem path f).map project := rfl
    unfold deletePaths
    rw [running.map_poll h]
    dsimp only
    split
    · rfl
    · rw [hbegin, Running.map_act _ h]
      dsimp only
      split
      · rfl
      · rw [hend]
        exact ih _
      · split
        · rfl
        · rw [Running.map_change]
          dsimp only
          split
          · rfl
          · rfl

/-- Calls of a deletion, in their order. -/
def callsOf (workplace : Workplace σ) (world : σ) (paths : List String) : List (WorkCall σ) :=
  (run workplace.recorded (world, []) paths).2.calls

/-- All that is to be deleted is announced. -/
def announced (world : σ) (paths : List String) : Running σ :=
  (Running.start world).update fun progress ↦ { progress with total := paths.length }

theorem run_recorded (workplace : Workplace σ) (world : σ) (paths : List String) :
    run workplace world paths = ((run workplace.recorded (world, []) paths).1,
      (run workplace.recorded (world, []) paths).2.map Prod.fst) :=
  deletePaths_map workplace.recorded_projects (announced (world, []) paths) paths

theorem callsOf_course {workplace : Workplace σ}
    (hact : ∀ path world, (workplace.act path world).1 ≠ none) (world : σ)
    (paths : List String) :
    ∃ ending, Course workplace world paths (callsOf workplace world paths) ending := by
  obtain ⟨ending, final, calls, hrun, hcourse, hcalls, -⟩ :=
    deletePaths_course hact (announced (world, []) paths) paths rfl (Nat.le_of_eq (Nat.zero_add _))
  have hmade : callsOf workplace world paths = calls := by
    unfold callsOf
    rw [← List.nil_append calls]
    exact (congrArg (fun result ↦ result.2.calls) hrun).trans hcalls
  rw [hmade]
  exact ⟨ending, hcourse⟩

end Runs

/-- A deletion stops at the first failure, or where it has seen that it is cancelled, and it tells
which. The counters add up to the paths, whatever has stopped it: nothing is ever taken from a
counter that holds less, which would be a panic. -/
theorem stops_at_first_failure {workplace : Workplace σ}
    (hact : ∀ path world, (workplace.act path world).1 ≠ none) (world : σ)
    (paths : List String) :
    let calls := callsOf workplace world paths
    let (ending, running) := run workplace world paths
    let progress := running.progress
    calls.map WorkCall.path = paths.take calls.length ∧
    (∀ call ∈ calls.dropLast, call.succeeded = true) ∧
    (∀ earlier call later, calls = earlier ++ call :: later →
      workplace.poll (worldAfter world earlier) = (false, call.before)) ∧
    (ending = .returned ↔
      calls.length = paths.length ∧ ∀ call ∈ calls, call.succeeded = true) ∧
    (∀ path error, ending = .failed (.entry path error) ↔
      ∃ call, calls.getLast? = some call ∧ call.path = path ∧
        call.result = some (.error error) ∧ error.isCancelled = false) ∧
    (ending = .failed .cancelled ↔
      (∃ call error, calls.getLast? = some call ∧ call.result = some (.error error) ∧
        error.isCancelled = true) ∨
      ((∀ call ∈ calls, call.succeeded = true) ∧ calls.length < paths.length ∧
        (workplace.poll (worldAfter world calls)).1 = true)) ∧
    ending ≠ .panicked ∧
    progress.total = paths.length ∧
    progress.done = calls.countP WorkCall.succeeded ∧
    progress.processing = [] ∧
    ((∃ path error, ending = .failed (.entry path error)) →
      progress.done + 1 = calls.length ∧ progress.failed = 1 ∧
        calls.length + progress.skipped = paths.length) ∧
    (ending = .returned ∨ ending = .failed .cancelled →
      progress.failed = 0 ∧ progress.skipped = 0) := by
  obtain ⟨ending, final, calls, hrun, hcourse, hcalls, hprogress⟩ :=
    deletePaths_course hact (announced (world, []) paths) paths rfl (Nat.le_of_eq (Nat.zero_add _))
  have hmade : callsOf workplace world paths = calls := by
    unfold callsOf
    rw [← List.nil_append calls]
    exact (congrArg (fun result ↦ result.2.calls) hrun).trans hcalls
  have hrun : run workplace.recorded (world, []) paths = (ending, final) := hrun
  have hcounted : final.progress =
      settled ⟨paths.length, calls.countP WorkCall.succeeded, 0, 0, []⟩ ending := by
    have hstart : (announced (world, ([] : List (WorkCall σ))) paths).progress =
        ⟨paths.length, 0, 0, 0, []⟩ := rfl
    rw [hprogress, hstart, Nat.zero_add]
  have hstopped := hcourse.stopped
  rw [run_recorded, hmade, hrun]
  dsimp only
  refine ⟨hcourse.asked, hstopped.succeeded_dropLast, fun earlier call later ↦ hcourse.looked,
    hstopped.returned_iff, hstopped.entry_iff, hstopped.cancelled_iff, ?_,
    hstopped.counters hcourse.length_le hcounted⟩
  rintro rfl
  cases hstopped

theorem stops_at_first_failure_refused :
    let paths := ["/d/a", "/d/b", "/d/c", "/d/d"]
    let calls := callsOf (.refusing (· == "/d/b")) false paths
    let (ending, running) := run (.refusing (· == "/d/b")) false paths
    calls.map WorkCall.path = ["/d/a", "/d/b"] ∧
      ending = .failed (.entry "/d/b" (.permissionDenied "/d/b")) ∧
      running.progress = ⟨4, 1, 1, 2, []⟩ ∧
      calls.countP WorkCall.succeeded = 1 ∧
      ∃ call, calls.getLast? = some call ∧ call.path = "/d/b" := by
  intro paths calls
  have hrun : (run (.refusing (· == "/d/b")) false paths).1 =
        .failed (.entry "/d/b" (.permissionDenied "/d/b")) ∧
      (run (.refusing (· == "/d/b")) false paths).2.progress = ⟨4, 1, 1, 2, []⟩ := by
    decide +kernel
  have hcalls : calls.map WorkCall.path = ["/d/a", "/d/b"] := by decide +kernel
  have hstops := stops_at_first_failure (Workplace.refusing_act_ne_none (· == "/d/b")) false paths
  dsimp only at hstops ⊢
  rw [hrun.1, hrun.2] at hstops
  obtain ⟨-, -, -, -, hentry, -, -, -, hdone, -⟩ := hstops
  obtain ⟨call, hlast, hpath, -⟩ := (hentry _ _).mp rfl
  exact ⟨hcalls, hrun.1, hrun.2, hdone.symm, call, hlast, hpath⟩

end DirectoryBrowser.Delete
