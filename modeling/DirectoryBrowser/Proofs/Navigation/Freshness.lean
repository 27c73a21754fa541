import DirectoryBrowser.Proofs.Navigation.Interleaving
import DirectoryBrowser.Proofs.Navigation.Tracking

/-!
# What a refresh guarantees

A refresh first sends for the new listing and then makes the badges below its
directory stale, while status workers keep answering. `Sound` holds between
any two accesses to the cache: no slot is ahead of the session, and a key that
was missed stays missed until it is claimed. `Renewed` holds from a refresh on,
and says that whatever is stored below the directory, and whatever is fresh
there, comes from a request that was begun after it.
-/

namespace DirectoryBrowser.Presentation

open Session StatusCache

variable {thread next : Presentation} {cache : StatusCache}

/-! ### Between two accesses to the cache -/

/-- What the call under way relies on when it goes on. -/
def Fits (session : Session) (cache : StatusCache) : Activity → Prop
  | .idle => True
  | .distrusting _ _ => ∀ job ∈ session.jobs, job.generation < session.generation
  | .asking snapshot _ _ => snapshot.generation = session.generation
  | .claiming snapshot _ key _ _ =>
    snapshot.generation = session.generation ∧ cache.lookup key = .miss

structure Sound (thread : Presentation) (cache : StatusCache) : Prop where
  status : thread.session.status = some cache
  tracked : Tracked cache thread.session.jobs thread.session.generation
  fits : Fits thread.session cache thread.activity

namespace Sound

theorem start (store : StateStore) : Sound (Presentation.start store) .empty :=
  ⟨rfl, .empty, trivial⟩

/-- A change that leaves the cache alone keeps what the call under way relies on, as long as
requests keep their generations. -/
theorem fits_of_jobs {session : Session} {activity : Activity} (h : Fits thread.session cache activity)
    (hgeneration : session.generation = thread.session.generation)
    (hjobs : ∀ bound, (∀ job ∈ thread.session.jobs, job.generation < bound) →
      ∀ job ∈ session.jobs, job.generation < bound) : Fits session cache activity := by
  cases activity with
  | idle => trivial
  | distrusting backend path =>
    intro job hjob
    rw [hgeneration]
    exact hjobs _ h job hjob
  | asking snapshot entries hits => exact h.trans hgeneration.symm
  | claiming snapshot entry key entries hits => exact ⟨h.1.trans hgeneration.symm, h.2⟩

theorem same (h : Sound thread cache) {session : Session} {activity : Activity}
    (hsame : SameRequests thread.session session)
    (hgeneration : thread.session.generation ≤ session.generation)
    (hfits : Fits session cache activity) : Sound { thread with session, activity } cache where
  status := hsame.status.trans h.status
  tracked := by
    rw [hsame.jobs]
    exact h.tracked.mono hgeneration
  fits := hfits

theorem fits_of_completed {session : Session} {activity : Activity} {generation : Nat}
    {before after : List StatusJob} {job : StatusJob} {record : Option StatusRecord}
    (htracked : Tracked cache (before ++ job :: after) generation)
    (hstage : job.stage = .computed record) (h : Fits session cache activity) :
    Fits session (cache.complete job.key job.generation record).2 activity := by
  cases activity with
  | claiming snapshot entry key entries hits =>
    exact ⟨h.1, htracked.lookup_complete_of_miss hstage h.2⟩
  | _ => exact h

/-- A key that was missed can be claimed, whatever was answered since. -/
theorem begin_eq (h : Sound thread cache) {snapshot : Snapshot} {entry : Entry} {key : String}
    {entries : List Entry} {hits : List (String × String)}
    (hactivity : thread.activity = .claiming snapshot entry key entries hits) :
    cache.begin key entry.isDir snapshot.generation =
      (true, cache.claimed key entry.isDir snapshot.generation) := by
  have hfits := h.fits
  rw [hactivity] at hfits
  exact h.tracked.accounts.begin_eq entry.isDir hfits.2 hfits.1.ge

theorem ticked (h : Sound thread cache) (hticked : Ticked thread next) :
    ∃ cache, Sound next cache := by
  have htracked := h.tracked
  have hfits := h.fits
  cases hticked with
  | kept session hsame hgeneration =>
    have hkept : Fits session cache thread.activity := fits_of_jobs hfits hgeneration (by
      rw [hsame.jobs]
      exact fun _ hbound ↦ hbound)
    exact ⟨cache, h.same hsame hgeneration.ge hkept⟩
  | called session hidle hsame hgeneration =>
    rw [hidle] at hfits ⊢
    exact ⟨cache, h.same hsame hgeneration trivial⟩
  | refreshing session backend path hidle hsame hgeneration =>
    refine ⟨cache, h.same hsame (by omega) ?_⟩
    intro job hjob
    rw [hsame.jobs] at hjob
    rw [hgeneration]
    exact Nat.lt_succ_of_le (htracked.begun job hjob)
  | shown session snapshot hidle hsame hgeneration hsnapshot =>
    exact ⟨cache, h.same hsame hgeneration.ge (hsnapshot.trans hgeneration.symm)⟩
  | computed before after job record hjobs hstage =>
    rw [hjobs] at htracked
    refine ⟨cache, h.status, htracked.staged ?_, fits_of_jobs hfits rfl ?_⟩
    · rw [job.isOpen_of_queued hstage]
      rfl
    · rw [hjobs]
      exact fun bound ↦ Tracked.forall_staged (motive := (·.generation < bound)) _ id
  | cached before after job record cache' hjobs hstage hstatus =>
    obtain rfl : cache = cache' := Option.some.inj (h.status.symm.trans hstatus)
    rw [hjobs] at htracked
    refine ⟨_, rfl, htracked.completed hstage _, fits_of_completed htracked hstage ?_⟩
    refine fits_of_jobs hfits rfl ?_
    rw [hjobs]
    exact fun bound ↦ Tracked.forall_staged (motive := (·.generation < bound)) _ id
  | uncached before after job record hjobs hstage hstatus =>
    rw [h.status] at hstatus
    cases hstatus
  | posted before after job changed hjobs hstage =>
    rw [hjobs] at htracked
    refine ⟨cache, h.status, htracked.staged ?_, fits_of_jobs hfits rfl ?_⟩
    · rw [job.isOpen_of_cached hstage]
      rfl
    · rw [hjobs]
      exact fun bound ↦ Tracked.forall_staged (motive := (·.generation < bound)) _ id
  | retired before after job hjobs hstage =>
    rw [hjobs] at htracked
    refine ⟨cache, h.status, htracked.retired hstage, fits_of_jobs hfits rfl ?_⟩
    rw [hjobs]
    exact fun bound hbound other hother ↦ hbound other (Tracked.mem_split_of_mem hother)
  | distrusted backend path hactivity =>
    rw [hactivity] at hfits
    unfold distrust
    rw [h.status]
    split
    case h_1 cache' key hcache hkey =>
      cases hcache
      exact ⟨_, rfl, htracked.invalidated hfits key, trivial⟩
    case h_2 => exact ⟨cache, h.status, htracked, trivial⟩
  | asked session snapshot entry entries hits hits' hactivity hsame hgeneration =>
    rw [hactivity] at hfits
    exact ⟨cache, h.same hsame hgeneration.ge (hfits.trans hgeneration.symm)⟩
  | missed snapshot entry entries hits cache' key hactivity hstatus hmiss =>
    obtain rfl : cache = cache' := Option.some.inj (h.status.symm.trans hstatus)
    rw [hactivity] at hfits
    exact ⟨cache, h.status, htracked, hfits, hmiss⟩
  | claimed snapshot entry key entries hits cache' hactivity hstatus hbegin =>
    obtain rfl : cache = cache' := Option.some.inj (h.status.symm.trans hstatus)
    rw [hactivity] at hfits
    obtain ⟨hgeneration, hmiss⟩ := hfits
    have hjob : (StatusJob.ofChild snapshot entry key).generation =
        thread.session.generation := hgeneration
    refine ⟨_, rfl, ?_, hgeneration⟩
    rw [h.begin_eq hactivity]
    exact htracked.claimed hmiss rfl hjob
  | refused snapshot entry key entries hits hactivity hrefused =>
    have hbegin := hrefused cache h.status
    rw [h.begin_eq hactivity] at hbegin
    cases hbegin
  | announced session snapshot hits hactivity hsame hgeneration =>
    exact ⟨cache, h.same hsame hgeneration.ge trivial⟩

theorem run (h : Sound thread cache) (ticks : List Tick) :
    ∃ cache, Sound (thread.run ticks) cache := by
  induction ticks generalizing thread cache with
  | nil => exact ⟨cache, h⟩
  | cons tick ticks ih =>
    obtain ⟨cache', hnext⟩ := h.ticked (thread.tick_ticked tick)
    exact ih hnext

end Sound

/-! ### After a refresh -/

/-- A refresh of `directory` opened the generation `since` and left the log at `base`; `news` is
what has happened since. -/
structure Renewed (directory : String) (since : Nat) (base news : List Happening)
    (thread : Presentation) (cache : StatusCache) : Prop where
  status : thread.session.status = some cache
  log : thread.log = base ++ news
  later : since ≤ thread.session.generation
  jobs : ∀ job ∈ thread.session.jobs, job.generation < since ∨ .begun job.request ∈ news
  begun : ∀ request, .begun request ∈ news → since ≤ request.generation
  slots : ∀ key slot, cache.slots.find? key = some slot → Path.isUnder directory key = true →
    since ≤ slot.generation
  hits : ∀ key record, cache.lookup key = .hit record → Path.isUnder directory key = true →
    ∃ request : StatusJob, request.key = key ∧ .begun request ∈ news ∧ .stored request record ∈ news
  stored : ∀ before request record after, news = before ++ .stored request record :: after →
    Path.isUnder directory request.key = true → .begun request ∈ before

namespace Renewed

variable {directory : String} {since : Nat} {base news : List Happening}

theorem same (h : Renewed directory since base news thread cache) {session : Session}
    (activity : Activity) (hsame : SameRequests thread.session session)
    (hgeneration : thread.session.generation ≤ session.generation) :
    Renewed directory since base news { thread with session, activity } cache where
  status := hsame.status.trans h.status
  log := h.log
  later := h.later.trans hgeneration
  jobs := by
    rw [hsame.jobs]
    exact h.jobs
  begun := h.begun
  slots := h.slots
  hits := h.hits
  stored := h.stored

/-- Requests that move on, or leave, are still the requests they were. -/
theorem moved (h : Renewed directory since base news thread cache) {session : Session}
    (hstatus : session.status = thread.session.status)
    (hgeneration : session.generation = thread.session.generation)
    (hjobs : ∀ job ∈ session.jobs, ∃ old ∈ thread.session.jobs, old.request = job.request) :
    Renewed directory since base news { thread with session } cache where
  status := hstatus.trans h.status
  log := h.log
  later := h.later.trans hgeneration.ge
  jobs := by
    intro job hjob
    obtain ⟨old, hold, hrequest⟩ := hjobs job hjob
    rw [← job.request_generation, ← hrequest]
    exact h.jobs old hold
  begun := h.begun
  slots := h.slots
  hits := h.hits
  stored := h.stored

theorem exists_old {before after : List StatusJob} {job : StatusJob} (stage : JobStage) :
    ∀ other ∈ before ++ { job with stage } :: after,
      ∃ old ∈ before ++ job :: after, old.request = other.request := by
  intro other hother
  rcases Tracked.mem_split hother with hkept | rfl
  · exact ⟨other, Tracked.mem_split_of_mem hkept, rfl⟩
  · exact ⟨job, by simp, rfl⟩

theorem restaged (h : Renewed directory since base news thread cache)
    {before after : List StatusJob} {job : StatusJob}
    (hjobs : thread.session.jobs = before ++ job :: after) (stage : JobStage) :
    ∀ other ∈ before ++ { job with stage } :: after,
      other.generation < since ∨ .begun other.request ∈ news := by
  intro other hother
  obtain ⟨old, hold, hrequest⟩ := exists_old stage other hother
  rw [← other.request_generation, ← hrequest]
  exact h.jobs old (hjobs ▸ hold)

/-- A request that a slot below the directory waits for was begun after the refresh. -/
theorem begun_of_awaited (h : Renewed directory since base news thread cache) {job : StatusJob}
    {slot : Slot} (hjob : job ∈ thread.session.jobs)
    (hslot : cache.slots.find? job.key = some slot) (hgeneration : slot.generation = job.generation)
    (hunder : Path.isUnder directory job.key = true) : .begun job.request ∈ news := by
  have hsince := h.slots job.key slot hslot hunder
  rw [hgeneration] at hsince
  exact (h.jobs job hjob).resolve_left (Nat.not_lt.mpr hsince)

theorem slots_set (h : Renewed directory since base news thread cache) {key : String}
    {slot answer : Slot} (hslot : cache.slots.find? key = some slot)
    (hanswer : answer.generation = slot.generation) :
    ∀ other found, (cache.slots.set key answer).find? other = some found →
      Path.isUnder directory other = true → since ≤ found.generation := by
  intro other found hfound hunder
  rw [Table.find?_set] at hfound
  split at hfound
  case isTrue hkey =>
    cases hfound
    rw [hanswer]
    exact h.slots key slot hslot (hkey ▸ hunder)
  case isFalse => exact h.slots other found hfound hunder

/-- An answer that is kept below the directory is of the slot's generation, which no request from
before the refresh has. -/
theorem completed (h : Renewed directory since base news thread cache) (hsound : Sound thread cache)
    {before after : List StatusJob} {job : StatusJob} {record : Option StatusRecord}
    (hjobs : thread.session.jobs = before ++ job :: after)
    (hstage : job.stage = .computed record) (changed : Bool) :
    ∃ news', Renewed directory since base news'
      { thread with
        session := { thread.session with
          status := some (cache.complete job.key job.generation record).2
          jobs := before ++ { job with stage := .cached changed } :: after }
        log := thread.log ++
          if (cache.complete job.key job.generation record).1.stored then
            record.toList.map (.stored job.request)
          else [] }
      (cache.complete job.key job.generation record).2 := by
  have htracked := hsound.tracked
  rw [hjobs] at htracked
  have hold := h.restaged hjobs (.cached changed)
  rcases htracked.awaited_or_late (job.isOpen_of_computed hstage) with
    ⟨slot, hslot, hpending, hgeneration⟩ | ⟨slot, hslot, hlt⟩
  · have hcomplete := complete_of_le record hslot hgeneration.le
    have hbegun (hunder : Path.isUnder directory job.key = true) : .begun job.request ∈ news :=
      h.begun_of_awaited (by simp [hjobs]) hslot hgeneration hunder
    have hanswer : (slot.answer job.generation record).generation = slot.generation := by
      rw [hgeneration]
      cases record <;> rfl
    have hslots := h.slots_set hslot hanswer
    rw [hcomplete]
    cases record with
    | none =>
      refine ⟨news, rfl, ?_, h.later, hold, h.begun, hslots, ?_, h.stored⟩
      · simp [h.log]
      · intro key other hlookup hunder
        rw [lookup_set] at hlookup
        split at hlookup
        · rw [lookup_answer_none] at hlookup
          cases hlookup
        · exact h.hits key other hlookup hunder
    | some record =>
      refine ⟨news ++ [.stored job.request record], rfl, ?_, h.later, ?_, ?_, hslots, ?_, ?_⟩
      · simp [h.log]
      · intro other hother
        exact (hold other hother).imp_right (List.mem_append_left _)
      · intro request hrequest
        simp only [List.mem_append, List.mem_singleton, reduceCtorEq, or_false] at hrequest
        exact h.begun request hrequest
      · intro key other hlookup hunder
        rw [lookup_set] at hlookup
        split at hlookup
        case isTrue hkey =>
          rw [lookup_answer_some, Lookup.hit.injEq] at hlookup
          refine ⟨job.request, hkey, List.mem_append_left _ ?_, by simp [hlookup]⟩
          exact hbegun (hkey ▸ hunder)
        case isFalse =>
          obtain ⟨request, hrequest, hbegun, hstored⟩ := h.hits key other hlookup hunder
          exact ⟨request, hrequest, List.mem_append_left _ hbegun, List.mem_append_left _ hstored⟩
      · intro earlier request other later hsplit hunder
        rcases split_of_concat hsplit with ⟨rfl, hlast⟩ | ⟨rest, hnews⟩
        · cases hlast
          exact hbegun hunder
        · exact h.stored earlier request other rest hnews hunder
  · rw [complete_of_lt record hslot hlt]
    refine ⟨news, rfl, ?_, h.later, hold, h.begun, h.slots, h.hits, h.stored⟩
    simp [h.log]

/-- A request that is begun is of the present generation, and its key is not fresh for now. -/
theorem claimed (h : Renewed directory since base news thread cache)
    (snapshot : Snapshot) (entry : Entry) (key : String) (activity : Activity)
    (hgeneration : snapshot.generation = thread.session.generation) :
    Renewed directory since base (news ++ [.begun (.ofChild snapshot entry key)])
      { session := { thread.session with
          status := some (cache.claimed key entry.isDir snapshot.generation)
          pendingStatus := thread.session.pendingStatus + 1
          jobs := thread.session.jobs ++ [.ofChild snapshot entry key] }
        activity
        log := thread.log ++ [.begun (.ofChild snapshot entry key)] }
      (cache.claimed key entry.isDir snapshot.generation) where
  status := rfl
  log := by simp [h.log]
  later := h.later
  jobs := by
    intro job hjob
    rcases List.mem_append.mp hjob with hold | hnew
    · exact (h.jobs job hold).imp_right (List.mem_append_left _)
    · rw [List.mem_singleton.mp hnew]
      exact Or.inr (List.mem_append_right _ (List.mem_singleton_self _))
  begun := by
    intro request hrequest
    rcases List.mem_append.mp hrequest with hold | hnew
    · exact h.begun request hold
    · cases List.mem_singleton.mp hnew
      exact h.later.trans hgeneration.ge
  slots := by
    intro other slot hslot hunder
    rw [find?_claimed] at hslot
    split at hslot
    · cases hslot
      exact h.later.trans hgeneration.ge
    · exact h.slots other slot hslot hunder
  hits := by
    intro other record hlookup hunder
    rw [lookup_claimed] at hlookup
    split at hlookup
    · cases hlookup
    · obtain ⟨request, hrequest, hbegun, hstored⟩ := h.hits other record hlookup hunder
      exact ⟨request, hrequest, List.mem_append_left _ hbegun, List.mem_append_left _ hstored⟩
  stored := by
    intro before request record after hsplit hunder
    rcases split_of_concat hsplit with ⟨-, hlast⟩ | ⟨rest, hnews⟩
    · cases hlast
    · exact h.stored before request record rest hnews hunder

theorem distrusted (h : Renewed directory since base news thread cache) (backend : Backend)
    (path : String) (activity : Activity) : ∃ cache,
      Renewed directory since base news
        { thread with session := thread.session.distrust backend path, activity } cache := by
  unfold distrust
  rw [h.status]
  split
  case h_1 cache' key hcache hkey =>
    cases hcache
    refine ⟨_, rfl, h.log, h.later, h.jobs, h.begun, ?_, ?_, h.stored⟩
    · intro other slot hslot hunder
      rw [find?_invalidateUnder, Option.map_eq_some_iff] at hslot
      obtain ⟨kept, hkept, rfl⟩ := hslot
      have hsince := h.slots other kept hkept hunder
      split
      · exact hsince.trans (Nat.le_max_left _ _)
      · exact hsince
    · intro other record hlookup hunder
      rw [lookup_invalidateUnder] at hlookup
      split at hlookup
      · cases hlookup
      · exact h.hits other record hlookup hunder
  case h_2 => exact ⟨cache, h.status, h.log, h.later, h.jobs, h.begun, h.slots, h.hits, h.stored⟩

theorem ticked (h : Renewed directory since base news thread cache)
    (hsound : Sound thread cache) (hticked : Ticked thread next) :
    ∃ news cache, Renewed directory since base news next cache := by
  cases hticked with
  | kept session hsame hgeneration => exact ⟨news, cache, h.same _ hsame hgeneration.ge⟩
  | called session hidle hsame hgeneration => exact ⟨news, cache, h.same _ hsame hgeneration⟩
  | refreshing session backend path hidle hsame hgeneration =>
    exact ⟨news, cache, h.same _ hsame (by omega)⟩
  | shown session snapshot hidle hsame hgeneration =>
    exact ⟨news, cache, h.same _ hsame hgeneration.ge⟩
  | computed before after job record hjobs =>
    refine ⟨news, cache, h.moved rfl rfl ?_⟩
    rw [hjobs]
    exact exists_old _
  | cached before after job record cache' hjobs hstage hstatus =>
    obtain rfl : cache = cache' := Option.some.inj (h.status.symm.trans hstatus)
    obtain ⟨news', hcompleted⟩ := h.completed hsound hjobs hstage _
    exact ⟨news', _, hcompleted⟩
  | uncached before after job record hjobs hstage hstatus =>
    rw [h.status] at hstatus
    cases hstatus
  | posted before after job changed hjobs =>
    refine ⟨news, cache, h.moved rfl rfl ?_⟩
    rw [hjobs]
    exact exists_old _
  | retired before after job hjobs =>
    refine ⟨news, cache, h.moved rfl rfl ?_⟩
    rw [hjobs]
    exact fun other hother ↦ ⟨other, Tracked.mem_split_of_mem hother, rfl⟩
  | distrusted backend path hactivity => exact ⟨news, h.distrusted backend path _⟩
  | asked session snapshot entry entries hits hits' hactivity hsame hgeneration =>
    exact ⟨news, cache, h.same _ hsame hgeneration.ge⟩
  | missed snapshot entry entries hits cache' key =>
    exact ⟨news, cache, h.same _ ⟨rfl, rfl⟩ (Nat.le_refl _)⟩
  | claimed snapshot entry key entries hits cache' hactivity hstatus hbegin =>
    obtain rfl : cache = cache' := Option.some.inj (h.status.symm.trans hstatus)
    have hfits := hsound.fits
    rw [hactivity] at hfits
    rw [hsound.begin_eq hactivity]
    exact ⟨_, _, h.claimed snapshot entry key _ hfits.1⟩
  | refused snapshot entry key entries hits hactivity hrefused =>
    have hbegin := hrefused cache h.status
    rw [hsound.begin_eq hactivity] at hbegin
    cases hbegin
  | announced session snapshot hits hactivity hsame hgeneration =>
    exact ⟨news, cache, h.same _ hsame hgeneration.ge⟩

theorem run (h : Renewed directory since base news thread cache) (hsound : Sound thread cache)
    (ticks : List Tick) :
    ∃ news cache, Renewed directory since base news (thread.run ticks) cache := by
  induction ticks generalizing thread cache news with
  | nil => exact ⟨news, cache, h⟩
  | cons tick ticks ih =>
    obtain ⟨news', cache', hnext⟩ := h.ticked hsound (thread.tick_ticked tick)
    obtain ⟨cache'', hsound'⟩ := hsound.ticked (thread.tick_ticked tick)
    obtain rfl : cache' = cache'' := Option.some.inj (hnext.status.symm.trans hsound'.status)
    exact ih hnext hsound'

/-- A refresh leaves nothing fresh below its directory, and only requests that it has overtaken. -/
theorem refreshed (hsound : Sound thread cache) {backend : Backend} {path directory : String}
    (hactivity : thread.activity = .distrusting backend path)
    (hdirectory : backend.localPath? path = some directory) :
    ∃ cache, Renewed directory thread.session.generation thread.resume.log [] thread.resume cache := by
  have hold := hsound.fits
  rw [hactivity] at hold
  have hresume : thread.resume =
      { thread with session := thread.session.distrust backend path, activity := .idle } := by
    unfold resume
    rw [hactivity]
  have hdistrust : thread.session.distrust backend path = { thread.session with
      status := some (cache.invalidateUnder directory thread.session.generation) } := by
    unfold distrust
    rw [hsound.status, hdirectory]
  rw [hresume, hdistrust]
  refine ⟨_, rfl, by simp, Nat.le_refl _, fun job hjob ↦ Or.inl (hold job hjob), by simp, ?_, ?_,
    by simp⟩
  · intro key slot hslot hunder
    rw [find?_invalidateUnder, Option.map_eq_some_iff] at hslot
    obtain ⟨kept, hkept, rfl⟩ := hslot
    rw [Path.isUnder_normalize, if_pos hunder]
    exact Nat.le_max_right _ _
  · intro key record hlookup hunder
    rw [lookup_invalidateUnder, Path.isUnder_normalize, if_pos hunder] at hlookup
    cases hlookup

end Renewed

/-- Ticks of listings and status workers. -/
def Tick.isBackground : Tick → Bool
  | .input step => step.isBackground
  | .resume => false

theorem run_background_activity {ticks : List Tick}
    (hticks : ∀ tick ∈ ticks, tick.isBackground = true) :
    (thread.run ticks).activity = thread.activity := by
  induction ticks generalizing thread with
  | nil => rfl
  | cons tick ticks ih =>
    have hlater : ((thread.tick tick).run ticks).activity = (thread.tick tick).activity :=
      ih fun other hother ↦ hticks other (List.mem_cons_of_mem _ hother)
    have hnow : (thread.tick tick).activity = thread.activity := by
      have hbackground := hticks tick (List.mem_cons_self ..)
      cases tick with
      | resume => cases hbackground
      | input input =>
        have hinput : input.isBackground = true := hbackground
        simp only [tick, hinput, if_true]
    exact hlater.trans hnow

end DirectoryBrowser.Presentation
