import DirectoryBrowser.Proofs.Navigation.Calm

/-!
# What a listener is told of a badge

A listener reads the events in their order, and takes every text that is
announced for a path at its word. While a listing stays on show, what it knows
of a badge can only be wrong in two ways: an answer has moved the badge and is
still on its way, or the listener is excused for not having been told.
`Informed` is this invariant for a key that waits for nothing but the present
generation. `Marked` leads up to it, for a key that one earlier request is
due to answer.
-/

namespace DirectoryBrowser.Session

open StatusCache

/-- A way of reading the events that follows the badge of one path. -/
structure Follows (path : String) (follow : String → Event → String) : Prop where
  saved : ∀ text state, follow text (.saved state) = text
  updated : ∀ text changed news,
    follow text (.statusUpdated changed news) = if changed = path then news else text

def told (session : Session) (follow : String → Event → String) : String :=
  session.trace.foldl follow ""

theorem follows_badge (path : String) : Follows path (Event.badge path) :=
  ⟨fun _ _ ↦ rfl, fun _ _ _ ↦ rfl⟩

variable {path key text : String} {follow : String → Event → String} {excused : String → Prop}
  {session next : Session} {cache : StatusCache}

theorem told_append {news : List Event} (htrace : next.trace = session.trace ++ news) :
    next.told follow = news.foldl follow (session.told follow) := by
  unfold told
  rw [htrace, List.foldl_append]

theorem Follows.foldl_saves (hfollow : Follows path follow) {events : List Event}
    (h : ∀ event ∈ events, ∃ state, event = .saved state) (text : String) :
    events.foldl follow text = text := by
  induction events with
  | nil => rfl
  | cons event events ih =>
    obtain ⟨state, rfl⟩ := h event (List.mem_cons_self ..)
    rw [List.foldl_cons, hfollow.saved]
    exact ih fun other hother ↦ h other (List.mem_cons_of_mem _ hother)

/-- Handling an update tells about its own path, if it tells anything. -/
theorem told_handleStatus (hfollow : Follows path follow) (hstatus : session.status = some cache)
    (changedPath changedKey : String) (generation : Nat) (changed : Bool) :
    (session.handleStatus changedPath changedKey generation changed).told follow =
      if session.isNews changedKey generation changed (cache.textFor changedKey) = true ∧
        changedPath = path then cache.textFor changedKey
      else session.told follow := by
  rw [handleStatus_of_some hstatus, told_append rfl]
  by_cases hnews : session.isNews changedKey generation changed (cache.textFor changedKey) = true
  · simp only [hnews, if_true, true_and, List.foldl_cons, List.foldl_nil, hfollow.updated]
  · simp only [hnews, Bool.false_eq_true, if_false, false_and, List.foldl_nil]

/-! ### News on its way -/

/-- An answer of the present generation has moved the badge, and is on its way. -/
def HasNews (session : Session) (key : String) : Prop :=
  (∃ job ∈ session.jobs, job.key = key ∧ job.generation = session.generation ∧
      job.stage = .cached true) ∨
    ∃ answer ∈ session.answers, answer.key = key ∧ answer.generation = session.generation ∧
      answer.changed = true

theorem HasNews.worked (h : session.HasNews key) (hworked : Worked session next) :
    next.HasNews key := by
  -- A request whose answer is cached is none of those that the other steps bring further.
  have hkept (before after : List StatusJob) (job : StatusJob) (jobs : List StatusJob)
      (hjobs : session.jobs = before ++ job :: after) (hstage : job.stage ≠ .cached true)
      (hsub : ∀ other ∈ before ++ after, other ∈ jobs)
      (hjob : ∃ other ∈ session.jobs, other.key = key ∧ other.generation = session.generation ∧
        other.stage = .cached true) :
      ∃ other ∈ jobs, other.key = key ∧ other.generation = session.generation ∧
        other.stage = .cached true := by
    obtain ⟨other, hother, hkey, hgeneration, hcached⟩ := hjob
    rw [hjobs] at hother
    rcases Tracked.mem_split hother with hrest | rfl
    · exact ⟨other, hsub other hrest, hkey, hgeneration, hcached⟩
    · exact absurd hcached hstage
  cases hworked with
  | computed before after job record hjobs hstage =>
    exact h.imp_left (hkept before after job _ hjobs (by simp [hstage])
      fun _ ↦ Tracked.mem_split_of_mem)
  | cached before after job record cache hjobs hstage =>
    exact h.imp_left (hkept before after job _ hjobs (by simp [hstage])
      fun _ ↦ Tracked.mem_split_of_mem)
  | uncached before after job record hjobs hstage =>
    exact h.imp_left (hkept before after job _ hjobs (by simp [hstage])
      fun _ ↦ Tracked.mem_split_of_mem)
  | retired before after job hjobs hstage =>
    exact h.imp_left (hkept before after job _ hjobs (by simp [hstage]) fun _ ↦ id)
  | posted before after job changed hjobs hstage =>
    have hanswers : ({ session with
        inbox := session.inbox ++ [.status job.path job.key job.generation changed]
        jobs := before ++ { job with stage := .posted } :: after } : Session).answers =
          session.answers ++ [⟨job.path, job.key, job.generation, changed⟩] := by
      simp [answers, Update.answer?]
    rcases h with ⟨other, hother, hkey, hgeneration, hcached⟩ |
      ⟨answer, hanswer, hnews⟩
    · rw [hjobs] at hother
      rcases Tracked.mem_split hother with hrest | rfl
      · exact Or.inl ⟨other, Tracked.mem_split_of_mem hrest, hkey, hgeneration, hcached⟩
      · rw [hstage, JobStage.cached.injEq] at hcached
        refine Or.inr ⟨⟨other.path, other.key, other.generation, changed⟩, ?_, hkey, hgeneration,
          hcached⟩
        rw [hanswers]
        exact List.mem_append_right _ (List.mem_singleton_self _)
    · refine Or.inr ⟨answer, ?_, hnews⟩
      rw [hanswers]
      exact List.mem_append_left _ hanswer

variable {changedPath changedKey : String} {generation : Nat} {changed : Bool}
  {later : List Update}

theorem HasNews.answered (h : session.HasNews key)
    (hinbox : session.inbox = .status changedPath changedKey generation changed :: later)
    (hstatus : session.status = some cache)
    (hother : ¬ (changedKey = key ∧ generation = session.generation ∧ changed = true)) :
    (({ session with inbox := later } : Session).handleStatus changedPath changedKey generation
      changed).HasNews key := by
  have hpopped : ({ session with inbox := later } : Session).status = some cache := hstatus
  rw [handleStatus_of_some hpopped]
  rcases h with hjob | ⟨answer, hanswer, hnews⟩
  · exact Or.inl hjob
  · rw [Routed.answers_of_inbox hinbox] at hanswer
    rcases List.mem_cons.mp hanswer with rfl | hlater
    · exact absurd hnews hother
    · exact Or.inr ⟨answer, hlater, hnews⟩

/-! ### A key that waits for nothing but the present generation -/

/-- The listener knows the badge, or will be told it, or has been told nothing and is excused for
not knowing it. -/
structure Informed (follow : String → Event → String) (key : String) (excused : String → Prop)
    (session : Session) (cache : StatusCache) : Prop where
  belongs : cache.Belongs key session.generation
  told : session.told follow = cache.textFor key ∨ session.HasNews key ∨
    session.told follow = "" ∧ excused (cache.textFor key)

namespace Informed

/-- An answer that moves the badge is news, since it is one of the present generation. -/
theorem completed (h : Informed follow key excused session cache)
    (htracked : Tracked cache session.jobs session.generation)
    {before after : List StatusJob} {job : StatusJob} {record : Option StatusRecord}
    (hjobs : session.jobs = before ++ job :: after) (hstage : job.stage = .computed record)
    (hnews : session.HasNews key → next.HasNews key)
    (hnext : next = { session with
      status := some (cache.complete job.key job.generation record).2
      jobs := before ++ { job with
        stage := .cached (cache.complete job.key job.generation record).1.changed } :: after }) :
    Informed follow key excused next (cache.complete job.key job.generation record).2 := by
  rw [hjobs] at htracked
  have hbelongs := htracked.belongs_complete hstage h.belongs
  have hjob : ({ job with
      stage := .cached (cache.complete job.key job.generation record).1.changed } : StatusJob) ∈
        next.jobs := by
    rw [hnext]
    simp
  have hgeneration : next.generation = session.generation := by rw [hnext]
  have htold : next.told follow = session.told follow := by
    rw [hnext]
    rfl
  have hsame (cache' : StatusCache) (htext : cache'.textFor key = cache.textFor key) :
      next.told follow = cache'.textFor key ∨ next.HasNews key ∨
        next.told follow = "" ∧ excused (cache'.textFor key) := by
    rw [htold, htext]
    exact h.told.imp_right (Or.imp_left hnews)
  refine ⟨hgeneration ▸ hbelongs, ?_⟩
  rcases htracked.awaited_or_late (job.isOpen_of_computed hstage) with
    ⟨slot, hslot, hpending, hslotGeneration⟩ | ⟨slot, hslot, hlt⟩
  · have hcomplete := complete_of_le record hslot hslotGeneration.le
    rw [hcomplete] at hjob ⊢
    dsimp only at hjob ⊢
    by_cases hkey : job.key = key
    · have hnow : job.generation = session.generation := by
        rw [← hslotGeneration]
        exact h.belongs slot (hkey ▸ hslot) hpending
      have hfind : (cache.slots.set job.key (slot.answer job.generation record)).find? key =
          some (slot.answer job.generation record) := by
        rw [hkey]
        exact Table.find?_set_self _ _ _
      by_cases hmoved : (slot.answer job.generation record).text job.key = slot.text job.key
      · apply hsame
        have htext : textFor ⟨cache.slots.set job.key (slot.answer job.generation record)⟩ key =
            (slot.answer job.generation record).text key := textFor_of_find? hfind
        rw [htext, textFor_of_find? (hkey ▸ hslot), ← hkey, hmoved]
      · exact Or.inr (Or.inl (Or.inl ⟨_, hjob, hkey, hnow.trans hgeneration.symm, by simp [hmoved]⟩))
    · exact hsame _ (textFor_set_of_ne _ _ hkey)
  · rw [complete_of_lt record hslot hlt]
    exact hsame cache rfl

theorem worked (h : Informed follow key excused session cache)
    (hstatus : session.status = some cache)
    (htracked : Tracked cache session.jobs session.generation) (hworked : Worked session next) :
    ∃ cache, next.status = some cache ∧ Informed follow key excused next cache := by
  have hnews : session.HasNews key → next.HasNews key := fun hnews ↦ hnews.worked hworked
  cases hworked with
  | cached before after job record cache' hjobs hstage hstatus' =>
    obtain rfl : cache = cache' := Option.some.inj (hstatus.symm.trans hstatus')
    exact ⟨_, rfl, h.completed htracked hjobs hstage hnews rfl⟩
  | uncached before after job record hjobs hstage hstatus' =>
    rw [hstatus] at hstatus'
    cases hstatus'
  | _ => exact ⟨cache, hstatus, h.belongs, h.told.imp_right (Or.imp_left hnews)⟩

theorem answered (h : Informed follow key excused session cache) (hfollow : Follows path follow)
    (hstatus : session.status = some cache)
    (hinbox : session.inbox = .status changedPath changedKey generation changed :: later)
    (hroute : session.isNews changedKey generation changed (cache.textFor changedKey) = true →
      (changedPath = path ↔ changedKey = key)) :
    Informed follow key excused (({ session with inbox := later } : Session).handleStatus
      changedPath changedKey generation changed) cache := by
  have hpopped : ({ session with inbox := later } : Session).status = some cache := hstatus
  have hgeneration : (({ session with inbox := later } : Session).handleStatus changedPath
      changedKey generation changed).generation = session.generation := by
    rw [handleStatus_of_some hpopped]
  refine ⟨by rw [hgeneration]; exact h.belongs, ?_⟩
  rw [told_handleStatus hfollow hpopped]
  by_cases hmine : changedKey = key ∧ generation = session.generation ∧ changed = true
  · obtain ⟨rfl, hnow, hchanged⟩ := hmine
    have hnews : session.isNews changedKey generation changed (cache.textFor changedKey) = true := by
      simp [isNews, hnow, hchanged]
    rw [if_pos ⟨hnews, (hroute hnews).mpr rfl⟩]
    exact Or.inl rfl
  · split
    case isTrue hnews =>
      rw [(hroute hnews.1).mp hnews.2]
      exact Or.inl rfl
    case isFalse =>
      exact h.told.imp_right (Or.imp_left fun hnews ↦ hnews.answered hinbox hstatus hmine)

theorem calm {input : Input} (h : Informed follow key excused session cache)
    (hfollow : Follows path follow) (hstatus : session.status = some cache)
    (htracked : Tracked cache session.jobs session.generation)
    (hroute : ∀ changedPath changedKey generation changed later,
      session.inbox = .status changedPath changedKey generation changed :: later →
      session.isNews changedKey generation changed (cache.textFor changedKey) = true →
      (changedPath = path ↔ changedKey = key))
    (hcalm : Calm session input next) (hgeneration : next.generation = session.generation) :
    ∃ cache, next.status = some cache ∧ Informed follow key excused next cache := by
  cases hcalm with
  | kept _ saves hsame hwaiting htrace hsaves =>
    refine ⟨cache, hsame.status.trans hstatus, hgeneration ▸ h.belongs, ?_⟩
    unfold HasNews
    rw [told_append htrace, hfollow.foldl_saves hsaves, hsame.jobs, hsame.answers, hgeneration]
    exact h.told
  | worked _ hworked => exact h.worked hstatus htracked hworked
  | answered changedPath changedKey generation changed later hinbox =>
    refine ⟨cache, ?_, h.answered hfollow hstatus hinbox
      (hroute changedPath changedKey generation changed later hinbox)⟩
    obtain ⟨waiting, news, hanswered, -⟩ := handleStatus_eq { session with inbox := later }
      changedPath changedKey generation changed
    rw [hanswered]
    exact hstatus

theorem mono (h : Informed follow key excused session cache) {excused' : String → Prop}
    (hle : ∀ text, excused text → excused' text) : Informed follow key excused' session cache :=
  ⟨h.belongs, h.told.imp_right (Or.imp_right (And.imp_right (hle _)))⟩

/-- Once nothing is on its way, only an excuse is left for not knowing the badge. -/
theorem known (h : Informed follow key excused session cache) (hjobs : session.jobs = [])
    (hanswers : session.answers = []) :
    session.told follow = cache.textFor key ∨
      session.told follow = "" ∧ excused (cache.textFor key) := by
  refine h.told.imp_right fun hrest ↦ hrest.resolve_left ?_
  rintro (⟨job, hjob, -⟩ | ⟨answer, hanswer, -⟩)
  · rw [hjobs] at hjob
    cases hjob
  · rw [hanswers] at hanswer
    cases hanswer

end Informed

/-! ### A key that an earlier request is due to answer -/

/-- Requests for the key whose update has not been handled. -/
def due (session : Session) (key : String) : List Ticket :=
  session.unhandled.filter (·.path == key)

theorem Worked.due_perm (hworked : Worked session next) (key : String) :
    (next.due key).Perm (session.due key) :=
  hworked.unhandled_perm.filter _

/-- The key is waited for, one request of an earlier generation is all that is due for it, and
nothing has been told. -/
structure Marked (follow : String → Event → String) (key : String) (session : Session) : Prop where
  waiting : key ∈ session.waiting
  told : session.told follow = ""
  single : ∃ generation ≠ session.generation, session.due key = [⟨key, generation⟩]

namespace Marked

/-- Whatever the one request brings is told, unless there is nothing to show. -/
theorem taken (h : Marked follow key session) (hfollow : Follows path follow)
    (hstatus : session.status = some cache)
    (htracked : Tracked cache session.jobs session.generation)
    (hinbox : session.inbox = .status changedPath key generation changed :: later)
    (hroute : session.isNews key generation changed (cache.textFor key) = true →
      changedPath = path) :
    Informed follow key (fun _ ↦ False) (({ session with inbox := later } : Session).handleStatus
      changedPath key generation changed) cache := by
  have hpopped : ({ session with inbox := later } : Session).status = some cache := hstatus
  obtain ⟨earlier, hearlier, hsingle⟩ := h.single
  have hperm := (Routed.unhandled_of_inbox hinbox).filter (·.path == key)
  rw [List.filter_cons, if_pos (beq_self_eq_true key)] at hperm
  have hdue : session.due key = session.unhandled.filter (·.path == key) := rfl
  rw [← hdue, hsingle] at hperm
  have honly := List.singleton_perm.mp hperm
  obtain ⟨hticket, hnone⟩ := List.cons_eq_cons.mp honly
  obtain rfl : earlier = generation := (Ticket.mk.injEq .. ▸ hticket).2
  have hfilter : ({ session with inbox := later } : Session).unhandled.filter (·.path == key) = [] :=
    hnone.symm
  constructor
  · intro slot hslot hpending
    -- A slot that is pending would have a request of its own among those that are due.
    have hopen := openTickets_subset _ _ (htracked.accounts.exists_awaited hslot hpending)
    have hmem := List.filter_eq_nil_iff.mp hfilter _ (List.mem_append_left _ hopen)
    exact absurd (beq_self_eq_true key) hmem
  · left
    have hnews : session.isNews key earlier changed (cache.textFor key) =
        !(cache.textFor key).isEmpty := by
      simp [isNews, hearlier, h.waiting]
    rw [told_handleStatus hfollow hpopped]
    cases hempty : (cache.textFor key).isEmpty with
    | false =>
      have htold : session.isNews key earlier changed (cache.textFor key) = true := by
        rw [hnews, hempty]
        rfl
      exact if_pos ⟨htold, hroute htold⟩
    | true =>
      have hsilent : ¬ session.isNews key earlier changed (cache.textFor key) = true := by
        rw [hnews, hempty]
        exact Bool.false_ne_true
      exact (if_neg fun hboth ↦ hsilent hboth.1).trans
        (h.told.trans (String.isEmpty_iff.mp hempty).symm)

theorem calm {input : Input} (h : Marked follow key session) (hfollow : Follows path follow)
    (hstatus : session.status = some cache)
    (htracked : Tracked cache session.jobs session.generation)
    (hroute : ∀ changedPath changedKey generation changed later,
      session.inbox = .status changedPath changedKey generation changed :: later →
      session.isNews changedKey generation changed (cache.textFor changedKey) = true →
      (changedPath = path ↔ changedKey = key))
    (hcalm : Calm session input next) (hgeneration : next.generation = session.generation) :
    ∃ cache, next.status = some cache ∧
      (Marked follow key next ∨ Informed follow key (fun _ ↦ False) next cache) := by
  obtain ⟨earlier, hearlier, hsingle⟩ := h.single
  cases hcalm with
  | kept _ saves hsame hwaiting htrace hsaves =>
    refine ⟨cache, hsame.status.trans hstatus, Or.inl ⟨hwaiting ▸ h.waiting, ?_, earlier, ?_, ?_⟩⟩
    · rw [told_append htrace, hfollow.foldl_saves hsaves]
      exact h.told
    · rwa [hgeneration]
    · unfold due
      rw [hsame.unhandled]
      exact hsingle
  | worked _ hworked =>
    have hperm := hworked.due_perm key
    rw [hsingle] at hperm
    have hdue := List.perm_singleton.mp hperm
    have hnext : ∃ cache, next.status = some cache := by
      cases hworked with
      | cached => exact ⟨_, rfl⟩
      | _ => exact ⟨cache, hstatus⟩
    obtain ⟨cache', hstatus'⟩ := hnext
    have htrace : next.trace = session.trace ∧ next.waiting = session.waiting := by
      obtain ⟨status, jobs, pendingStatus, news, rfl, -⟩ := hworked.eq
      exact ⟨rfl, rfl⟩
    refine ⟨cache', hstatus', Or.inl ⟨htrace.2 ▸ h.waiting, ?_, earlier, hgeneration ▸ hearlier,
      hdue⟩⟩
    unfold Session.told
    rw [htrace.1]
    exact h.told
  | answered changedPath changedKey generation changed later hinbox =>
    have hpopped : ({ session with inbox := later } : Session).status = some cache := hstatus
    have hiff := hroute changedPath changedKey generation changed later hinbox
    refine ⟨cache, by rw [handleStatus_of_some hpopped]; exact hstatus, ?_⟩
    by_cases hkey : changedKey = key
    · subst hkey
      exact Or.inr (h.taken hfollow hstatus htracked hinbox fun hnews ↦ (hiff hnews).mpr rfl)
    · have hperm := (Routed.unhandled_of_inbox hinbox).filter (·.path == key)
      have hother : ¬ ((⟨changedKey, generation⟩ : Ticket).path == key) = true := by
        rw [beq_iff_eq]
        exact hkey
      rw [List.filter_cons, if_neg hother] at hperm
      have hdue : session.due key = session.unhandled.filter (·.path == key) := rfl
      rw [← hdue, hsingle] at hperm
      refine Or.inl ⟨?_, ?_, earlier, ?_, ?_⟩
      · rw [handleStatus_of_some hpopped]
        exact List.mem_filter.mpr ⟨h.waiting, bne_iff_ne.mpr (Ne.symm hkey)⟩
      · rw [told_handleStatus hfollow hpopped, if_neg]
        · exact h.told
        · exact fun hboth ↦ hkey ((hiff hboth.1).mp hboth.2)
      · rw [handleStatus_of_some hpopped]
        exact hearlier
      · rw [handleStatus_of_some hpopped]
        exact List.singleton_perm.mp hperm |>.symm

theorem exists_due (h : Marked follow key session) :
    session.jobs ≠ [] ∨ session.answers ≠ [] := by
  obtain ⟨generation, -, hsingle⟩ := h.single
  by_contra hnone
  push Not at hnone
  have hempty : session.due key = [] := by
    simp [due, unhandled, unpostedTickets, hnone.1, hnone.2]
  rw [hempty] at hsingle
  cases hsingle

end Marked

/-! ### A path outside the local file system -/

/-- Where no announced update concerns the path, calm steps tell nothing of it. -/
theorem Calm.told_eq {input : Input} (hcalm : Calm session input next)
    (hfollow : Follows path follow) (hstatus : session.status = some cache)
    (hroute : ∀ changedPath changedKey generation changed later,
      session.inbox = .status changedPath changedKey generation changed :: later →
      session.isNews changedKey generation changed (cache.textFor changedKey) = true →
      changedPath ≠ path) :
    ∃ cache, next.status = some cache ∧ next.told follow = session.told follow := by
  cases hcalm with
  | kept _ saves hsame hwaiting htrace hsaves =>
    refine ⟨cache, hsame.status.trans hstatus, ?_⟩
    rw [told_append htrace, hfollow.foldl_saves hsaves]
  | worked _ hworked =>
    cases hworked with
    | cached => exact ⟨_, rfl, rfl⟩
    | _ => exact ⟨cache, hstatus, rfl⟩
  | answered changedPath changedKey generation changed later hinbox =>
    have hpopped : ({ session with inbox := later } : Session).status = some cache := hstatus
    refine ⟨cache, by rw [handleStatus_of_some hpopped]; exact hstatus, ?_⟩
    rw [told_handleStatus hfollow hpopped]
    exact if_neg fun hboth ↦
      hroute changedPath changedKey generation changed later hinbox hboth.1 hboth.2

end DirectoryBrowser.Session
