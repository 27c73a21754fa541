import DirectoryBrowser.Proofs.Navigation.LatestWins
import DirectoryBrowser.Proofs.Navigation.Tracking

/-!
# Answers on their way to a badge

Between the moment a request is begun and the moment its update is handled,
its answer is on its way to the badge of one path. `Routed` says that the
answers for one key are those for one path, and that the slot of the key is
never behind any of them. `Watched` adds what a snapshot may rely on while it
waits for the key: there is an answer on its way, and nothing has been shown.
-/

namespace DirectoryBrowser

open StatusCache

/-- The backend lays the path at the key, and nothing else. -/
def Backend.Places (backend : Backend) (path key : String) : Prop :=
  ∀ other place, backend.localPath? other = some place → (other = path ↔ place = key)

/-- Badge of a path as the listeners know it after an event. -/
def Event.badge (path text : String) : Event → String
  | .published _ => ""
  | .statusUpdated changed news => if changed = path then news else text
  | _ => text

theorem foldl_badge_saved {path text : String} {events : List Event}
    (h : ∀ event ∈ events, ∃ state, event = .saved state) :
    events.foldl (fun text event ↦ event.badge path text) text = text := by
  induction events with
  | nil => rfl
  | cons event events ih =>
    obtain ⟨state, rfl⟩ := h event (List.mem_cons_self ..)
    exact ih fun other hother ↦ h other (List.mem_cons_of_mem _ hother)

theorem foldl_badge_of_ne {path text : String} {events : List Event}
    (h : ∀ event ∈ events, ∃ other news, event = .statusUpdated other news ∧ other ≠ path) :
    events.foldl (fun text event ↦ event.badge path text) text = text := by
  induction events with
  | nil => rfl
  | cons event events ih =>
    obtain ⟨other, news, rfl, hne⟩ := h event (List.mem_cons_self ..)
    have hevent : (Event.statusUpdated other news).badge path text = text := if_neg hne
    rw [List.foldl_cons, hevent]
    exact ih fun other hother ↦ h other (List.mem_cons_of_mem _ hother)

theorem foldl_badge_of_mem {path text : String} {hits : List (String × String)} (start : String)
    (hsame : ∀ hit ∈ hits, hit.1 = path → hit.2 = text)
    (h : start = text ∨ ∃ hit ∈ hits, hit.1 = path) :
    (hits.map fun hit ↦ Event.statusUpdated hit.1 hit.2).foldl
      (fun text event ↦ event.badge path text) start = text := by
  induction hits generalizing start with
  | nil => exact h.resolve_right (by simp)
  | cons hit hits ih =>
    apply ih _ fun other hother ↦ hsame other (List.mem_cons_of_mem _ hother)
    by_cases hpath : hit.1 = path
    · exact Or.inl ((if_pos hpath).trans (hsame hit (List.mem_cons_self ..) hpath))
    · refine h.imp (if_neg hpath).trans ?_
      rintro ⟨other, hother, heq⟩
      rcases List.mem_cons.mp hother with rfl | hrest
      · exact absurd heq hpath
      · exact ⟨other, hrest, heq⟩

/-- An answer that has been posted. -/
structure Answer where
  path : String
  key : String
  generation : Nat
  changed : Bool
  deriving DecidableEq, Repr

def Answer.ticket (answer : Answer) : Ticket := ⟨answer.key, answer.generation⟩

def Update.answer? : Update → Option Answer
  | .listed .. => none
  | .status path key generation changed => some ⟨path, key, generation, changed⟩

def StatusJob.isUnposted (job : StatusJob) : Bool :=
  match job.stage with
  | .posted => false
  | _ => true

def unpostedTickets (jobs : List StatusJob) : List Ticket :=
  (jobs.filter StatusJob.isUnposted).map StatusJob.ticket

@[simp] theorem unpostedTickets_append (before after : List StatusJob) :
    unpostedTickets (before ++ after) = unpostedTickets before ++ unpostedTickets after := by
  simp [unpostedTickets]

theorem unpostedTickets_cons (job : StatusJob) (jobs : List StatusJob) :
    unpostedTickets (job :: jobs) =
      (if job.isUnposted then [job.ticket] else []) ++ unpostedTickets jobs := by
  unfold unpostedTickets
  rw [List.filter_cons]
  split
  · rfl
  · rfl

theorem openTickets_subset (jobs : List StatusJob) :
    ∀ ticket ∈ openTickets jobs, ticket ∈ unpostedTickets jobs := by
  intro ticket hticket
  obtain ⟨job, hjob, rfl⟩ := List.mem_map.mp hticket
  obtain ⟨hmem, hopen⟩ := List.mem_filter.mp hjob
  refine List.mem_map_of_mem (List.mem_filter.mpr ⟨hmem, ?_⟩)
  unfold StatusJob.isOpen at hopen
  unfold StatusJob.isUnposted
  split
  case h_1 hstage =>
    rw [hstage] at hopen
    cases hopen
  case h_2 => rfl

namespace Session

def shownBadge (session : Session) (path : String) : String :=
  session.trace.foldl (fun text event ↦ event.badge path text) ""

theorem shownBadge_append {session next : Session} {news : List Event}
    (h : next.trace = session.trace ++ news) (path : String) :
    next.shownBadge path =
      news.foldl (fun text event ↦ event.badge path text) (session.shownBadge path) := by
  unfold shownBadge
  rw [h, List.foldl_append]

/-- What has just come on show has no badges yet. -/
theorem shownBadge_onShow (session : Session) (snapshot : Snapshot) (path : String) :
    (session.onShow snapshot).persist.shownBadge path = "" := by
  obtain ⟨store, saves, hpersist, hsaves⟩ := session.onShow_persist_eq snapshot
  have hpublished (text : String) : (Event.published snapshot).badge path text = "" := rfl
  rw [hpersist, shownBadge_append rfl, List.foldl_cons, hpublished, foldl_badge_saved hsaves]

theorem shownBadge_announce_of_ne {session : Session} {hits : List (String × String)}
    {path : String} (h : ∀ hit ∈ hits, hit.1 ≠ path) :
    (session.announce hits).shownBadge path = session.shownBadge path := by
  rw [announce_eq, shownBadge_append rfl]
  apply foldl_badge_of_ne
  intro event hevent
  obtain ⟨hit, hhit, rfl⟩ := List.mem_map.mp hevent
  exact ⟨hit.1, hit.2, rfl, h hit hhit⟩

theorem shownBadge_announce_of_mem {session : Session} {hits : List (String × String)}
    {path text : String} (hsame : ∀ hit ∈ hits, hit.1 = path → hit.2 = text)
    (hmem : ∃ hit ∈ hits, hit.1 = path) : (session.announce hits).shownBadge path = text := by
  rw [announce_eq, shownBadge_append rfl]
  exact foldl_badge_of_mem _ hsame (Or.inr hmem)

/-- Handling an update shows the badge of its own path, if it shows any. -/
theorem shownBadge_handleStatus {session : Session} {cache : StatusCache}
    (hstatus : session.status = some cache) (changedPath key : String) (generation : Nat)
    (changed : Bool) (path : String) :
    (session.handleStatus changedPath key generation changed).shownBadge path =
      if session.isNews key generation changed (cache.textFor key) = true ∧ changedPath = path then
        cache.textFor key
      else session.shownBadge path := by
  rw [handleStatus_of_some hstatus, shownBadge_append rfl]
  by_cases hnews : session.isNews key generation changed (cache.textFor key) = true
  · simp only [hnews, if_true, true_and]
    rfl
  · simp only [hnews]
    rfl

def answers (session : Session) : List Answer :=
  session.inbox.filterMap Update.answer?

/-- Requests whose update has not been handled. -/
def unhandled (session : Session) : List Ticket :=
  unpostedTickets session.jobs ++ session.answers.map Answer.ticket

theorem answered_of_isIdle {session : Session}
    (hcounted : session.pendingStatus = session.jobs.length) (hidle : session.isIdle = true) :
    session.jobs = [] ∧ session.answers = [] := by
  simp only [isIdle, Bool.and_eq_true, beq_iff_eq, List.isEmpty_iff] at hidle
  obtain ⟨⟨-, hpending⟩, hinbox⟩ := hidle
  rw [hcounted] at hpending
  refine ⟨List.length_eq_zero_iff.mp hpending, ?_⟩
  unfold answers
  rw [hinbox]
  rfl

/-- No request has been begun, answered or handled, and the cache is the same. -/
structure SameAnswers (session next : Session) : Prop extends SameRequests session next where
  pendingStatus : next.pendingStatus = session.pendingStatus
  answers : next.answers = session.answers

theorem SameAnswers.unhandled {session next : Session} (h : SameAnswers session next) :
    next.unhandled = session.unhandled := by
  unfold Session.unhandled
  rw [h.jobs, h.answers]

/-- A worker brings requests further, but none of them is handled before its update is. -/
theorem Worked.unhandled_perm {session next : Session} (h : Worked session next) :
    next.unhandled.Perm session.unhandled := by
  have hsame (before after : List StatusJob) (job : StatusJob) (stage : JobStage)
      (hstage : ({ job with stage } : StatusJob).isUnposted = job.isUnposted) :
      unpostedTickets (before ++ { job with stage } :: after) =
        unpostedTickets (before ++ job :: after) := by
    simp only [unpostedTickets_append, unpostedTickets_cons, hstage]
    rfl
  cases h with
  | computed before after job record hjobs hstage =>
    unfold Session.unhandled
    rw [hjobs, hsame before after job _ (by simp [StatusJob.isUnposted, hstage])]
    exact List.Perm.refl _
  | cached before after job record cache hjobs hstage =>
    unfold Session.unhandled
    rw [hjobs, hsame before after job _ (by simp [StatusJob.isUnposted, hstage])]
    exact List.Perm.refl _
  | uncached before after job record hjobs hstage =>
    unfold Session.unhandled
    rw [hjobs, hsame before after job _ (by simp [StatusJob.isUnposted, hstage])]
    exact List.Perm.refl _
  | posted before after job changed hjobs hstage =>
    unfold Session.unhandled answers
    rw [hjobs]
    have hbefore : job.isUnposted = true := by simp [StatusJob.isUnposted, hstage]
    have hafter : ({ job with stage := .posted } : StatusJob).isUnposted = false := rfl
    simp only [unpostedTickets_append, unpostedTickets_cons, hbefore, hafter, Bool.false_eq_true,
      if_true, if_false, List.nil_append, List.filterMap_append, List.map_append,
      List.append_assoc]
    refine List.Perm.append_left _ ?_
    rw [← List.append_assoc (unpostedTickets after)]
    exact List.perm_append_comm
  | retired before after job hjobs hstage =>
    unfold Session.unhandled
    rw [hjobs]
    simp [unpostedTickets_cons, StatusJob.isUnposted, hstage, answers]

structure Routed (path key : String) (session : Session) (cache : StatusCache) : Prop where
  status : session.status = some cache
  tracked : Tracked cache session.jobs session.generation
  counted : session.pendingStatus = session.jobs.length
  asked : ∀ job ∈ session.jobs, job.path = path ↔ job.key = key
  posted : ∀ answer ∈ session.answers, answer.path = path ↔ answer.key = key
  reached : ∀ ticket ∈ session.unhandled, ∃ slot,
    cache.slots.find? ticket.path = some slot ∧ ticket.generation ≤ slot.generation

namespace Routed

variable {path key : String} {session next : Session} {cache : StatusCache}

theorem start (store : StateStore) : Routed path key (.start (some .empty) store) .empty where
  status := rfl
  tracked := .empty
  counted := rfl
  asked := by simp [Session.start]
  posted := by simp [Session.start, answers]
  reached := by simp [Session.start, unhandled, unpostedTickets, answers]

theorem generation_le (h : Routed path key session cache) {ticket : Ticket}
    (hticket : ticket ∈ session.unhandled) : ticket.generation ≤ session.generation := by
  obtain ⟨slot, hslot, hle⟩ := h.reached ticket hticket
  exact hle.trans (h.tracked.accounts.bounded _ slot hslot)

/-- A slot that an answer of the present generation is due to belongs to that generation. -/
theorem slot_generation (h : Routed path key session cache) {slot : Slot}
    (hticket : ⟨key, session.generation⟩ ∈ session.unhandled)
    (hslot : cache.slots.find? key = some slot) : slot.generation = session.generation := by
  obtain ⟨other, hother, hle⟩ := h.reached _ hticket
  rw [hslot, Option.some.injEq] at hother
  rw [← hother] at hle
  exact Nat.le_antisymm (h.tracked.accounts.bounded key slot hslot) hle

theorem same (h : Routed path key session cache) (hsame : SameAnswers session next)
    (hgeneration : session.generation ≤ next.generation) : Routed path key next cache where
  status := hsame.status.trans h.status
  tracked := by
    rw [hsame.jobs]
    exact h.tracked.mono hgeneration
  counted := by
    rw [hsame.pendingStatus, hsame.jobs]
    exact h.counted
  asked := by
    rw [hsame.jobs]
    exact h.asked
  posted := by
    rw [hsame.answers]
    exact h.posted
  reached := by
    rw [hsame.unhandled]
    exact h.reached

theorem distrusted (h : Routed path key session cache) (backend : Backend) (directory : String)
    (hnew : ∀ job ∈ session.jobs, job.generation < session.generation) :
    ∃ cache, Routed path key (session.distrust backend directory) cache := by
  unfold distrust
  rw [h.status]
  split
  case h_1 cache' place hcache hplace =>
    cases hcache
    refine ⟨_, rfl, h.tracked.invalidated hnew place, h.counted, h.asked, h.posted, ?_⟩
    intro ticket hticket
    obtain ⟨slot, hslot, hle⟩ := h.reached ticket hticket
    rw [find?_invalidateUnder, hslot]
    refine ⟨_, rfl, ?_⟩
    split
    · exact hle.trans (Nat.le_max_left _ _)
    · exact hle
  case h_2 => exact ⟨cache, h⟩

theorem worked (h : Routed path key session cache) (hworked : Worked session next) :
    ∃ cache, Routed path key next cache := by
  have hunhandled : ∀ ticket ∈ next.unhandled, ticket ∈ session.unhandled :=
    fun ticket hticket ↦ hworked.unhandled_perm.subset hticket
  have hreached : ∀ ticket ∈ next.unhandled, ∃ slot,
      cache.slots.find? ticket.path = some slot ∧ ticket.generation ≤ slot.generation :=
    fun ticket hticket ↦ h.reached ticket (hunhandled ticket hticket)
  have htracked := h.tracked
  have hasked := h.asked
  have hcounted := h.counted
  cases hworked with
  | computed before after job record hjobs hstage =>
    rw [hjobs] at htracked hasked hcounted
    refine ⟨cache, h.status, htracked.staged ?_, ?_, ?_, h.posted, hreached⟩
    · rw [job.isOpen_of_queued hstage]
      rfl
    · simpa using hcounted
    · exact Tracked.forall_staged (motive := fun job ↦ job.path = path ↔ job.key = key) _ id hasked
  | cached before after job record cache' hjobs hstage hstatus =>
    obtain rfl : cache = cache' := Option.some.inj (h.status.symm.trans hstatus)
    rw [hjobs] at htracked hasked hcounted
    refine ⟨_, rfl, htracked.completed hstage _, ?_, ?_, h.posted, ?_⟩
    · simpa using hcounted
    · exact Tracked.forall_staged (motive := fun job ↦ job.path = path ↔ job.key = key) _ id hasked
    · intro ticket hticket
      obtain ⟨slot, hslot, hle⟩ := hreached ticket hticket
      obtain ⟨slot', hslot', hgeneration⟩ := htracked.exists_slot_complete hstage hslot
      exact ⟨slot', hslot', hgeneration ▸ hle⟩
  | uncached before after job record hjobs hstage hstatus =>
    rw [h.status] at hstatus
    cases hstatus
  | posted before after job changed hjobs hstage =>
    rw [hjobs] at htracked hasked hcounted
    refine ⟨cache, h.status, htracked.staged ?_, ?_, ?_, ?_, hreached⟩
    · rw [job.isOpen_of_cached hstage]
      rfl
    · simpa using hcounted
    · exact Tracked.forall_staged (motive := fun job ↦ job.path = path ↔ job.key = key) _ id hasked
    · intro answer hanswer
      simp only [answers, List.filterMap_append, List.mem_append] at hanswer
      rcases hanswer with hold | hnew
      · exact h.posted answer hold
      · cases List.mem_singleton.mp hnew
        exact hasked job (by simp)
  | retired before after job hjobs hstage =>
    rw [hjobs] at htracked hasked hcounted
    refine ⟨cache, h.status, htracked.retired hstage, ?_, ?_, h.posted, hreached⟩
    · simp only [List.length_append, List.length_cons] at hcounted ⊢
      omega
    · exact fun other hother ↦ hasked other (Tracked.mem_split_of_mem hother)

theorem answers_of_inbox {path key : String} {generation : Nat} {changed : Bool}
    {later : List Update} (hinbox : session.inbox = .status path key generation changed :: later) :
    session.answers =
      ⟨path, key, generation, changed⟩ :: ({ session with inbox := later } : Session).answers := by
  unfold answers
  rw [hinbox]
  rfl

/-- The update that is next concerns the path exactly if it concerns the key. -/
theorem path_iff_key (h : Routed path key session cache) {changedPath changedKey : String}
    {generation : Nat} {changed : Bool} {later : List Update}
    (hinbox : session.inbox = .status changedPath changedKey generation changed :: later) :
    changedPath = path ↔ changedKey = key := by
  apply h.posted ⟨changedPath, changedKey, generation, changed⟩
  rw [answers_of_inbox hinbox]
  exact List.mem_cons_self ..

theorem unhandled_of_inbox {path key : String} {generation : Nat} {changed : Bool}
    {later : List Update} (hinbox : session.inbox = .status path key generation changed :: later) :
    session.unhandled.Perm
      (⟨key, generation⟩ :: ({ session with inbox := later } : Session).unhandled) := by
  unfold Session.unhandled
  rw [answers_of_inbox hinbox]
  exact List.perm_middle

theorem popped (h : Routed path key session cache) {update : Update} {later : List Update}
    (hinbox : session.inbox = update :: later) :
    Routed path key { session with inbox := later } cache := by
  have hanswers : ∀ answer ∈ ({ session with inbox := later } : Session).answers,
      answer ∈ session.answers := by
    intro answer hanswer
    unfold answers at hanswer ⊢
    rw [hinbox]
    exact ((List.sublist_cons_self update later).filterMap _).subset hanswer
  refine ⟨h.status, h.tracked, h.counted, h.asked, fun answer hanswer ↦
    h.posted answer (hanswers answer hanswer), ?_⟩
  intro ticket hticket
  apply h.reached
  rcases List.mem_append.mp hticket with hjobs | hposted
  · exact List.mem_append_left _ hjobs
  · obtain ⟨answer, hanswer, rfl⟩ := List.mem_map.mp hposted
    exact List.mem_append_right _ (List.mem_map_of_mem (hanswers answer hanswer))

theorem unhandled_submitted (session : Session) (snapshot : Snapshot) (entry : Entry)
    (place : String) (status : Option StatusCache) (pendingStatus : Nat) :
    ({ session with
      status, pendingStatus
      jobs := session.jobs ++ [.ofChild snapshot entry place] } : Session).unhandled.Perm
        (⟨place, snapshot.generation⟩ :: session.unhandled) := by
  have hunposted : (StatusJob.ofChild snapshot entry place).isUnposted = true := rfl
  unfold Session.unhandled
  simp only [unpostedTickets_append, unpostedTickets_cons, hunposted, if_true, List.append_assoc,
    List.singleton_append]
  exact List.perm_middle

theorem submitted (h : Routed path key session cache) {snapshot : Snapshot} {entry : Entry}
    {place : String} (hplaces : snapshot.backend.Places path key)
    (hgeneration : snapshot.generation = session.generation)
    (hplace : snapshot.backend.localPath? (Path.join snapshot.path entry.name) = some place)
    (hmiss : cache.lookup place = .miss) :
    Routed path key
      { session with
        status := some (cache.claimed place entry.isDir snapshot.generation)
        pendingStatus := session.pendingStatus + 1
        jobs := session.jobs ++ [.ofChild snapshot entry place] }
      (cache.claimed place entry.isDir snapshot.generation) where
  status := rfl
  tracked := by
    have hjob : (StatusJob.ofChild snapshot entry place).generation = session.generation :=
      hgeneration
    exact h.tracked.claimed hmiss rfl hjob
  counted := by
    rw [List.length_append, h.counted]
    rfl
  asked := by
    intro job hjob
    rcases List.mem_append.mp hjob with hold | hnew
    · exact h.asked job hold
    · rw [List.mem_singleton.mp hnew]
      exact hplaces _ _ hplace
  posted := h.posted
  reached := by
    intro ticket hticket
    rw [find?_claimed]
    have hbound : ticket.generation ≤ snapshot.generation := by
      rcases List.mem_cons.mp ((unhandled_submitted session snapshot entry place _ _).subset
        hticket) with rfl | hold
      · exact Nat.le_refl _
      · exact (h.generation_le hold).trans hgeneration.ge
    split
    case isTrue => exact ⟨_, rfl, hbound⟩
    case isFalse hne =>
      rcases List.mem_cons.mp ((unhandled_submitted session snapshot entry place _ _).subset
        hticket) with rfl | hold
      · exact absurd rfl hne
      · exact h.reached ticket hold

end Routed

/-! ### Asking for the badges of a listing -/

/-- Holds between two children of a listing: once a request for the key is begun, or the key is
waited for, its slot is pending. -/
structure Asking (path key : String) (snapshot : Snapshot) (session : Session)
    (cache : StatusCache) : Prop extends Routed path key session cache where
  generation : snapshot.generation = session.generation
  places : snapshot.backend.Places path key
  single : session.unhandled.count ⟨key, session.generation⟩ ≤ 1
  claimed : ⟨key, session.generation⟩ ∈ session.unhandled → cache.lookup key = .inFlight
  waited : key ∈ session.waiting → cache.lookup key = .inFlight

namespace Asking

variable {path key : String} {snapshot : Snapshot} {session next : Session} {cache : StatusCache}

/-- A child moves no slot but one that was missed, and a badge is announced only for a path whose
slot is fresh. -/
theorem requested (h : Asking path key snapshot session cache) {entry : Entry}
    {hit : Option (String × String)} (hrequested : Requested snapshot session entry next hit) :
    ∃ cache', Asking path key snapshot next cache' ∧
      (∀ place, cache.lookup place ≠ .miss → cache'.lookup place = cache.lookup place) ∧
      ∀ news ∈ hit, news.1 = path → ∃ record, cache'.lookup key = .hit record := by
  cases hrequested with
  | remote => exact ⟨cache, h, fun _ _ ↦ rfl, by simp⟩
  | known cache' place record hstatus hplace hlookup =>
    obtain rfl : cache = cache' := Option.some.inj (h.status.symm.trans hstatus)
    refine ⟨cache, h, fun _ _ ↦ rfl, ?_⟩
    intro news hnews hpath
    split at hnews
    · cases hnews
    · cases hnews
      rw [(h.places _ _ hplace).mp hpath] at hlookup
      exact ⟨record, hlookup⟩
  | awaited cache' place hstatus hplace hlookup =>
    obtain rfl : cache = cache' := Option.some.inj (h.status.symm.trans hstatus)
    have hrouted : Routed path key { session with waiting := place :: session.waiting } cache :=
      h.toRouted.same ⟨⟨rfl, rfl⟩, rfl, rfl⟩ (Nat.le_refl _)
    refine ⟨cache, ⟨hrouted, h.generation, h.places, h.single, h.claimed, ?_⟩, fun _ _ ↦ rfl,
      by simp⟩
    intro hwaiting
    rcases List.mem_cons.mp hwaiting with rfl | hold
    · exact hlookup
    · exact h.waited hold
  | submitted cache' place hstatus hplace hlookup hbegin =>
    obtain rfl : cache = cache' := Option.some.inj (h.status.symm.trans hstatus)
    have hperm := Routed.unhandled_submitted session snapshot entry place
      (some (cache.claimed place entry.isDir snapshot.generation)) (session.pendingStatus + 1)
    have hstable : ∀ other, cache.lookup other ≠ .miss →
        (cache.claimed place entry.isDir snapshot.generation).lookup other =
          cache.lookup other := by
      intro other hother
      rw [lookup_claimed, if_neg]
      rintro rfl
      exact hother hlookup
    rw [h.tracked.accounts.begin_eq entry.isDir hlookup h.generation.ge]
    refine ⟨_, ⟨h.toRouted.submitted h.places h.generation hplace hlookup, h.generation,
      h.places, ?_, ?_, ?_⟩, hstable, by simp⟩
    · rw [hperm.count_eq, List.count_cons]
      split
      case isTrue heq =>
        have hkey : place = key := congrArg Ticket.path (beq_iff_eq.mp heq)
        rw [List.count_eq_zero.mpr]
        intro hticket
        have hinFlight := h.claimed hticket
        rw [← hkey, hlookup] at hinFlight
        cases hinFlight
      case isFalse => exact h.single
    · intro hticket
      rcases List.mem_cons.mp (hperm.subset hticket) with heq | hold
      · rw [lookup_claimed, if_pos (congrArg Ticket.path heq).symm]
      · have hinFlight := h.claimed hold
        rw [hstable key (by simp [hinFlight])]
        exact hinFlight
    · intro hwaiting
      have hinFlight := h.waited hwaiting
      rw [hstable key (by simp [hinFlight])]
      exact hinFlight
  | refused cache' place hstatus hplace hlookup hbegin =>
    obtain rfl : cache = cache' := Option.some.inj (h.status.symm.trans hstatus)
    rw [h.tracked.accounts.begin_eq entry.isDir hlookup h.generation.ge] at hbegin
    cases hbegin

theorem requestBadges (h : Asking path key snapshot session cache) (entries : List Entry) :
    ∃ cache', Asking path key snapshot (Session.requestBadges snapshot session entries).1 cache' ∧
      (∀ place, cache.lookup place ≠ .miss → cache'.lookup place = cache.lookup place) ∧
      ∀ news ∈ (Session.requestBadges snapshot session entries).2, news.1 = path →
        ∃ record, cache'.lookup key = .hit record := by
  induction entries generalizing session cache with
  | nil => exact ⟨cache, h, fun _ _ ↦ rfl, by simp [Session.requestBadges]⟩
  | cons entry entries ih =>
    obtain ⟨cache', hnext, hstable, hhit⟩ :=
      h.requested (requestBadge_requested snapshot session entry)
    obtain ⟨cache'', hfinal, hstable', hhits⟩ := ih hnext
    refine ⟨cache'', hfinal, ?_, ?_⟩
    · intro place hplace
      rw [hstable' place (by rwa [hstable place hplace]), hstable place hplace]
    · intro news hnews hpath
      rcases List.mem_append.mp hnews with hhead | hrest
      · obtain ⟨record, hlookup⟩ := hhit news (Option.mem_toList.mp hhead) hpath
        exact ⟨record, by rw [hstable' key (by simp [hlookup]), hlookup]⟩
      · exact hhits news hrest hpath

end Asking

/-! ### Every step -/

/-- What holds of the answers for one key whenever a session has taken a step. -/
structure Watched (path key : String) (session : Session) (cache : StatusCache) : Prop
    extends Routed path key session cache where
  places : ∀ backend, session.backend = some backend → backend.Places path key
  single : session.unhandled.count ⟨key, session.generation⟩ ≤ 1
  unasked : ∀ snapshot, session.current = some snapshot → snapshot.state ≠ .loaded →
    ∀ ticket ∈ session.unhandled, ticket.generation < session.generation
  waited : key ∈ session.waiting →
    (∃ snapshot, session.current = some snapshot ∧ snapshot.state = .loaded) ∧
      session.shownBadge path = "" ∧ ∃ ticket ∈ session.unhandled, ticket.path = key

namespace Watched

variable {path key : String} {session next : Session} {cache : StatusCache}

theorem start (store : StateStore) : Watched path key (.start (some .empty) store) .empty where
  toRouted := .start store
  places := by simp [Session.start]
  single := by simp [Session.start, unhandled, unpostedTickets, answers]
  unasked := by simp [Session.start]
  waited := by simp [Session.start]

/-- A step that shows nothing new and leaves the answers alone. -/
theorem same (h : Watched path key session cache) (hsame : SameAnswers session next)
    (hbackend : next.backend = session.backend) (hcurrent : next.current = session.current)
    (hgeneration : next.generation = session.generation)
    (hwaiting : next.waiting = session.waiting)
    (hshown : next.shownBadge path = session.shownBadge path) :
    Watched path key next cache where
  toRouted := h.toRouted.same hsame hgeneration.ge
  places := by
    rw [hbackend]
    exact h.places
  single := by
    rw [hsame.unhandled, hgeneration]
    exact h.single
  unasked := by
    rw [hcurrent, hsame.unhandled, hgeneration]
    exact h.unasked
  waited := by
    rw [hwaiting, hcurrent, hsame.unhandled, hshown]
    exact h.waited

/-- No answer is of a generation that has just been opened. -/
theorem opened (h : Watched path key session cache) {backend : Backend}
    (hplaces : backend.Places path key) (directory : String) :
    Watched path key (session.openAt backend directory) cache where
  toRouted := h.toRouted.same ⟨⟨rfl, rfl⟩, rfl, rfl⟩ (Nat.le_succ _)
  places := by
    intro other hother
    cases hother
    exact hplaces
  single := by
    rw [List.count_eq_zero.mpr]
    · exact Nat.zero_le _
    · intro hticket
      have hle := h.toRouted.generation_le hticket
      exact Nat.not_succ_le_self _ hle
  unasked := by
    intro snapshot _ _ ticket hticket
    exact Nat.lt_succ_of_le (h.toRouted.generation_le hticket)
  waited := by simp

theorem called (h : Watched path key session cache) {input : Input}
    (hcalled : Called session input next)
    (hplaces : ∀ backend ∈ input.backends, backend.Places path key) :
    ∃ cache, Watched path key next cache := by
  cases hcalled with
  | stayed => exact ⟨cache, h⟩
  | opened _ backend directory restoring selected hbackend =>
    have hopened := h.opened (hbackend.elim (hplaces backend) (h.places backend)) directory
    exact ⟨cache, hopened.same ⟨⟨rfl, rfl⟩, rfl, rfl⟩ rfl rfl rfl rfl rfl⟩
  | refreshed backend snapshot directory hbackend =>
    have hopened := h.opened (h.places backend hbackend) directory
    have hnew : ∀ job ∈ session.jobs, job.generation < session.generation + 1 :=
      fun job hjob ↦ Nat.lt_succ_of_le (h.tracked.begun job hjob)
    have hselected : Routed path key
        { session.openAt backend directory with selected := session.selected } cache :=
      hopened.toRouted.same ⟨⟨rfl, rfl⟩, rfl, rfl⟩ (Nat.le_refl _)
    obtain ⟨cache', hrouted⟩ := hselected.distrusted backend snapshot.path hnew
    obtain ⟨status, hdistrust⟩ := distrust_eq
      { session.openAt backend directory with selected := session.selected } backend snapshot.path
    rw [hdistrust] at hrouted ⊢
    exact ⟨cache', hrouted, hopened.places, hopened.single, hopened.unasked, hopened.waited⟩
  | selected name =>
    obtain ⟨store, saves, hpersist, hsaves⟩ := persist_eq { session with selected := some name }
    rw [hpersist]
    refine ⟨cache, h.same ⟨⟨rfl, rfl⟩, rfl, rfl⟩ rfl rfl rfl rfl ?_⟩
    exact (shownBadge_append rfl path).trans (foldl_badge_saved hsaves)

theorem worked (h : Watched path key session cache) (hworked : Worked session next) :
    ∃ cache, Watched path key next cache := by
  obtain ⟨cache', hrouted⟩ := h.toRouted.worked hworked
  have hperm := hworked.unhandled_perm
  obtain ⟨status, jobs, pendingStatus, news, rfl, -⟩ := hworked.eq
  refine ⟨cache', hrouted, h.places, ?_, ?_, ?_⟩
  · rw [hperm.count_eq]
    exact h.single
  · intro snapshot hcurrent hstate ticket hticket
    exact h.unasked snapshot hcurrent hstate ticket (hperm.subset hticket)
  · intro hwaiting
    obtain ⟨hloaded, hshown, ticket, hticket, hkey⟩ := h.waited hwaiting
    exact ⟨hloaded, hshown, ticket, hperm.symm.subset hticket, hkey⟩

/-- The update that is handled takes its answer away, and with it the mark of its key. -/
theorem answered (h : Watched path key session cache) {changedPath changedKey : String}
    {generation : Nat} {changed : Bool} {later : List Update}
    (hinbox : session.inbox = .status changedPath changedKey generation changed :: later) :
    Watched path key
      (({ session with inbox := later } : Session).handleStatus changedPath changedKey generation
        changed) cache := by
  have hperm := Routed.unhandled_of_inbox hinbox
  have hunhandled : ∀ ticket ∈ ({ session with inbox := later } : Session).unhandled,
      ticket ∈ session.unhandled :=
    fun ticket hticket ↦ hperm.symm.subset (List.mem_cons_of_mem _ hticket)
  have hstatus : ({ session with inbox := later } : Session).status = some cache := h.status
  rw [handleStatus_of_some hstatus]
  refine ⟨(h.toRouted.popped hinbox).same ⟨⟨rfl, rfl⟩, rfl, rfl⟩ (Nat.le_refl _), h.places, ?_, ?_, ?_⟩
  · refine Nat.le_trans ?_ h.single
    rw [hperm.count_eq]
    exact List.count_le_count_cons
  · intro snapshot hcurrent hstate ticket hticket
    exact h.unasked snapshot hcurrent hstate ticket (hunhandled ticket hticket)
  · intro hwaiting
    obtain ⟨hwaiting, hne⟩ := List.mem_filter.mp hwaiting
    have hne : changedKey ≠ key := (bne_iff_ne.mp hne).symm
    obtain ⟨hloaded, hshown, ticket, hticket, hkey⟩ := h.waited hwaiting
    refine ⟨hloaded, ?_, ticket, ?_, hkey⟩
    · rw [← handleStatus_of_some hstatus, shownBadge_handleStatus hstatus, if_neg]
      · exact hshown
      · rintro ⟨-, hpath⟩
        exact hne ((h.path_iff_key hinbox).mp hpath)
    · rcases List.mem_cons.mp (hperm.subset hticket) with rfl | hold
      · exact absurd hkey hne
      · exact hold

theorem not_mem_waiting (h : Watched path key session cache) {placeholder : Snapshot}
    (hcurrent : session.current = some placeholder) (hloading : placeholder.state = .loading) :
    key ∉ session.waiting := by
  intro hwaiting
  obtain ⟨⟨snapshot, hsnapshot, hloaded⟩, -⟩ := h.waited hwaiting
  rw [hcurrent, Option.some.injEq] at hsnapshot
  rw [← hsnapshot, hloading] at hloaded
  cases hloaded

/-- The badges of a listing are asked for when no request of its generation has been begun. -/
theorem asking (h : Watched path key session cache) {snapshot placeholder : Snapshot}
    (hplaces : snapshot.backend.Places path key)
    (hgeneration : snapshot.generation = session.generation)
    (hcurrent : session.current = some placeholder) (hloading : placeholder.state = .loading) :
    Asking path key snapshot (session.onShow snapshot).persist cache := by
  have hidle := h.not_mem_waiting hcurrent hloading
  have hnone : ⟨key, session.generation⟩ ∉ session.unhandled := by
    intro hticket
    have hlt := h.unasked placeholder hcurrent (by simp [hloading]) _ hticket
    exact Nat.lt_irrefl _ hlt
  obtain ⟨store, saves, hpersist, -⟩ := session.onShow_persist_eq snapshot
  rw [hpersist]
  exact ⟨h.toRouted.same ⟨⟨rfl, rfl⟩, rfl, rfl⟩ (Nat.le_refl _), hgeneration, hplaces, h.single,
    fun hticket ↦ absurd hticket hnone, fun hwaiting ↦ absurd hwaiting hidle⟩

theorem loaded (h : Watched path key session cache) {backend : Backend} {load : Load}
    {placeholder : Snapshot} (children : List Entry) (hbackend : session.backend = some backend)
    (hgeneration : load.generation = session.generation)
    (hcurrent : session.current = some placeholder) (hloading : placeholder.state = .loading) :
    ∃ cache, Watched path key (session.showLoaded backend load children) cache := by
  obtain ⟨snapshot, hsnapshot⟩ : ∃ snapshot, snapshot =
    Snapshot.loaded backend load.path children load.generation := ⟨_, rfl⟩
  have hplaces : snapshot.backend.Places path key := by
    rw [hsnapshot]
    exact h.places backend hbackend
  have hstate : snapshot.state = .loaded := by
    rw [hsnapshot]
    rfl
  have hlatest : snapshot.generation = session.generation := by
    rw [hsnapshot]
    exact hgeneration
  have hshow : session.showLoaded backend load children =
      (session.onShow snapshot).persist.requestStatus snapshot := by
    rw [hsnapshot]
    rfl
  have hasking := h.asking hplaces hlatest hcurrent hloading
  have hblank := session.shownBadge_onShow snapshot path
  have hactive : (session.onShow snapshot).persist.backend = session.backend ∧
      (session.onShow snapshot).persist.current = some snapshot := by
    obtain ⟨store, saves, hpersist, -⟩ := session.onShow_persist_eq snapshot
    rw [hpersist]
    exact ⟨rfl, rfl⟩
  rw [hshow]
  generalize (session.onShow snapshot).persist = shown at hasking hblank hactive
  obtain ⟨cache', hasked, -, hhits⟩ := hasking.requestBadges snapshot.children
  obtain ⟨status, waiting, jobs, pendingStatus, hrequest⟩ :=
    requestBadges_eq snapshot shown snapshot.children
  unfold requestStatus
  dsimp only
  generalize (Session.requestBadges snapshot shown snapshot.children).2 = hits at hhits
  rw [hrequest] at hasked ⊢
  have hannounced := announce_eq { shown with status, waiting, jobs, pendingStatus } hits
  have hbadge : key ∈ waiting → ({ shown with status, waiting, jobs, pendingStatus }.announce
      hits).shownBadge path = "" := by
    intro hwaiting
    rw [shownBadge_announce_of_ne]
    · exact hblank
    · intro hit hhit hpath
      obtain ⟨record, hlookup⟩ := hhits hit hhit hpath
      have hinFlight := hasked.waited hwaiting
      rw [hlookup] at hinFlight
      cases hinFlight
  rw [hannounced] at hbadge ⊢
  refine ⟨cache', hasked.toRouted.same ⟨⟨rfl, rfl⟩, rfl, rfl⟩ (Nat.le_refl _), ?_, hasked.single,
    ?_, ?_⟩
  · intro other hother
    exact h.places other (hactive.1.symm.trans hother)
  · intro other hother hunloaded
    cases hactive.2.symm.trans hother
    exact absurd hstate hunloaded
  · intro hwaiting
    obtain ⟨slot, hslot, hpending⟩ := lookup_eq_inFlight_iff.mp (hasked.waited hwaiting)
    have hticket := hasked.tracked.accounts.exists_awaited hslot hpending
    exact ⟨⟨snapshot, hactive.2, hstate⟩, hbadge hwaiting, _,
      List.mem_append_left _ (openTickets_subset _ _ hticket), rfl⟩

/-- A listing that failed has asked for nothing, and nobody waits for a badge of it. -/
theorem failed (h : Watched path key session cache) {backend : Backend} {load : Load}
    {placeholder : Snapshot} (error : BackendError) (hcurrent : session.current = some placeholder)
    (hloading : placeholder.state = .loading) :
    Watched path key (session.showFailed backend load error) cache where
  toRouted := h.toRouted.same ⟨⟨rfl, rfl⟩, rfl, rfl⟩ (Nat.le_refl _)
  places := h.places
  single := h.single
  unasked _ _ _ := h.unasked placeholder hcurrent (by simp [hloading])
  waited hwaiting := absurd hwaiting (h.not_mem_waiting hcurrent hloading)

theorem handled (h : Watched path key session cache) (htimeline : Timeline session)
    {update : Update} {later : List Update} (hinbox : session.inbox = update :: later)
    (hhandled : Handled { session with inbox := later } update next) :
    ∃ cache, Watched path key next cache := by
  have hpopped (load : Load) (result : Except BackendError (List Entry)) (loadToken : Option Nat)
      (restoring : Option Nat) (hupdate : update = .listed load result) :
      Watched path key { session with
        inbox := later, loadsInFlight := session.loadsInFlight - 1, loadToken, restoring } cache := by
    have hanswers : session.answers = later.filterMap Update.answer? := by
      unfold answers
      rw [hinbox, hupdate]
      rfl
    exact h.same ⟨⟨rfl, rfl⟩, rfl, hanswers.symm⟩ rfl rfl rfl rfl rfl
  cases hhandled with
  | status changedPath changedKey generation changed => exact ⟨cache, h.answered hinbox⟩
  | stale load result => exact ⟨cache, hpopped load result _ _ rfl⟩
  | cancelled load error => exact ⟨cache, hpopped load _ none _ rfl⟩
  | loaded load children backend hbackend hgeneration =>
    exact (hpopped load _ none _ rfl).loaded children hbackend hgeneration
      (htimeline.current_of_inbox hinbox hgeneration) rfl
  | reopened load error backend hbackend =>
    exact ⟨cache, (hpopped load _ none none rfl).opened (h.places backend hbackend) _⟩
  | failed load error backend hbackend hgeneration =>
    have hcurrent := htimeline.current_of_inbox hinbox hgeneration
    exact ⟨cache, (hpopped load _ none none rfl).failed error hcurrent rfl⟩

theorem step (h : Watched path key session cache) (htimeline : Timeline session) {input : Input}
    (hplaces : ∀ backend ∈ input.backends, backend.Places path key) :
    ∃ cache, Watched path key (session.step input) cache := by
  have hmoved := session.step_moved input
  generalize session.step input = next at hmoved ⊢
  cases hmoved with
  | called hcalled => exact h.called hcalled hplaces
  | responded generation result load hload =>
    refine ⟨cache, h.same ⟨⟨rfl, rfl⟩, rfl, ?_⟩ rfl rfl rfl rfl rfl⟩
    simp [answers, Update.answer?]
  | worked _ hworked => exact h.worked hworked
  | handled update later hinbox hhandled => exact h.handled htimeline hinbox hhandled

theorem run (h : Watched path key session cache) (htimeline : Timeline session)
    {inputs : List Input}
    (hplaces : ∀ backend ∈ inputs.flatMap Input.backends, backend.Places path key) :
    ∃ cache, Watched path key (session.run inputs) cache := by
  induction inputs generalizing session cache with
  | nil => exact ⟨cache, h⟩
  | cons input inputs ih =>
    rw [List.flatMap_cons] at hplaces
    obtain ⟨cache', hnext⟩ := h.step htimeline fun backend hbackend ↦
      hplaces backend (List.mem_append_left _ hbackend)
    exact ih hnext (htimeline.step input) fun backend hbackend ↦
      hplaces backend (List.mem_append_right _ hbackend)

end Watched

end Session

end DirectoryBrowser
