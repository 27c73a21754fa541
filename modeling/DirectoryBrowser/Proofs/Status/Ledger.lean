import DirectoryBrowser.Proofs.Splitting
import DirectoryBrowser.Proofs.Status.Tickets

/-!
# One live request per path

A ledger plays calls on an empty status cache and writes down what became of
every request: whether it was answered, and whether an invalidation has covered
its path since it was granted. A request is live while neither has happened.
The cache itself keeps a generation and a mark per path. For every sequence of
calls that keeps to the discipline of its callers the two agree: the mark tells
whether a request is live, an answer counts exactly if its request is, and a
hit is the last answer that counted and has not been invalidated.
-/

namespace DirectoryBrowser.StatusCache

inductive Call where
  | begin (path : String) (isDir : Bool) (generation : Nat)
  /-- Requests go by their number in the order in which they were granted. -/
  | complete (number : Nat) (record : Option StatusRecord)
  | invalidate (directory : String) (generation : Nat)
  deriving DecidableEq, Repr

/-- Generations never go back, and an invalidation opens one that no request has used. -/
def Call.Precedes : Call → Call → Prop
  | .begin _ _ generation, .invalidate _ later => generation < later
  | .begin _ _ generation, .begin _ _ later => generation ≤ later
  | .invalidate _ generation, .begin _ _ later => generation ≤ later
  | .invalidate _ generation, .invalidate _ later => generation ≤ later
  | _, _ => True

def Call.generation? : Call → Option Nat
  | .begin _ _ generation | .invalidate _ generation => some generation
  | .complete _ _ => none

structure Request where
  ticket : Ticket
  answered : Bool
  covered : Bool
  deriving DecidableEq, Repr

def Request.isLive (request : Request) : Bool :=
  !request.answered && !request.covered

structure Ledger where
  cache : StatusCache
  /-- What has been granted, oldest first. -/
  requests : List Request
  /-- What the last answer to a live request gave, unless its path was invalidated since. -/
  standing : String → Option StatusRecord

namespace Ledger

def start : Ledger := ⟨.empty, [], fun _ ↦ none⟩

def live (ledger : Ledger) (path : String) : List Request :=
  ledger.requests.filter fun request ↦ request.isLive && request.ticket.path == path

def cover (directory : String) (request : Request) : Request :=
  if Path.isUnder directory request.ticket.path then { request with covered := true } else request

def step (ledger : Ledger) : Call → Ledger
  | .begin path isDir generation =>
    let (granted, cache) := ledger.cache.begin path isDir generation
    if granted then
      { ledger with cache, requests := ledger.requests ++ [⟨⟨path, generation⟩, false, false⟩] }
    else { ledger with cache }
  | .complete number record =>
    match ledger.requests[number]? with
    | none => ledger
    | some request =>
      { cache := (ledger.cache.complete request.ticket.path request.ticket.generation record).2
        requests := ledger.requests.set number { request with answered := true }
        standing := fun path ↦
          if request.isLive ∧ path = request.ticket.path then record else ledger.standing path }
  | .invalidate directory generation =>
    { cache := ledger.cache.invalidateUnder directory generation
      requests := ledger.requests.map (cover directory)
      standing := fun path ↦ if Path.isUnder directory path then none else ledger.standing path }

def play (calls : List Call) : Ledger :=
  calls.foldl step start

/-- Only what was granted can be answered, and only once. -/
def Allows (ledger : Ledger) : Call → Prop
  | .complete number _ =>
    ∃ request, ledger.requests[number]? = some request ∧ request.answered = false
  | .begin _ _ _ | .invalidate _ _ => True

inductive Disciplined : List Call → Prop
  | nil : Disciplined []
  | snoc {calls : List Call} {call : Call} (earlier : Disciplined calls)
      (ordered : ∀ before ∈ calls, before.Precedes call) (allowed : (play calls).Allows call) :
      Disciplined (calls ++ [call])

/-! ### The invariant -/

def ticketOf? (request : Request) : Option Ticket :=
  if request.answered then none else some request.ticket

def unanswered (ledger : Ledger) : List Ticket :=
  ledger.requests.filterMap ticketOf?

theorem mem_unanswered {ledger : Ledger} {ticket : Ticket} :
    ticket ∈ ledger.unanswered ↔
      ∃ request ∈ ledger.requests, request.answered = false ∧ request.ticket = ticket := by
  unfold unanswered ticketOf?
  simp

theorem mem_live {ledger : Ledger} {path : String} {request : Request} :
    request ∈ ledger.live path ↔
      request ∈ ledger.requests ∧ request.isLive = true ∧ request.ticket.path = path := by
  simp [live]

theorem answered_of_isLive {request : Request} (h : request.isLive = true) :
    request.answered = false := by
  rw [Request.isLive, Bool.and_eq_true] at h
  simpa using h.1

/-- The record that a slot vouches for. -/
def trusted (slot : Slot) : Option StatusRecord :=
  if slot.fresh then slot.record else none

structure Balanced (ledger : Ledger) (top : Nat) : Prop where
  accounts : ledger.cache.Accounts ledger.unanswered top
  covered : ∀ request ∈ ledger.requests, request.answered = false →
    (request.covered = true ↔ ∃ slot, ledger.cache.slots.find? request.ticket.path = some slot ∧
      request.ticket.generation < slot.generation)
  standing : ∀ path, ledger.standing path = (ledger.cache.slots.find? path).bind trusted

namespace Balanced

variable {ledger : Ledger} {top : Nat}

theorem start : Balanced start 0 where
  accounts := Accounts.empty
  covered := by simp [Ledger.start]
  standing := by simp [Ledger.start, StatusCache.empty]

theorem isLive_iff_awaits (h : Balanced ledger top) {request : Request}
    (hmem : request ∈ ledger.requests) (hopen : request.answered = false) :
    request.isLive = true ↔ ledger.cache.Awaits request.ticket := by
  have hticket : request.ticket ∈ ledger.unanswered := mem_unanswered.mpr ⟨request, hmem, hopen, rfl⟩
  have hcovered := h.covered request hmem hopen
  rw [Request.isLive, hopen, Bool.not_false, Bool.true_and, Bool.not_eq_true']
  constructor
  · intro hlive
    rcases h.accounts.awaits_or_lt hticket with hawaits | hlt
    · exact hawaits
    · rw [hcovered.mpr hlt] at hlive
      exact Bool.noConfusion hlive
  · rintro ⟨slot, hslot, -, hgeneration⟩
    rw [← Bool.not_eq_true]
    intro hyes
    obtain ⟨other, hother, hlt⟩ := hcovered.mp hyes
    rw [hslot, Option.some.injEq] at hother
    rw [← hother, hgeneration] at hlt
    exact Nat.lt_irrefl _ hlt

theorem complete_of_not_live (h : Balanced ledger top) {request : Request}
    (hmem : request ∈ ledger.requests) (hopen : request.answered = false)
    (hlive : request.isLive = false) (record : Option StatusRecord) :
    ledger.cache.complete request.ticket.path request.ticket.generation record =
      (⟨false, false⟩, ledger.cache) := by
  have hcovered : request.covered = true := by
    rw [Request.isLive, hopen] at hlive
    simpa using hlive
  obtain ⟨slot, hslot, hlt⟩ := (h.covered request hmem hopen).mp hcovered
  exact complete_of_lt record hslot hlt

theorem inFlight_iff (h : Balanced ledger top) (path : String) :
    ledger.cache.lookup path = .inFlight ↔ ledger.live path ≠ [] := by
  rw [lookup_eq_inFlight_iff]
  constructor
  · rintro ⟨slot, hslot, hpending⟩
    obtain ⟨request, hmem, hopen, hticket⟩ :=
      mem_unanswered.mp (h.accounts.exists_awaited hslot hpending)
    have hlive : request.isLive = true := by
      rw [h.isLive_iff_awaits hmem hopen, hticket]
      exact ⟨slot, hslot, hpending, rfl⟩
    exact List.ne_nil_of_mem (mem_live.mpr ⟨hmem, hlive, by rw [hticket]⟩)
  · intro hne
    obtain ⟨request, hrequest⟩ := List.exists_mem_of_ne_nil _ hne
    obtain ⟨hmem, hlive, rfl⟩ := mem_live.mp hrequest
    obtain ⟨slot, hslot, hpending, -⟩ :=
      (h.isLive_iff_awaits hmem (answered_of_isLive hlive)).mp hlive
    exact ⟨slot, hslot, hpending⟩

theorem live_length_le (h : Balanced ledger top) (path : String) :
    (ledger.live path).length ≤ 1 := by
  cases hslot : ledger.cache.slots.find? path with
  | none =>
    have hnone : ledger.live path = [] := by
      rw [List.eq_nil_iff_forall_not_mem]
      intro request hrequest
      obtain ⟨hmem, hlive, rfl⟩ := mem_live.mp hrequest
      obtain ⟨slot, hfound, -⟩ := (h.isLive_iff_awaits hmem (answered_of_isLive hlive)).mp hlive
      rw [hslot] at hfound
      cases hfound
    rw [hnone]
    exact Nat.zero_le _
  | some slot =>
    -- Every live request of the path holds the ticket of the slot's generation.
    have hcount : (ledger.live path).length ≤ ledger.unanswered.count ⟨path, slot.generation⟩ := by
      unfold live unanswered
      rw [← List.countP_eq_length_filter, List.count_filterMap]
      apply List.countP_mono_left
      intro request hmem hrequest
      rw [Bool.and_eq_true, beq_iff_eq] at hrequest
      obtain ⟨hlive, rfl⟩ := hrequest
      have hopen := answered_of_isLive hlive
      obtain ⟨other, hother, -, hgeneration⟩ := (h.isLive_iff_awaits hmem hopen).mp hlive
      rw [hslot, Option.some.injEq] at hother
      rw [ticketOf?, hopen, hother, hgeneration]
      simp
    refine hcount.trans ?_
    rw [h.accounts.holders path slot hslot]
    split <;> omega

theorem hit_iff (h : Balanced ledger top) (path : String) (record : StatusRecord) :
    ledger.cache.lookup path = .hit record ↔
      ledger.live path = [] ∧ ledger.standing path = some record := by
  have hflight := h.inFlight_iff path
  rw [h.standing path, lookup_eq_hit_iff]
  constructor
  · rintro ⟨slot, hslot, hpending, hfresh, hrecord⟩
    constructor
    · by_contra hne
      obtain ⟨other, hother, hyes⟩ := lookup_eq_inFlight_iff.mp (hflight.mpr hne)
      rw [hslot, Option.some.injEq] at hother
      rw [← hother, hpending] at hyes
      exact Bool.noConfusion hyes
    · rw [hslot, Option.bind_some, trusted, if_pos hfresh, hrecord]
  · rintro ⟨hnil, hstanding⟩
    obtain ⟨slot, hslot, htrusted⟩ := Option.bind_eq_some_iff.mp hstanding
    have hpending : slot.pending = false := by
      rw [← Bool.not_eq_true]
      intro hyes
      exact hflight.mp (lookup_eq_inFlight_iff.mpr ⟨slot, hslot, hyes⟩) hnil
    unfold trusted at htrusted
    split at htrusted
    case isTrue hfresh => exact ⟨slot, hslot, hpending, hfresh, htrusted⟩
    case isFalse => cases htrusted

/-- An answer is stored exactly if it has a record and its request is live. -/
theorem complete_stored (h : Balanced ledger top) {request : Request}
    (hmem : request ∈ ledger.requests) (hopen : request.answered = false)
    (record : Option StatusRecord) :
    (ledger.cache.complete request.ticket.path request.ticket.generation record).1.stored =
      (record.isSome && request.isLive) := by
  cases hlive : request.isLive with
  | true =>
    obtain ⟨slot, hslot, -, hgeneration⟩ := (h.isLive_iff_awaits hmem hopen).mp hlive
    rw [complete_of_le record hslot hgeneration.le, Bool.and_true]
  | false =>
    rw [h.complete_of_not_live hmem hopen hlive, Bool.and_false]

/-! ### Steps -/

theorem granted (h : Balanced ledger top) {path : String} {generation : Nat} (isDir : Bool)
    (hmiss : ledger.cache.lookup path = .miss) (hle : top ≤ generation) :
    Balanced { ledger with
      cache := ledger.cache.claimed path isDir generation
      requests := ledger.requests ++ [⟨⟨path, generation⟩, false, false⟩] } generation where
  accounts := by
    have haccounts := h.accounts.claimed isDir hmiss hle
    unfold unanswered at haccounts ⊢
    rwa [List.filterMap_append]
  covered := by
    intro request hrequest hopen
    rw [find?_claimed]
    rcases List.mem_append.mp hrequest with hold | hnew
    · have hcovered := h.covered request hold hopen
      by_cases hpath : path = request.ticket.path
      · rw [if_pos hpath]
        -- Nothing on a missed path is awaited, so its requests are all late already.
        have hticket : request.ticket ∈ ledger.unanswered :=
          mem_unanswered.mpr ⟨request, hold, hopen, rfl⟩
        rcases h.accounts.awaits_or_lt hticket with ⟨slot, hslot, hpending, -⟩ | hlt
        · rw [hpath] at hmiss
          rw [(lookup_eq_miss_iff.mp hmiss slot hslot).1] at hpending
          cases hpending
        · rw [hcovered.mpr hlt]
          obtain ⟨slot, hslot, hlt⟩ := hlt
          have hbound := (h.accounts.bounded _ slot hslot).trans hle
          exact iff_of_true rfl ⟨_, rfl, hlt.trans_le hbound⟩
      · rw [if_neg hpath]
        exact hcovered
    · rw [List.mem_singleton.mp hnew]
      simp [Slot.claim]
  standing := by
    intro other
    rw [find?_claimed]
    change ledger.standing other = _
    rw [h.standing other]
    by_cases hpath : path = other
    · subst hpath
      rw [if_pos rfl, Option.bind_some]
      cases ledger.cache.slots.find? path with
      | none => rfl
      | some slot => rfl
    · rw [if_neg hpath]

/-- An answer moves no slot of a known ticket to another generation. -/
theorem generation_complete (h : Balanced ledger top) {ticket : Ticket}
    (hmem : ticket ∈ ledger.unanswered) (record : Option StatusRecord) (path : String) :
    ((ledger.cache.complete ticket.path ticket.generation record).2.slots.find? path).map
        Slot.generation =
      (ledger.cache.slots.find? path).map Slot.generation := by
  obtain ⟨slot, hslot, hle⟩ := h.accounts.known ticket hmem
  rcases Nat.lt_or_eq_of_le hle with hlt | heq
  · rw [complete_of_lt record hslot hlt]
  · rw [complete_of_le record hslot heq.ge, Table.find?_set]
    split
    case isTrue hpath =>
      subst hpath
      rw [hslot, Option.map_some, Option.map_some, ← heq]
      cases record <;> rfl
    case isFalse => rfl

theorem answered (h : Balanced ledger top) {before after : List Request} {request : Request}
    (hrequests : ledger.requests = before ++ request :: after)
    (hopen : request.answered = false) (record : Option StatusRecord) :
    Balanced
      { cache := (ledger.cache.complete request.ticket.path request.ticket.generation record).2
        requests := before ++ { request with answered := true } :: after
        standing := fun path ↦
          if request.isLive ∧ path = request.ticket.path then record
          else ledger.standing path } top := by
  have hmem : request ∈ ledger.requests := by simp [hrequests]
  have hticket : request.ticket ∈ ledger.unanswered :=
    mem_unanswered.mpr ⟨request, hmem, hopen, rfl⟩
  have hgeneration := h.generation_complete hticket record
  refine ⟨?_, ?_, ?_⟩
  · have haccounts := h.accounts
    unfold unanswered at haccounts ⊢
    rw [hrequests, List.filterMap_append, List.filterMap_cons_some (b := request.ticket)
      (by simp [ticketOf?, hopen])] at haccounts
    rw [List.filterMap_append, List.filterMap_cons_none (by simp [ticketOf?])]
    exact haccounts.complete record
  · intro other hother hunanswered
    have hold : other ∈ ledger.requests := by
      rw [hrequests]
      rcases List.mem_append.mp hother with hbefore | hafter
      · exact List.mem_append_left _ hbefore
      · rcases List.mem_cons.mp hafter with rfl | hafter
        · cases hunanswered
        · exact List.mem_append_right _ (List.mem_cons_of_mem _ hafter)
    rw [h.covered other hold hunanswered]
    have hsame := hgeneration other.ticket.path
    constructor
    · rintro ⟨slot, hslot, hlt⟩
      rw [hslot, Option.map_some, Option.map_eq_some_iff] at hsame
      obtain ⟨later, hlater, heq⟩ := hsame
      exact ⟨later, hlater, heq ▸ hlt⟩
    · rintro ⟨slot, hslot, hlt⟩
      rw [hslot, Option.map_some, eq_comm, Option.map_eq_some_iff] at hsame
      obtain ⟨earlier, hearlier, heq⟩ := hsame
      exact ⟨earlier, hearlier, heq ▸ hlt⟩
  · intro path
    change (if request.isLive ∧ path = request.ticket.path then record
      else ledger.standing path) = _
    cases hlive : request.isLive with
    | false =>
      rw [if_neg (by simp), h.complete_of_not_live hmem hopen hlive]
      exact h.standing path
    | true =>
      obtain ⟨slot, hslot, -, heq⟩ := (h.isLive_iff_awaits hmem hopen).mp hlive
      rw [complete_of_le record hslot heq.le, Table.find?_set]
      by_cases hpath : path = request.ticket.path
      · rw [if_pos ⟨rfl, hpath⟩, if_pos hpath.symm, Option.bind_some]
        cases record <;> rfl
      · rw [if_neg (fun hboth ↦ hpath hboth.2), if_neg (Ne.symm hpath)]
        exact h.standing path

theorem cover_ticket (directory : String) (request : Request) :
    (cover directory request).ticket = request.ticket := by
  unfold cover
  split <;> rfl

theorem cover_answered (directory : String) (request : Request) :
    (cover directory request).answered = request.answered := by
  unfold cover
  split <;> rfl

theorem unanswered_cover (ledger : Ledger) (directory : String) :
    (ledger.requests.map (cover directory)).filterMap ticketOf? = ledger.unanswered := by
  unfold unanswered
  rw [List.filterMap_map]
  congr 1
  funext request
  simp [ticketOf?, cover_ticket, cover_answered]

theorem invalidated (h : Balanced ledger top) (directory : String) {generation : Nat}
    (hle : top ≤ generation)
    (hnew : ∀ ticket ∈ ledger.unanswered, ticket.generation < generation) :
    Balanced
      { cache := ledger.cache.invalidateUnder directory generation
        requests := ledger.requests.map (cover directory)
        standing := fun path ↦
          if Path.isUnder directory path then none else ledger.standing path } generation where
  accounts := by
    have haccounts := h.accounts.invalidateUnder directory hle hnew
    rw [← unanswered_cover ledger directory] at haccounts
    exact haccounts
  covered := by
    intro other hother hopen
    obtain ⟨request, hmem, rfl⟩ := List.mem_map.mp hother
    rw [cover_answered] at hopen
    have hticket : request.ticket ∈ ledger.unanswered :=
      mem_unanswered.mpr ⟨request, hmem, hopen, rfl⟩
    obtain ⟨slot, hslot, -⟩ := h.accounts.known _ hticket
    have hcovered := h.covered request hmem hopen
    rw [cover_ticket, find?_invalidateUnder, Path.isUnder_normalize]
    rw [hslot] at hcovered ⊢
    unfold cover
    by_cases hunder : Path.isUnder directory request.ticket.path = true
    · rw [if_pos hunder, Option.map_some, if_pos hunder]
      refine iff_of_true rfl ⟨_, rfl, ?_⟩
      exact (hnew _ hticket).trans_le (Nat.le_max_right _ _)
    · rw [if_neg hunder, Option.map_some, if_neg hunder]
      exact hcovered
  standing := by
    intro path
    change (if Path.isUnder directory path then none else ledger.standing path) = _
    rw [find?_invalidateUnder, Path.isUnder_normalize, h.standing path]
    cases ledger.cache.slots.find? path with
    | none => simp
    | some slot =>
      by_cases hunder : Path.isUnder directory path = true
      · rw [if_pos hunder, Option.map_some, if_pos hunder]
        rfl
      · rw [if_neg hunder, Option.map_some, if_neg hunder]

end Balanced

/-! ### Runs -/

theorem play_concat (calls : List Call) (call : Call) :
    play (calls ++ [call]) = (play calls).step call := by
  unfold play
  rw [List.foldl_append]
  rfl

/-- The generation that was used last. -/
def clock (calls : List Call) : Nat :=
  calls.foldl (fun latest call ↦ call.generation?.getD latest) 0

theorem clock_concat (calls : List Call) (call : Call) :
    clock (calls ++ [call]) = call.generation?.getD (clock calls) := by
  unfold clock
  rw [List.foldl_append]
  rfl

theorem clock_eq_zero_or_mem (calls : List Call) :
    clock calls = 0 ∨ ∃ call ∈ calls, call.generation? = some (clock calls) := by
  induction calls using List.reverseRecOn with
  | nil => exact Or.inl rfl
  | append_singleton calls call ih =>
    rw [clock_concat]
    cases hgeneration : call.generation? with
    | some generation => exact Or.inr ⟨call, by simp, hgeneration⟩
    | none =>
      rcases ih with hzero | ⟨earlier, hmem, hlatest⟩
      · exact Or.inl hzero
      · exact Or.inr ⟨earlier, List.mem_append_left _ hmem, hlatest⟩

theorem le_of_precedes {earlier later : Call} {generation next : Nat} (h : earlier.Precedes later)
    (hearlier : earlier.generation? = some generation) (hlater : later.generation? = some next) :
    generation ≤ next := by
  cases earlier <;> cases later <;> cases hearlier <;> cases hlater
  case begin.invalidate => exact Nat.le_of_lt h
  all_goals exact h

theorem clock_le {calls : List Call} {call : Call} {generation : Nat}
    (hordered : ∀ earlier ∈ calls, earlier.Precedes call)
    (hgeneration : call.generation? = some generation) : clock calls ≤ generation := by
  rcases clock_eq_zero_or_mem calls with hzero | ⟨earlier, hmem, hlatest⟩
  · rw [hzero]
    exact Nat.zero_le _
  · exact le_of_precedes (hordered earlier hmem) hlatest hgeneration

/-- Every request goes back to the call that was granted. -/
theorem exists_begin {calls : List Call} {request : Request}
    (hmem : request ∈ (play calls).requests) :
    ∃ isDir, Call.begin request.ticket.path isDir request.ticket.generation ∈ calls := by
  induction calls using List.reverseRecOn generalizing request with
  | nil => cases hmem
  | append_singleton calls call ih =>
    rw [play_concat] at hmem
    have hold (other : Request) (hother : other ∈ (play calls).requests)
        (hticket : other.ticket = request.ticket) :
        ∃ isDir, Call.begin request.ticket.path isDir request.ticket.generation ∈
          calls ++ [call] := by
      obtain ⟨isDir, hcall⟩ := ih hother
      rw [hticket] at hcall
      exact ⟨isDir, List.mem_append_left _ hcall⟩
    cases call with
    | begin path isDir generation =>
      simp only [step] at hmem
      split at hmem
      · rcases List.mem_append.mp hmem with hrequest | hnew
        · exact hold request hrequest rfl
        · rw [List.mem_singleton.mp hnew]
          exact ⟨isDir, by simp⟩
      · exact hold request hmem rfl
    | complete number record =>
      simp only [step] at hmem
      split at hmem
      · exact hold request hmem rfl
      case h_2 other hother =>
        rcases List.mem_or_eq_of_mem_set hmem with hrequest | rfl
        · exact hold request hrequest rfl
        · exact hold other (List.mem_of_getElem? hother) rfl
    | invalidate directory generation =>
      obtain ⟨other, hother, rfl⟩ := List.mem_map.mp hmem
      exact hold other hother (Balanced.cover_ticket directory other).symm

/-- One step keeps the ledger balanced; the run follows by induction. -/
theorem balanced_step {calls : List Call} {call : Call}
    (h : Balanced (play calls) (clock calls)) (hordered : ∀ earlier ∈ calls, earlier.Precedes call)
    (hallowed : (play calls).Allows call) :
    Balanced ((play calls).step call) (clock (calls ++ [call])) := by
  rw [clock_concat]
  cases call with
  | begin path isDir generation =>
    have hle : clock calls ≤ generation := clock_le hordered rfl
    by_cases hmiss : (play calls).cache.lookup path = .miss
    · simp only [step, h.accounts.begin_eq isDir hmiss hle, if_true]
      exact h.granted isDir hmiss hle
    · simp only [step, begin_of_ne_miss isDir generation hmiss, Bool.false_eq_true, if_false]
      exact { h with accounts := h.accounts.mono hle }
  | complete number record =>
    obtain ⟨request, hrequest, hopen⟩ := hallowed
    obtain ⟨before, after, hsplit, hset, -⟩ := exists_split_of_getElem? hrequest
    simp only [step, hrequest, hset]
    exact h.answered hsplit hopen record
  | invalidate directory generation =>
    have hle : clock calls ≤ generation := clock_le hordered rfl
    apply h.invalidated directory hle
    intro ticket hticket
    obtain ⟨request, hmem, -, rfl⟩ := mem_unanswered.mp hticket
    obtain ⟨isDir, hcall⟩ := exists_begin hmem
    exact hordered _ hcall

theorem balanced_play {calls : List Call} (h : Disciplined calls) :
    Balanced (play calls) (clock calls) := by
  induction h with
  | nil => exact Balanced.start
  | snoc earlier ordered allowed ih =>
    rw [play_concat]
    exact balanced_step ih ordered allowed

/-- The cache keeps the one-live-request protocol over every disciplined history of calls. -/
theorem one_live_request {calls : List Call} (h : Disciplined calls) :
    let ledger := play calls
    (∀ path, (ledger.live path).length ≤ 1 ∧
      (ledger.cache.lookup path = .inFlight ↔ ledger.live path ≠ [])) ∧
    (∀ number record request, ledger.requests[number]? = some request →
      ledger.Allows (.complete number record) →
      let answer := ledger.cache.complete request.ticket.path request.ticket.generation record
      (answer.1.stored = true ↔ record.isSome = true ∧ request.isLive = true) ∧
      (request.isLive = false → answer.2 = ledger.cache)) ∧
    (∀ path record, ledger.cache.lookup path = .hit record ↔
      ledger.live path = [] ∧ ledger.standing path = some record) ∧
    (∀ path isDir generation,
      (∀ earlier ∈ calls, earlier.Precedes (.begin path isDir generation)) →
      ((ledger.cache.begin path isDir generation).1 = true ↔ ledger.cache.lookup path = .miss)) := by
  have hbalanced := balanced_play h
  refine ⟨fun path ↦ ⟨hbalanced.live_length_le path, hbalanced.inFlight_iff path⟩, ?_,
    hbalanced.hit_iff, ?_⟩
  · intro number record request hrequest hallowed
    have hmem := List.mem_of_getElem? hrequest
    have hopen : request.answered = false := by
      obtain ⟨other, hother, hopen⟩ := hallowed
      rw [hrequest, Option.some.injEq] at hother
      rw [hother]
      exact hopen
    constructor
    · rw [hbalanced.complete_stored hmem hopen record, Bool.and_eq_true]
    · intro hlive
      rw [hbalanced.complete_of_not_live hmem hopen hlive]
  · intro path isDir generation hordered
    have hle : clock calls ≤ generation := clock_le hordered rfl
    constructor
    · intro hgranted
      by_contra hmiss
      rw [begin_of_ne_miss isDir generation hmiss] at hgranted
      cases hgranted
    · intro hmiss
      rw [hbalanced.accounts.begin_eq isDir hmiss hle]

/-- A request is overtaken by an invalidation and by a second request, which is answered first. -/
def overtaken : List Call :=
  [.begin "/r/a" false 1, .invalidate "/r" 2, .begin "/r/a" false 2,
    .complete 1 (some { StatusRecord.clean with dirty := true })]

theorem one_live_request_overtaken :
    Disciplined overtaken ∧ (play overtaken).live "/r/a" = [] ∧
      (play overtaken).cache.lookup "/r/a" = .hit { StatusRecord.clean with dirty := true } ∧
      (play overtaken).Allows (.complete 0 (some .clean)) ∧
      ((play overtaken).cache.complete "/r/a" 1 (some .clean)).2 = (play overtaken).cache := by
  have hallowed : (play (overtaken.take 3)).Allows
      (.complete 1 (some { StatusRecord.clean with dirty := true })) :=
    ⟨⟨⟨"/r/a", 2⟩, false, false⟩, by decide, rfl⟩
  have hfirst : Disciplined (overtaken.take 1) := .snoc .nil (by simp) trivial
  have hsecond : Disciplined (overtaken.take 2) :=
    .snoc hfirst (by simp [overtaken, Call.Precedes]) trivial
  have hthird : Disciplined (overtaken.take 3) :=
    .snoc hsecond (by simp [overtaken, Call.Precedes]) trivial
  have hdisciplined : Disciplined overtaken :=
    .snoc hthird (by simp [overtaken, Call.Precedes]) hallowed
  obtain ⟨-, hanswers, hhits, -⟩ := one_live_request hdisciplined
  have hlive : (play overtaken).live "/r/a" = [] := by decide
  have hlate : (play overtaken).requests[0]? = some ⟨⟨"/r/a", 1⟩, false, true⟩ := by decide
  have hopen : (play overtaken).Allows (.complete 0 (some .clean)) := ⟨_, hlate, rfl⟩
  exact ⟨hdisciplined, hlive, (hhits _ _).mpr ⟨hlive, by decide⟩, hopen,
    (hanswers 0 (some .clean) _ hlate hopen).2 rfl⟩

end Ledger

end DirectoryBrowser.StatusCache
