import DirectoryBrowser.Status.Cache
import Mathlib.Data.List.Count
import Mathlib.Order.Nat

/-!
# Tickets of the status cache

A request that has been granted carries a ticket, its path and generation.
The cache keeps no list of requests: a slot only knows the generation that
claimed it last and whether an answer is still due. `Accounts` says when the
slots of a cache agree with the tickets that are still unanswered, and each
operation of the cache is shown to keep it. The ticket of the slot's own
generation is then the only one whose answer counts.
-/

namespace DirectoryBrowser.StatusCache

/-! ### What the operations read and write -/

section Slots

variable (slot : Slot) (generation : Nat)

@[simp] theorem lookup_claim (isDir : Bool) : (slot.claim isDir generation).lookup = .inFlight :=
  rfl

@[simp] theorem lookup_answer_some (record : StatusRecord) :
    (slot.answer generation (some record)).lookup = .hit record := rfl

@[simp] theorem lookup_answer_none : (slot.answer generation none).lookup = .miss := by
  unfold Slot.lookup Slot.answer
  cases slot.record <;> rfl

@[simp] theorem lookup_invalidate : (slot.invalidate generation).lookup = .miss := by
  unfold Slot.lookup Slot.invalidate
  cases slot.record <;> rfl

end Slots

theorem lookup_set (cache : StatusCache) (path other : String) (slot : Slot) :
    lookup ⟨cache.slots.set path slot⟩ other =
      if path = other then slot.lookup else cache.lookup other := by
  unfold lookup
  dsimp only
  rw [Table.find?_set]
  by_cases hpath : path = other
  · rw [if_pos hpath, if_pos hpath]
  · rw [if_neg hpath, if_neg hpath]

theorem textFor_of_find? {cache : StatusCache} {path : String} {slot : Slot}
    (hslot : cache.slots.find? path = some slot) : cache.textFor path = slot.text path := by
  unfold textFor
  rw [hslot]

theorem textFor_set_of_ne (cache : StatusCache) {path other : String} (slot : Slot)
    (hne : path ≠ other) : textFor ⟨cache.slots.set path slot⟩ other = cache.textFor other := by
  unfold textFor
  dsimp only
  rw [Table.find?_set_of_ne _ _ hne]

theorem lookup_invalidateUnder (cache : StatusCache) (directory path : String)
    (generation : Nat) :
    (cache.invalidateUnder directory generation).lookup path =
      if Path.isUnder (Path.normalize directory) path then .miss else cache.lookup path := by
  unfold lookup invalidateUnder
  dsimp only
  rw [Table.find?_mapValues]
  cases cache.slots.find? path with
  | none => simp
  | some slot =>
    by_cases hunder : Path.isUnder (Path.normalize directory) path = true
    · simp only [Option.map_some, if_pos hunder, lookup_invalidate]
    · simp only [Option.map_some, if_neg hunder]

theorem lookup_eq_inFlight_iff {cache : StatusCache} {path : String} :
    cache.lookup path = .inFlight ↔
      ∃ slot, cache.slots.find? path = some slot ∧ slot.pending = true := by
  unfold lookup
  cases hslot : cache.slots.find? path with
  | none => simp
  | some slot =>
    rcases slot with ⟨generation, record, isDir, pending, fresh⟩
    cases pending <;> cases record <;> cases fresh <;> simp [Slot.lookup]

theorem lookup_eq_hit_iff {cache : StatusCache} {path : String} {record : StatusRecord} :
    cache.lookup path = .hit record ↔
      ∃ slot, cache.slots.find? path = some slot ∧
        slot.pending = false ∧ slot.fresh = true ∧ slot.record = some record := by
  unfold lookup
  cases hslot : cache.slots.find? path with
  | none => simp
  | some slot =>
    rcases slot with ⟨generation, kept, isDir, pending, fresh⟩
    cases pending <;> cases kept <;> cases fresh <;> simp [Slot.lookup]

theorem lookup_eq_miss_iff {cache : StatusCache} {path : String} :
    cache.lookup path = .miss ↔
      ∀ slot, cache.slots.find? path = some slot →
        slot.pending = false ∧ (slot.fresh = false ∨ slot.record = none) := by
  unfold lookup
  cases hslot : cache.slots.find? path with
  | none => simp
  | some slot =>
    rcases slot with ⟨generation, kept, isDir, pending, fresh⟩
    cases pending <;> cases kept <;> cases fresh <;> simp [Slot.lookup]

/-- The cache once a path has been claimed. -/
def claimed (cache : StatusCache) (path : String) (isDir : Bool) (generation : Nat) :
    StatusCache :=
  ⟨cache.slots.set path
    (((cache.slots.find? path).getD (Slot.unclaimed isDir generation)).claim isDir generation)⟩

theorem begin_of_miss {cache : StatusCache} {path : String} {generation : Nat} (isDir : Bool)
    (hmiss : cache.lookup path = .miss)
    (hbound : ∀ slot, cache.slots.find? path = some slot → slot.generation ≤ generation) :
    cache.begin path isDir generation = (true, cache.claimed path isDir generation) := by
  have hclaim : ((cache.slots.find? path).getD
      (Slot.unclaimed isDir generation)).isClaimable generation = true := by
    cases hslot : cache.slots.find? path with
    | none => simp [Slot.isClaimable, Slot.unclaimed]
    | some slot =>
      obtain ⟨hpending, hstale⟩ := lookup_eq_miss_iff.mp hmiss slot hslot
      have hle := hbound slot hslot
      rcases hstale with hstale | hstale <;>
        simp [Slot.isClaimable, hpending, hstale, hle]
  unfold begin claimed
  rw [if_pos hclaim]

theorem begin_of_ne_miss {cache : StatusCache} {path : String} (isDir : Bool) (generation : Nat)
    (h : cache.lookup path ≠ .miss) : cache.begin path isDir generation = (false, cache) := by
  cases hslot : cache.slots.find? path with
  | none => exact absurd (lookup_eq_miss_iff.mpr (by simp [hslot])) h
  | some slot =>
    have hclaim : ¬ slot.isClaimable generation = true := by
      intro hclaim
      apply h
      rw [lookup_eq_miss_iff]
      intro other hother
      rw [hslot, Option.some.injEq] at hother
      subst hother
      simp only [Slot.isClaimable, Bool.and_eq_true, Bool.not_eq_true', Bool.and_eq_false_iff,
        Option.isSome_eq_false_iff, Option.isNone_iff_eq_none] at hclaim
      exact hclaim.1
    unfold begin
    rw [hslot, Option.getD_some, if_neg hclaim]

theorem find?_claimed (cache : StatusCache) (path other : String) (isDir : Bool)
    (generation : Nat) :
    (cache.claimed path isDir generation).slots.find? other =
      if path = other then
        some (((cache.slots.find? path).getD (Slot.unclaimed isDir generation)).claim
          isDir generation)
      else cache.slots.find? other := by
  unfold claimed
  exact Table.find?_set _ _ _ _

theorem lookup_claimed (cache : StatusCache) (path other : String) (isDir : Bool)
    (generation : Nat) :
    (cache.claimed path isDir generation).lookup other =
      if path = other then .inFlight else cache.lookup other := by
  unfold claimed
  rw [lookup_set, lookup_claim]

/-- An answer that comes after its slot has moved on changes nothing. -/
theorem complete_of_lt {cache : StatusCache} {path : String} {slot : Slot} {generation : Nat}
    (record : Option StatusRecord) (hslot : cache.slots.find? path = some slot)
    (hlt : generation < slot.generation) :
    cache.complete path generation record = (⟨false, false⟩, cache) := by
  unfold complete
  rw [hslot]
  exact if_pos hlt

theorem complete_of_le {cache : StatusCache} {path : String} {slot : Slot} {generation : Nat}
    (record : Option StatusRecord) (hslot : cache.slots.find? path = some slot)
    (hle : slot.generation ≤ generation) :
    cache.complete path generation record =
      (⟨record.isSome, (slot.answer generation record).text path != slot.text path⟩,
        ⟨cache.slots.set path (slot.answer generation record)⟩) := by
  unfold complete
  rw [hslot]
  exact if_neg (Nat.not_lt.mpr hle)

@[simp] theorem find?_invalidateUnder (cache : StatusCache) (directory path : String)
    (generation : Nat) :
    (cache.invalidateUnder directory generation).slots.find? path =
      (cache.slots.find? path).map fun slot ↦
        if Path.isUnder (Path.normalize directory) path then slot.invalidate generation
        else slot := by
  unfold invalidateUnder
  rw [Table.find?_mapValues]

/-! ### Accounts -/

structure Ticket where
  path : String
  generation : Nat
  deriving DecidableEq, Repr

/-- The slots agree with the unanswered tickets, none of which is of a generation above `top`. -/
structure Accounts (cache : StatusCache) (tickets : List Ticket) (top : Nat) : Prop where
  bounded : ∀ path slot, cache.slots.find? path = some slot → slot.generation ≤ top
  known : ∀ ticket ∈ tickets, ∃ slot,
    cache.slots.find? ticket.path = some slot ∧ ticket.generation ≤ slot.generation
  holders : ∀ path slot, cache.slots.find? path = some slot →
    tickets.count ⟨path, slot.generation⟩ = if slot.pending then 1 else 0

/-- The answer to a ticket is the one that its slot waits for. -/
def Awaits (cache : StatusCache) (ticket : Ticket) : Prop :=
  ∃ slot, cache.slots.find? ticket.path = some slot ∧
    slot.pending = true ∧ slot.generation = ticket.generation

namespace Accounts

variable {cache : StatusCache} {tickets : List Ticket} {top : Nat}

theorem empty : Accounts .empty [] 0 where
  bounded := by simp [StatusCache.empty]
  known := by simp
  holders := by simp [StatusCache.empty]

theorem mono (h : Accounts cache tickets top) {higher : Nat} (hle : top ≤ higher) :
    Accounts cache tickets higher :=
  { h with bounded := fun path slot hslot ↦ (h.bounded path slot hslot).trans hle }

/-- A ticket is either awaited or of an older generation than its slot. -/
theorem awaits_or_lt (h : Accounts cache tickets top) {ticket : Ticket} (hmem : ticket ∈ tickets) :
    cache.Awaits ticket ∨
      ∃ slot, cache.slots.find? ticket.path = some slot ∧ ticket.generation < slot.generation := by
  obtain ⟨slot, hslot, hle⟩ := h.known ticket hmem
  rcases Nat.lt_or_eq_of_le hle with hlt | heq
  · exact Or.inr ⟨slot, hslot, hlt⟩
  · left
    have hcount := h.holders ticket.path slot hslot
    have hpos : 0 < tickets.count ⟨ticket.path, slot.generation⟩ := by
      rw [← heq]
      exact List.count_pos_iff.mpr hmem
    refine ⟨slot, hslot, ?_, heq.symm⟩
    by_contra hpending
    rw [if_neg hpending] at hcount
    omega

theorem exists_awaited (h : Accounts cache tickets top) {path : String} {slot : Slot}
    (hslot : cache.slots.find? path = some slot) (hpending : slot.pending = true) :
    ⟨path, slot.generation⟩ ∈ tickets := by
  have hcount := h.holders path slot hslot
  rw [if_pos hpending] at hcount
  apply List.count_pos_iff.mp
  omega

/-- A path that is missed can be claimed by any generation from `top` on. -/
theorem begin_eq (h : Accounts cache tickets top) {path : String} {generation : Nat}
    (isDir : Bool) (hmiss : cache.lookup path = .miss) (hle : top ≤ generation) :
    cache.begin path isDir generation = (true, cache.claimed path isDir generation) :=
  begin_of_miss isDir hmiss fun slot hslot ↦ (h.bounded path slot hslot).trans hle

theorem claimed (h : Accounts cache tickets top) {path : String} {generation : Nat}
    (isDir : Bool) (hmiss : cache.lookup path = .miss) (hle : top ≤ generation) :
    Accounts (cache.claimed path isDir generation) (tickets ++ [⟨path, generation⟩])
      generation where
  bounded := by
    intro other slot hslot
    rw [find?_claimed] at hslot
    split at hslot
    · cases hslot
      exact Nat.le_refl _
    · exact (h.bounded other slot hslot).trans hle
  known := by
    intro ticket hmem
    rw [find?_claimed]
    by_cases hpath : path = ticket.path
    · rw [if_pos hpath]
      refine ⟨_, rfl, ?_⟩
      rcases List.mem_append.mp hmem with hold | hnew
      · obtain ⟨slot, hslot, hticket⟩ := h.known ticket hold
        exact hticket.trans ((h.bounded _ slot hslot).trans hle)
      · rw [List.mem_singleton.mp hnew]
        exact Nat.le_refl _
    · rw [if_neg hpath]
      rcases List.mem_append.mp hmem with hold | hnew
      · exact h.known ticket hold
      · rw [List.mem_singleton.mp hnew] at hpath
        exact absurd rfl hpath
  holders := by
    intro other slot hslot
    rw [find?_claimed] at hslot
    rw [List.count_append]
    split at hslot
    case isTrue hpath =>
      subst hpath
      cases hslot
      -- No unanswered ticket has the claiming generation: its slot would still be pending.
      have hnone : tickets.count ⟨path, generation⟩ = 0 := by
        rw [List.count_eq_zero]
        intro hmem
        obtain ⟨slot, hslot, hticket⟩ := h.known _ hmem
        have hgeneration : slot.generation = generation :=
          Nat.le_antisymm ((h.bounded path slot hslot).trans hle) hticket
        have hcount := h.holders path slot hslot
        rw [(lookup_eq_miss_iff.mp hmiss slot hslot).1, hgeneration] at hcount
        have hpos := List.count_pos_iff.mpr hmem
        simp only [Bool.false_eq_true, if_false] at hcount
        omega
      simp [Slot.claim, hnone]
    case isFalse hpath =>
      rw [h.holders other slot hslot]
      simp [hpath]

/-- Answering a ticket settles it, whether or not the answer is kept. -/
theorem complete {before after : List Ticket} {ticket : Ticket}
    (h : Accounts cache (before ++ ticket :: after) top) (record : Option StatusRecord) :
    Accounts (cache.complete ticket.path ticket.generation record).2 (before ++ after) top := by
  have hcount : ∀ other, (before ++ ticket :: after).count other =
      (before ++ after).count other + if ticket = other then 1 else 0 := by
    intro other
    simp only [List.count_append, List.count_cons, beq_iff_eq]
    omega
  have hsub : ∀ other ∈ before ++ after, other ∈ before ++ ticket :: after := by
    intro other hmem
    rcases List.mem_append.mp hmem with hbefore | hafter
    · exact List.mem_append_left _ hbefore
    · exact List.mem_append_right _ (List.mem_cons_of_mem _ hafter)
  have hmem : ticket ∈ before ++ ticket :: after := by simp
  obtain ⟨slot, hslot, hle⟩ := h.known ticket hmem
  rcases Nat.lt_or_eq_of_le hle with hlt | heq
  · rw [complete_of_lt record hslot hlt]
    refine ⟨h.bounded, fun other hother ↦ h.known other (hsub other hother), ?_⟩
    intro path other hother
    have hne : ticket ≠ ⟨path, other.generation⟩ := by
      intro heq
      rw [heq] at hslot hlt
      rw [hother, Option.some.injEq] at hslot
      rw [hslot] at hlt
      exact Nat.lt_irrefl _ hlt
    rw [← h.holders path other hother, hcount, if_neg hne, Nat.add_zero]
  · rw [complete_of_le record hslot heq.ge]
    have hanswer : (slot.answer ticket.generation record).generation = ticket.generation ∧
        (slot.answer ticket.generation record).pending = false := by
      cases record <;> exact ⟨rfl, rfl⟩
    refine ⟨?_, ?_, ?_⟩
    · intro path other hother
      rw [Table.find?_set] at hother
      split at hother
      · cases hother
        rw [hanswer.1, heq]
        exact h.bounded _ slot hslot
      · exact h.bounded path other hother
    · intro other hother
      obtain ⟨kept, hkept, hticket⟩ := h.known other (hsub other hother)
      rw [Table.find?_set]
      split
      case isTrue hpath =>
        rw [← hpath, hslot, Option.some.injEq] at hkept
        refine ⟨_, rfl, ?_⟩
        rw [hanswer.1, heq, hkept]
        exact hticket
      case isFalse => exact ⟨kept, hkept, hticket⟩
    · intro path other hother
      rw [Table.find?_set] at hother
      split at hother
      case isTrue hpath =>
        subst hpath
        cases hother
        have hall := h.holders _ slot hslot
        rw [hanswer.1, hanswer.2]
        rw [← heq, hcount, if_pos rfl] at hall
        split at hall
        · simpa using hall
        · omega
      case isFalse hpath =>
        have hne : ticket ≠ ⟨path, other.generation⟩ := fun heq ↦ hpath (congrArg Ticket.path heq)
        rw [← h.holders path other hother, hcount, if_neg hne, Nat.add_zero]

/-- A generation that no request has used yet makes every ticket under the directory a late one. -/
theorem invalidateUnder (h : Accounts cache tickets top) (directory : String) {generation : Nat}
    (hle : top ≤ generation) (hnew : ∀ ticket ∈ tickets, ticket.generation < generation) :
    Accounts (cache.invalidateUnder directory generation) tickets generation where
  bounded := by
    intro path slot hslot
    rw [find?_invalidateUnder, Option.map_eq_some_iff] at hslot
    obtain ⟨kept, hkept, rfl⟩ := hslot
    have hbound := (h.bounded path kept hkept).trans hle
    split
    · exact Nat.max_le.mpr ⟨hbound, Nat.le_refl _⟩
    · exact hbound
  known := by
    intro ticket hmem
    obtain ⟨kept, hkept, hticket⟩ := h.known ticket hmem
    rw [find?_invalidateUnder, hkept]
    refine ⟨_, rfl, ?_⟩
    split
    · exact hticket.trans (Nat.le_max_left _ _)
    · exact hticket
  holders := by
    intro path slot hslot
    rw [find?_invalidateUnder, Option.map_eq_some_iff] at hslot
    obtain ⟨kept, hkept, rfl⟩ := hslot
    split
    · have hgeneration : (kept.invalidate generation).generation = generation :=
        Nat.max_eq_right ((h.bounded path kept hkept).trans hle)
      rw [hgeneration, List.count_eq_zero.mpr]
      · rfl
      · intro hmem
        exact Nat.lt_irrefl _ (hnew _ hmem)
    · exact h.holders path kept hkept

end Accounts

/-- A slot that waits for no answer is given none. -/
theorem find?_complete_of_idle {cache : StatusCache} {ticket : Ticket} {path : String}
    (record : Option StatusRecord)
    (h : cache.Awaits ticket ∨
      ∃ slot, cache.slots.find? ticket.path = some slot ∧ ticket.generation < slot.generation)
    (hidle : ∀ slot, cache.slots.find? path = some slot → slot.pending = false) :
    (cache.complete ticket.path ticket.generation record).2.slots.find? path =
      cache.slots.find? path := by
  rcases h with ⟨slot, hslot, hpending, hgeneration⟩ | ⟨slot, hslot, hlt⟩
  · have hne : ticket.path ≠ path := by
      rintro rfl
      have hnone := hidle slot hslot
      rw [hpending] at hnone
      cases hnone
    rw [complete_of_le record hslot hgeneration.le]
    exact Table.find?_set_of_ne _ _ hne
  · rw [complete_of_lt record hslot hlt]

/-! ### A cache that was not empty -/

/-- A claim that is granted finds a path that is missed, and no slot of a later generation. -/
theorem miss_of_granted {cache : StatusCache} {path : String} {isDir : Bool} {generation : Nat}
    (h : (cache.begin path isDir generation).1 = true) :
    cache.lookup path = .miss ∧
      ∀ slot, cache.slots.find? path = some slot → slot.generation ≤ generation := by
  constructor
  · by_contra hmiss
    rw [begin_of_ne_miss isDir generation hmiss] at h
    cases h
  · intro slot hslot
    unfold begin at h
    rw [hslot, Option.getD_some] at h
    dsimp only at h
    split at h
    case isTrue hclaim =>
      simp only [Slot.isClaimable, Bool.and_eq_true, decide_eq_true_eq] at hclaim
      exact hclaim.2
    case isFalse => cases h

theorem begin_of_refused {cache : StatusCache} {path : String} {isDir : Bool} {generation : Nat}
    (h : (cache.begin path isDir generation).1 = false) :
    (cache.begin path isDir generation).2 = cache := by
  unfold begin at h ⊢
  dsimp only at h ⊢
  split at h
  case isTrue => cases h
  case isFalse hclaim => rw [if_neg hclaim]

/-- Each ticket is awaited, or comes too late, and none is given out twice. Other than `Accounts`
this holds whatever the slots were when the first ticket was given out. -/
structure Guarded (cache : StatusCache) (tickets : List Ticket) : Prop where
  nodup : tickets.Nodup
  awaits_or_lt : ∀ ticket ∈ tickets, cache.Awaits ticket ∨
    ∃ slot, cache.slots.find? ticket.path = some slot ∧ ticket.generation < slot.generation

namespace Guarded

variable {cache : StatusCache} {tickets : List Ticket}

theorem nothing (cache : StatusCache) : Guarded cache [] := ⟨List.nodup_nil, by simp⟩

theorem claimed (h : Guarded cache tickets) {path : String} {generation : Nat} (isDir : Bool)
    (hmiss : cache.lookup path = .miss)
    (hbound : ∀ slot, cache.slots.find? path = some slot → slot.generation ≤ generation) :
    Guarded (cache.claimed path isDir generation) (tickets ++ [⟨path, generation⟩]) := by
  have hlate : ∀ ticket ∈ tickets, ticket.path = path → ticket.generation < generation := by
    rintro ticket hmem rfl
    rcases h.awaits_or_lt ticket hmem with ⟨slot, hslot, hpending, -⟩ | ⟨slot, hslot, hlt⟩
    · have hidle := (lookup_eq_miss_iff.mp hmiss slot hslot).1
      rw [hpending] at hidle
      cases hidle
    · exact Nat.lt_of_lt_of_le hlt (hbound slot hslot)
  refine ⟨List.nodup_append.mpr ⟨h.nodup, by simp, ?_⟩, ?_⟩
  · rintro ticket hmem other hnew rfl
    rw [List.mem_singleton.mp hnew] at hmem
    exact Nat.lt_irrefl _ (hlate _ hmem rfl)
  · intro ticket hmem
    unfold Awaits
    rw [find?_claimed]
    rcases List.mem_append.mp hmem with hold | hnew
    · by_cases hpath : path = ticket.path
      · rw [if_pos hpath]
        exact Or.inr ⟨_, rfl, hlate ticket hold hpath.symm⟩
      · rw [if_neg hpath]
        exact h.awaits_or_lt ticket hold
    · rw [List.mem_singleton.mp hnew, if_pos rfl]
      exact Or.inl ⟨_, rfl, rfl, rfl⟩

theorem complete {before after : List Ticket} {ticket : Ticket}
    (h : Guarded cache (before ++ ticket :: after)) (record : Option StatusRecord) :
    Guarded (cache.complete ticket.path ticket.generation record).2 (before ++ after) := by
  have hnodup := List.perm_middle.nodup_iff.mp h.nodup
  have hothers : ∀ other ∈ before ++ after, other ∈ before ++ ticket :: after := by
    intro other hother
    exact List.perm_middle.symm.subset (List.mem_cons_of_mem _ hother)
  refine ⟨(List.nodup_cons.mp hnodup).2, ?_⟩
  intro other hother
  have hheld := h.awaits_or_lt other (hothers other hother)
  rcases h.awaits_or_lt ticket (by simp) with ⟨slot, hslot, -, hgeneration⟩ | ⟨slot, hslot, hlt⟩
  · rw [complete_of_le record hslot hgeneration.le]
    unfold Awaits at hheld ⊢
    rw [Table.find?_set]
    by_cases hpath : ticket.path = other.path
    · rw [if_pos hpath]
      rw [← hpath, hslot] at hheld
      have hanswer : (slot.answer ticket.generation record).generation = slot.generation := by
        rw [hgeneration]
        cases record <;> rfl
      refine Or.inr ⟨_, rfl, ?_⟩
      rw [hanswer]
      rcases hheld with ⟨kept, hkept, -, heq⟩ | ⟨kept, hkept, hlt⟩
      · -- The ticket that the slot waits for is the one that is answered.
        cases hkept
        have hsame : ticket = other := by
          cases ticket
          cases other
          exact congrArg₂ Ticket.mk hpath (hgeneration.symm.trans heq)
        exact absurd (hsame ▸ hother) (List.nodup_cons.mp hnodup).1
      · cases hkept
        exact hlt
    · rw [if_neg hpath]
      exact hheld
  · rw [complete_of_lt record hslot hlt]
    exact hheld

theorem invalidateUnder (h : Guarded cache tickets) (directory : String) {generation : Nat}
    (hnew : ∀ ticket ∈ tickets, ticket.generation < generation) :
    Guarded (cache.invalidateUnder directory generation) tickets := by
  refine ⟨h.nodup, ?_⟩
  intro ticket hmem
  have hheld := h.awaits_or_lt ticket hmem
  unfold Awaits at hheld ⊢
  rw [find?_invalidateUnder]
  by_cases hunder : Path.isUnder (Path.normalize directory) ticket.path = true
  · have hslot : ∃ slot, cache.slots.find? ticket.path = some slot :=
      hheld.elim (fun ⟨slot, hslot, _⟩ ↦ ⟨slot, hslot⟩) fun ⟨slot, hslot, _⟩ ↦ ⟨slot, hslot⟩
    obtain ⟨slot, hslot⟩ := hslot
    rw [hslot, Option.map_some, if_pos hunder]
    exact Or.inr ⟨_, rfl, Nat.lt_of_lt_of_le (hnew ticket hmem) (Nat.le_max_right _ _)⟩
  · simp only [if_neg hunder, Option.map_id']
    exact hheld

end Guarded

end DirectoryBrowser.StatusCache
