import DirectoryBrowser.Navigation.Session
import DirectoryBrowser.Proofs.Status.Tickets

/-!
# Requests of a session and the slots they answer

The requests that a session has under way hold tickets of its cache until they
are answered there. `Tracked` says that these are all the tickets there are,
and that none is of a later generation than the session. Each change that a
step makes to the cache or to the requests is shown to keep it.
-/

namespace DirectoryBrowser

open StatusCache

/-- If an answer is waited for at the key, it is one of the generation. -/
def StatusCache.Belongs (cache : StatusCache) (key : String) (generation : Nat) : Prop :=
  ∀ slot, cache.slots.find? key = some slot → slot.pending = true → slot.generation = generation

namespace StatusJob

def ticket (job : StatusJob) : Ticket := ⟨job.key, job.generation⟩

/-- The cache has not been given the answer. -/
def isOpen (job : StatusJob) : Bool :=
  match job.stage with
  | .queued | .computed _ => true
  | .cached _ | .posted => false

theorem isOpen_of_queued {job : StatusJob} (hstage : job.stage = .queued) : job.isOpen = true := by
  unfold isOpen
  rw [hstage]

theorem isOpen_of_computed {job : StatusJob} {record : Option StatusRecord}
    (hstage : job.stage = .computed record) : job.isOpen = true := by
  unfold isOpen
  rw [hstage]

theorem isOpen_of_cached {job : StatusJob} {changed : Bool} (hstage : job.stage = .cached changed) :
    job.isOpen = false := by
  unfold isOpen
  rw [hstage]

theorem isOpen_of_posted {job : StatusJob} (hstage : job.stage = .posted) :
    job.isOpen = false := by
  unfold isOpen
  rw [hstage]

end StatusJob

def openTickets (jobs : List StatusJob) : List Ticket :=
  (jobs.filter StatusJob.isOpen).map StatusJob.ticket

@[simp] theorem openTickets_append (before after : List StatusJob) :
    openTickets (before ++ after) = openTickets before ++ openTickets after := by
  simp [openTickets]

theorem openTickets_cons (job : StatusJob) (jobs : List StatusJob) :
    openTickets (job :: jobs) = (if job.isOpen then [job.ticket] else []) ++ openTickets jobs := by
  unfold openTickets
  rw [List.filter_cons]
  split
  · rfl
  · rfl

structure Tracked (cache : StatusCache) (jobs : List StatusJob) (generation : Nat) : Prop where
  accounts : Accounts cache (openTickets jobs) generation
  begun : ∀ job ∈ jobs, job.generation ≤ generation

namespace Tracked

variable {cache : StatusCache} {jobs before after : List StatusJob} {job : StatusJob}
  {generation : Nat}

theorem empty : Tracked .empty [] 0 where
  accounts := .empty
  begun := by simp

theorem mono (h : Tracked cache jobs generation) {later : Nat} (hle : generation ≤ later) :
    Tracked cache jobs later where
  accounts := h.accounts.mono hle
  begun job hjob := (h.begun job hjob).trans hle

theorem mem_split {other : StatusJob} (hother : other ∈ before ++ job :: after) :
    other ∈ before ++ after ∨ other = job := by
  rcases List.mem_append.mp hother with hbefore | hrest
  · exact Or.inl (List.mem_append_left _ hbefore)
  · rcases List.mem_cons.mp hrest with hjob | hafter
    · exact Or.inr hjob
    · exact Or.inl (List.mem_append_right _ hafter)

theorem mem_split_of_mem {other : StatusJob} (hother : other ∈ before ++ after) :
    other ∈ before ++ job :: after := by
  rcases List.mem_append.mp hother with hbefore | hafter
  · exact List.mem_append_left _ hbefore
  · exact List.mem_append_right _ (List.mem_cons_of_mem _ hafter)

/-- What does not depend on the stage of a request outlives a change of it. -/
theorem forall_staged {motive : StatusJob → Prop} (stage : JobStage)
    (hkeep : motive job → motive { job with stage })
    (h : ∀ other ∈ before ++ job :: after, motive other) :
    ∀ other ∈ before ++ { job with stage } :: after, motive other := by
  intro other hother
  rcases mem_split hother with hold | rfl
  · exact h other (mem_split_of_mem hold)
  · exact hkeep (h job (by simp))

theorem staged (h : Tracked cache (before ++ job :: after) generation) {stage : JobStage}
    (hopen : ({ job with stage } : StatusJob).isOpen = job.isOpen) :
    Tracked cache (before ++ { job with stage } :: after) generation where
  accounts := by
    have haccounts := h.accounts
    rw [openTickets_append, openTickets_cons] at haccounts ⊢
    rw [hopen]
    exact haccounts
  begun := forall_staged (motive := (·.generation ≤ generation)) stage id h.begun

theorem completed (h : Tracked cache (before ++ job :: after) generation)
    {record : Option StatusRecord} (hstage : job.stage = .computed record) (changed : Bool) :
    Tracked (cache.complete job.key job.generation record).2
      (before ++ { job with stage := .cached changed } :: after) generation where
  accounts := by
    have haccounts := h.accounts
    rw [openTickets_append, openTickets_cons, if_pos (job.isOpen_of_computed hstage)] at haccounts
    rw [openTickets_append, openTickets_cons, if_neg (by simp [StatusJob.isOpen])]
    exact haccounts.complete record
  begun := forall_staged (motive := (·.generation ≤ generation)) _ id h.begun

theorem retired (h : Tracked cache (before ++ job :: after) generation)
    (hstage : job.stage = .posted) : Tracked cache (before ++ after) generation where
  accounts := by
    have haccounts := h.accounts
    rw [openTickets_append, openTickets_cons, job.isOpen_of_posted hstage] at haccounts
    rw [openTickets_append]
    exact haccounts
  begun other hother := h.begun other (mem_split_of_mem hother)

theorem claimed (h : Tracked cache jobs generation) (hmiss : cache.lookup job.key = .miss)
    (hstage : job.stage = .queued) (hgeneration : job.generation = generation) :
    Tracked (cache.claimed job.key job.isDir job.generation) (jobs ++ [job]) generation where
  accounts := by
    have haccounts := h.accounts.claimed job.isDir hmiss hgeneration.ge
    rw [openTickets_append, openTickets_cons, if_pos (job.isOpen_of_queued hstage)]
    rw [hgeneration] at haccounts ⊢
    have hticket : job.ticket = ⟨job.key, generation⟩ := by rw [← hgeneration]; rfl
    rw [hticket]
    exact haccounts
  begun other hother := by
    rcases List.mem_append.mp hother with hold | hnew
    · exact h.begun other hold
    · rw [List.mem_singleton.mp hnew]
      exact hgeneration.le

theorem invalidated (h : Tracked cache jobs generation)
    (hnew : ∀ job ∈ jobs, job.generation < generation) (directory : String) :
    Tracked (cache.invalidateUnder directory generation) jobs generation where
  accounts := by
    apply h.accounts.invalidateUnder directory (Nat.le_refl _)
    intro ticket hticket
    obtain ⟨job, hjob, rfl⟩ := List.mem_map.mp hticket
    exact hnew job (List.mem_filter.mp hjob).1
  begun := h.begun

/-- An answer is either waited for, or comes after its slot has moved on. -/
theorem awaited_or_late (h : Tracked cache (before ++ job :: after) generation)
    (hopen : job.isOpen = true) :
    (∃ slot, cache.slots.find? job.key = some slot ∧
        slot.pending = true ∧ slot.generation = job.generation) ∨
      ∃ slot, cache.slots.find? job.key = some slot ∧ job.generation < slot.generation := by
  have hticket : job.ticket ∈ openTickets (before ++ job :: after) := by
    rw [openTickets_append, openTickets_cons, if_pos hopen]
    simp
  exact h.accounts.awaits_or_lt hticket

/-- An answer never changes the generation of a slot. -/
theorem exists_slot_complete (h : Tracked cache (before ++ job :: after) generation)
    {record : Option StatusRecord} (hstage : job.stage = .computed record) {key : String}
    {slot : Slot} (hslot : cache.slots.find? key = some slot) :
    ∃ slot', (cache.complete job.key job.generation record).2.slots.find? key = some slot' ∧
      slot'.generation = slot.generation := by
  rcases h.awaited_or_late (job.isOpen_of_computed hstage) with ⟨held, hheld, -, hgeneration⟩ |
    ⟨held, hheld, hlt⟩
  · rw [complete_of_le record hheld hgeneration.le, Table.find?_set]
    by_cases hkey : job.key = key
    · rw [if_pos hkey]
      rw [← hkey, hheld, Option.some.injEq] at hslot
      refine ⟨_, rfl, ?_⟩
      rw [← hslot, hgeneration]
      cases record <;> rfl
    · rw [if_neg hkey]
      exact ⟨slot, hslot, rfl⟩
  · rw [complete_of_lt record hheld hlt]
    exact ⟨slot, hslot, rfl⟩

/-- A slot that waits for no answer is given none. -/
theorem find?_complete_of_idle (h : Tracked cache (before ++ job :: after) generation)
    {record : Option StatusRecord} (hstage : job.stage = .computed record) {key : String}
    (hidle : ∀ slot, cache.slots.find? key = some slot → slot.pending = false) :
    (cache.complete job.key job.generation record).2.slots.find? key = cache.slots.find? key := by
  have hticket : cache.Awaits job.ticket ∨ ∃ slot,
      cache.slots.find? job.ticket.path = some slot ∧ job.ticket.generation < slot.generation :=
    h.awaited_or_late (job.isOpen_of_computed hstage)
  exact StatusCache.find?_complete_of_idle record hticket hidle

/-- A key that is missed has no request that is waited for, so nothing that is answered before it
is claimed can touch its slot. -/
theorem lookup_complete_of_miss (h : Tracked cache (before ++ job :: after) generation)
    {record : Option StatusRecord} (hstage : job.stage = .computed record) {key : String}
    (hmiss : cache.lookup key = .miss) :
    (cache.complete job.key job.generation record).2.lookup key = .miss := by
  have hidle : ∀ slot, cache.slots.find? key = some slot → slot.pending = false :=
    fun slot hslot ↦ (lookup_eq_miss_iff.mp hmiss slot hslot).1
  unfold lookup at hmiss ⊢
  rw [h.find?_complete_of_idle hstage hidle]
  exact hmiss

theorem belongs_complete (h : Tracked cache (before ++ job :: after) generation)
    {record : Option StatusRecord} (hstage : job.stage = .computed record) {key : String}
    {owner : Nat} (hbelongs : cache.Belongs key owner) :
    (cache.complete job.key job.generation record).2.Belongs key owner := by
  rcases h.awaited_or_late (job.isOpen_of_computed hstage) with ⟨slot, hslot, -, hgeneration⟩ |
    ⟨slot, hslot, hlt⟩
  · rw [complete_of_le record hslot hgeneration.le]
    intro other hother hpending
    rw [Table.find?_set] at hother
    split at hother
    case isTrue =>
      cases hother
      cases record <;> cases hpending
    case isFalse => exact hbelongs other hother hpending
  · rw [complete_of_lt record hslot hlt]
    exact hbelongs

end Tracked

end DirectoryBrowser
