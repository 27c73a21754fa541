import DirectoryBrowser.Location
import DirectoryBrowser.Proofs.Navigation.Telling

/-!
# Badges that a snapshot waits for

A snapshot that finds a key in flight marks it, so that the answer to the
earlier request is announced. The mark is taken by the first update that names
the key, whichever request it comes from. If that update belongs to a request
that a refresh has overtaken, and the request that the snapshot found in flight
is still to be answered, then that answer moves the badge and nobody is told.
The last theorem says exactly when the listeners end up with the badge.
-/

namespace DirectoryBrowser.Session

open StatusCache

def slot? (session : Session) (key : String) : Option Slot :=
  session.status.bind fun cache ↦ cache.slots.find? key

/-! ### Steps while a loaded snapshot stays on show -/

inductive Quiet (session : Session) : Input → Session → Prop
  | kept {next : Session} (input : Input) (hsame : SameAnswers session next)
      (hwaiting : next.waiting = session.waiting)
      (hshown : ∀ path, next.shownBadge path = session.shownBadge path) :
      Quiet session input next
  | worked {next : Session} (input : Input) (hworked : Worked session next) :
      Quiet session input next
  | answered (path key : String) (generation : Nat) (changed : Bool) (later : List Update)
      (hinbox : session.inbox = .status path key generation changed :: later) :
      Quiet session .process
        (({ session with inbox := later } : Session).handleStatus path key generation changed)

theorem Calm.quiet {session next : Session} {input : Input} (h : Calm session input next) :
    Quiet session input next := by
  cases h with
  | kept _ saves hsame hwaiting htrace hsaves =>
    refine .kept _ hsame hwaiting fun path ↦ ?_
    exact (shownBadge_append htrace path).trans (foldl_badge_saved hsaves)
  | worked _ hworked => exact .worked _ hworked
  | answered path key generation changed later hinbox =>
    exact .answered path key generation changed later hinbox

/-- A step that opens no generation is quiet, since no listing of the present one is left. -/
theorem quiet_step {session : Session} {snapshot : Snapshot} {input : Input}
    (htimeline : Timeline session) (hcurrent : session.current = some snapshot)
    (hloaded : snapshot.state = .loaded)
    (hgeneration : (session.step input).generation = session.generation) :
    Quiet session input (session.step input) ∧
      (session.step input).current = some snapshot :=
  (calm_step htimeline hcurrent hloaded hgeneration).imp_left Calm.quiet

/-- What quiet steps keep holds for as long as a loaded snapshot stays on show. -/
theorem quiet_run {motive : Session → Prop} {session : Session} {snapshot : Snapshot}
    {inputs : List Input} (htimeline : Timeline session)
    (hcurrent : session.current = some snapshot) (hloaded : snapshot.state = .loaded)
    (hfinal : (session.run inputs).generation = session.generation) (hstart : motive session)
    (hstep : ∀ (session : Session) (input : Input), input ∈ inputs → Timeline session →
      motive session → Quiet session input (session.step input) →
      (session.step input).generation = session.generation → motive (session.step input)) :
    motive (session.run inputs) ∧ (session.run inputs).current = some snapshot :=
  calm_run htimeline hcurrent hloaded hfinal hstart
    fun session input hinput htimeline _ hmotive hcalm hgeneration ↦
      hstep session input hinput htimeline hmotive hcalm.quiet hgeneration

/-! ### After the mark has been taken -/

variable {path key : String} {session next : Session} {cache : StatusCache}

/-- The slot is waiting for nothing but the present generation, and the listeners either know the
badge or will be told. -/
structure Settling (path key : String) (session : Session) (cache : StatusCache) : Prop where
  unmarked : key ∉ session.waiting
  claimed : ∀ slot, cache.slots.find? key = some slot → slot.pending = true →
    slot.generation = session.generation
  shown : session.shownBadge path = cache.textFor key ∨ session.HasNews key

/-- No answer of the present generation is on its way to the key. -/
structure Abandoned (path key text : String) (session : Session) : Prop where
  unmarked : key ∉ session.waiting
  undue : ⟨key, session.generation⟩ ∉ session.unhandled
  shown : session.shownBadge path = text

theorem Settling.informed (h : Settling path key session cache) :
    Informed (Event.badge path) key (fun _ ↦ False) session cache :=
  ⟨h.claimed, h.shown.imp_right Or.inl⟩

theorem Informed.settling
    (h : Informed (Event.badge path) key (fun _ ↦ False) session cache)
    (hunmarked : key ∉ session.waiting) : Settling path key session cache :=
  ⟨hunmarked, h.belongs, h.told.imp_right fun hrest ↦ hrest.resolve_right And.right⟩

theorem Settling.worked (h : Settling path key session cache)
    (hwatched : Watched path key session cache) (hworked : Worked session next) :
    ∃ cache, next.status = some cache ∧ Settling path key next cache := by
  obtain ⟨cache', hstatus, hinformed⟩ :=
    h.informed.worked hwatched.status hwatched.tracked hworked
  have hunmarked : key ∉ next.waiting := by
    obtain ⟨status, jobs, pendingStatus, news, rfl, -⟩ := hworked.eq
    exact h.unmarked
  exact ⟨cache', hstatus, hinformed.settling hunmarked⟩

/-- Without a mark, only an answer of the present generation is news. -/
theorem isNews_of_unmarked (hunmarked : key ∉ session.waiting) {generation : Nat} {changed : Bool}
    {text : String} : session.isNews key generation changed text = true ↔
      generation = session.generation ∧ changed = true := by
  unfold isNews
  by_cases hgeneration : generation = session.generation
  · simp [hgeneration]
  · simp [hgeneration, hunmarked]

section Answered

variable {changedPath changedKey : String} {generation : Nat} {changed : Bool}
  {later : List Update}

theorem Settling.answered (h : Settling path key session cache)
    (hwatched : Watched path key session cache)
    (hinbox : session.inbox = .status changedPath changedKey generation changed :: later) :
    Settling path key (({ session with inbox := later } : Session).handleStatus changedPath
      changedKey generation changed) cache := by
  have hroute := hwatched.path_iff_key hinbox
  have hpopped : ({ session with inbox := later } : Session).status = some cache :=
    hwatched.status
  refine (h.informed.answered (follows_badge path) hwatched.status hinbox
    fun _ ↦ hroute).settling ?_
  rw [handleStatus_of_some hpopped]
  exact fun hwaiting ↦ h.unmarked (List.mem_filter.mp hwaiting).1

theorem Abandoned.answered {text : String} (h : Abandoned path key text session)
    (hwatched : Watched path key session cache)
    (hinbox : session.inbox = .status changedPath changedKey generation changed :: later) :
    Abandoned path key text (({ session with inbox := later } : Session).handleStatus changedPath
      changedKey generation changed) := by
  have hperm := Routed.unhandled_of_inbox hinbox
  have hroute := hwatched.path_iff_key hinbox
  have hpopped : ({ session with inbox := later } : Session).status = some cache :=
    hwatched.status
  refine ⟨?_, ?_, ?_⟩
  · rw [handleStatus_of_some hpopped]
    exact fun hwaiting ↦ h.unmarked (List.mem_filter.mp hwaiting).1
  · rw [handleStatus_of_some hpopped]
    intro hticket
    apply h.undue
    exact hperm.symm.subset (List.mem_cons_of_mem _ hticket)
  · rw [shownBadge_handleStatus hpopped, if_neg]
    · exact h.shown
    · rintro ⟨hnews, hpath⟩
      have hkey := hroute.mp hpath
      rw [hkey] at hnews
      obtain ⟨hgeneration, -⟩ := (isNews_of_unmarked h.unmarked).mp hnews
      apply h.undue
      rw [← hkey, ← hgeneration]
      exact hperm.symm.subset (List.mem_cons_self ..)

end Answered

/-! ### What the listeners end up with -/

theorem Settling.quiet {input : Input} (h : Settling path key session cache)
    (hwatched : Watched path key session cache) (hquiet : Quiet session input next)
    (hgeneration : next.generation = session.generation) :
    ∃ cache, next.status = some cache ∧ Settling path key next cache := by
  cases hquiet with
  | kept _ hsame hwaiting hshown =>
    refine ⟨cache, hsame.status.trans hwatched.status, hwaiting ▸ h.unmarked, ?_, ?_⟩
    · rw [hgeneration]
      exact h.claimed
    · unfold HasNews
      rw [hshown, hsame.jobs, hsame.answers, hgeneration]
      exact h.shown
  | worked _ hworked => exact h.worked hwatched hworked
  | answered changedPath changedKey generation changed later hinbox =>
    refine ⟨cache, ?_, h.answered hwatched hinbox⟩
    obtain ⟨waiting, news, hstatus, -⟩ := handleStatus_eq { session with inbox := later }
      changedPath changedKey generation changed
    rw [hstatus]
    exact hwatched.status

theorem Abandoned.quiet {text : String} {input : Input} (h : Abandoned path key text session)
    (hwatched : Watched path key session cache) (hquiet : Quiet session input next)
    (hgeneration : next.generation = session.generation) : Abandoned path key text next := by
  cases hquiet with
  | kept _ hsame hwaiting hshown =>
    refine ⟨hwaiting ▸ h.unmarked, ?_, (hshown path).trans h.shown⟩
    rw [hsame.unhandled, hgeneration]
    exact h.undue
  | worked _ hworked =>
    have hperm := hworked.unhandled_perm
    obtain ⟨status, jobs, pendingStatus, news, rfl, -⟩ := hworked.eq
    exact ⟨h.unmarked, fun hticket ↦ h.undue (hperm.subset hticket), h.shown⟩
  | answered changedPath changedKey generation changed later hinbox =>
    exact h.answered hwatched hinbox

theorem statusText_eq {snapshot : Snapshot} (htimeline : Timeline session)
    (hcurrent : session.current = some snapshot)
    (hplace : snapshot.backend.localPath? path = some key) (hstatus : session.status = some cache) :
    session.statusText path = cache.textFor key := by
  unfold statusText
  rw [hstatus, (htimeline.current snapshot hcurrent).2]
  simp only [hplace, Option.map_some, Option.getD_some]

section Run

variable {snapshot : Snapshot} {inputs : List Input}

theorem Settling.arrives (h : Settling path key session cache)
    (hwatched : Watched path key session cache) (htimeline : Timeline session)
    (hcurrent : session.current = some snapshot) (hloaded : snapshot.state = .loaded)
    (hplace : snapshot.backend.localPath? path = some key)
    (hplaces : ∀ backend ∈ inputs.flatMap Input.backends, backend.Places path key)
    (hfinal : (session.run inputs).generation = session.generation)
    (hidle : (session.run inputs).isIdle = true) :
    (session.run inputs).shownBadge path = (session.run inputs).statusText path := by
  have hrun := quiet_run
    (motive := fun session ↦ ∃ cache, Watched path key session cache ∧
      Settling path key session cache)
    htimeline hcurrent hloaded hfinal ⟨cache, hwatched, h⟩ (by
      rintro session input hinput htimeline ⟨cache, hwatched, h⟩ hquiet hgeneration
      obtain ⟨cache', hnext⟩ := hwatched.step htimeline fun backend hbackend ↦
        hplaces backend (List.mem_flatMap.mpr ⟨input, hinput, hbackend⟩)
      obtain ⟨cache'', hstatus, hsettling⟩ := h.quiet hwatched hquiet hgeneration
      obtain rfl : cache' = cache'' := Option.some.inj (hnext.status.symm.trans hstatus)
      exact ⟨cache', hnext, hsettling⟩)
  obtain ⟨⟨cache', hwatched', hsettling⟩, hcurrent'⟩ := hrun
  obtain ⟨hjobs, hanswers⟩ := answered_of_isIdle hwatched'.counted hidle
  rw [statusText_eq (htimeline.run inputs) hcurrent' hplace hwatched'.status]
  rcases hsettling.shown with hshown | ⟨job, hjob, -⟩ | ⟨answer, hanswer, -⟩
  · exact hshown
  · rw [hjobs] at hjob
    cases hjob
  · rw [hanswers] at hanswer
    cases hanswer

theorem Abandoned.stays {text : String} (h : Abandoned path key text session)
    (hwatched : Watched path key session cache) (htimeline : Timeline session)
    (hcurrent : session.current = some snapshot) (hloaded : snapshot.state = .loaded)
    (hplaces : ∀ backend ∈ inputs.flatMap Input.backends, backend.Places path key)
    (hfinal : (session.run inputs).generation = session.generation) :
    (session.run inputs).shownBadge path = text := by
  have hrun := quiet_run
    (motive := fun session ↦ (∃ cache, Watched path key session cache) ∧
      Abandoned path key text session)
    htimeline hcurrent hloaded hfinal ⟨⟨cache, hwatched⟩, h⟩ (by
      rintro session input hinput htimeline ⟨⟨cache, hwatched⟩, h⟩ hquiet hgeneration
      refine ⟨hwatched.step htimeline fun backend hbackend ↦ ?_, h.quiet hwatched hquiet hgeneration⟩
      exact hplaces backend (List.mem_flatMap.mpr ⟨input, hinput, hbackend⟩))
  exact hrun.1.2.shown

/-- A mark that is left when the session has come to rest would have an answer on its way. -/
theorem exists_taken (hwatched : Watched path key session cache) (htimeline : Timeline session)
    (hcurrent : session.current = some snapshot) (hloaded : snapshot.state = .loaded)
    (hplaces : ∀ backend ∈ inputs.flatMap Input.backends, backend.Places path key)
    (hfinal : (session.run inputs).generation = session.generation)
    (hidle : (session.run inputs).isIdle = true) (hmarked : key ∈ session.waiting) :
    ∃ earlier later generation changed, inputs = earlier ++ .process :: later ∧
      key ∈ (session.run earlier).waiting ∧
      (session.run earlier).inbox.head? = some (.status path key generation changed) := by
  induction inputs generalizing session cache with
  | nil =>
    obtain ⟨-, -, ticket, hticket, -⟩ := hwatched.waited hmarked
    obtain ⟨hjobs, hanswers⟩ := answered_of_isIdle hwatched.counted hidle
    have hjobs : session.jobs = [] := hjobs
    have hanswers : session.answers = [] := hanswers
    simp [unhandled, unpostedTickets, hjobs, hanswers] at hticket
  | cons input inputs ih =>
    have hfirst := session.generation_le_step input
    have hrest := (session.step input).generation_le_run inputs
    have hrun : session.run (input :: inputs) = (session.step input).run inputs := rfl
    rw [hrun] at hfinal hidle
    have hgeneration : (session.step input).generation = session.generation := by omega
    obtain ⟨hquiet, hnext⟩ := quiet_step htimeline hcurrent hloaded hgeneration
    rw [List.flatMap_cons] at hplaces
    obtain ⟨cache', hwatched'⟩ := hwatched.step htimeline fun backend hbackend ↦
      hplaces backend (List.mem_append_left _ hbackend)
    have hlater (hstill : key ∈ (session.step input).waiting) :
        ∃ earlier later generation changed, input :: inputs = earlier ++ .process :: later ∧
          key ∈ (session.run earlier).waiting ∧
          (session.run earlier).inbox.head? = some (.status path key generation changed) := by
      obtain ⟨earlier, later, generation, changed, rfl, htaken⟩ :=
        ih hwatched' (htimeline.step input) hnext
          (fun backend hbackend ↦ hplaces backend (List.mem_append_right _ hbackend))
          (by omega) hidle hstill
      exact ⟨input :: earlier, later, generation, changed, rfl, htaken⟩
    generalize hstep : session.step input = next at hquiet hlater
    cases hquiet with
    | kept _ hsame hwaiting => exact hlater (hwaiting ▸ hmarked)
    | worked _ hworked =>
      obtain ⟨status, jobs, pendingStatus, news, rfl, -⟩ := hworked.eq
      exact hlater hmarked
    | answered changedPath changedKey generation changed rest hinbox =>
      by_cases hkey : changedKey = key
      · have hpath := (hwatched.path_iff_key hinbox).mpr hkey
        refine ⟨[], inputs, generation, changed, rfl, hmarked, ?_⟩
        rw [← hpath, ← hkey]
        exact congrArg List.head? hinbox
      · apply hlater
        have hpopped : ({ session with inbox := rest } : Session).status = some cache :=
          hwatched.status
        rw [handleStatus_of_some hpopped]
        exact List.mem_filter.mpr ⟨hmarked, bne_iff_ne.mpr (Ne.symm hkey)⟩

end Run

/-! ### The update that takes the mark -/

structure Takes (path key : String) (generation : Nat) (changed : Bool) (session next : Session)
    (cache : StatusCache) : Prop where
  watched : Watched path key next cache
  generation_eq : next.generation = session.generation
  current_eq : next.current = session.current
  unmarked : key ∉ next.waiting
  shown : next.shownBadge path =
    if session.isNews key generation changed (cache.textFor key) = true then cache.textFor key
    else ""
  perm : session.unhandled.Perm (⟨key, generation⟩ :: next.unhandled)

theorem takes_of_head {generation : Nat} {changed : Bool}
    (hwatched : Watched path key session cache) (hmarked : key ∈ session.waiting)
    (hhead : session.inbox.head? = some (.status path key generation changed)) :
    Takes path key generation changed session (session.step .process) cache := by
  obtain ⟨rest, hinbox⟩ := List.head?_eq_some_iff.mp hhead
  have hpopped : ({ session with inbox := rest } : Session).status = some cache := hwatched.status
  have hstep : session.step .process =
      ({ session with inbox := rest } : Session).handleStatus path key generation changed := by
    simp only [Session.step, handleNext, hinbox, handle]
  have hquiet : ({ session with inbox := rest } : Session).shownBadge path = "" :=
    (hwatched.waited hmarked).2.1
  rw [hstep]
  refine ⟨hwatched.answered hinbox, ?_, ?_, ?_, ?_, ?_⟩
  · rw [handleStatus_of_some hpopped]
  · rw [handleStatus_of_some hpopped]
  · rw [handleStatus_of_some hpopped]
    simp
  · rw [shownBadge_handleStatus hpopped, hquiet]
    simp only [and_true]
    rfl
  · rw [handleStatus_of_some hpopped]
    exact Routed.unhandled_of_inbox hinbox

namespace Takes

variable {generation : Nat} {changed : Bool}

/-- The snapshot's own request has moved the badge, and the listeners are told. -/
theorem settling_of_changed (h : Takes path key session.generation true session next cache)
    (hwatched : Watched path key session cache) : Settling path key next cache where
  unmarked := h.unmarked
  claimed := by
    intro slot hslot _
    rw [h.generation_eq]
    exact hwatched.toRouted.slot_generation (h.perm.symm.subset (List.mem_cons_self ..)) hslot
  shown := by
    left
    rw [h.shown, if_pos]
    simp [isNews]

/-- The snapshot's own request has not moved the badge, so it stays unknown. -/
theorem abandoned_of_unchanged (h : Takes path key session.generation false session next cache)
    (hwatched : Watched path key session cache) : Abandoned path key "" next where
  unmarked := h.unmarked
  undue := by
    have hsingle := hwatched.single
    rw [h.perm.count_eq, List.count_cons_self] at hsingle
    rw [h.generation_eq, ← List.count_eq_zero]
    omega
  shown := by
    rw [h.shown, if_neg]
    simp [isNews]

/-- The badge is told as it stands when an overtaken request takes the mark. -/
theorem shown_of_ne (h : Takes path key generation changed session next cache)
    (hmarked : key ∈ session.waiting) (hearlier : generation ≠ session.generation) :
    next.shownBadge path = cache.textFor key := by
  have hnews : session.isNews key generation changed (cache.textFor key) =
      !(cache.textFor key).isEmpty := by
    simp [isNews, hearlier, hmarked]
  rw [h.shown, hnews]
  cases hempty : (cache.textFor key).isEmpty with
  | false => rfl
  | true => simpa using (String.isEmpty_iff.mp hempty).symm

theorem settling_of_claimed (h : Takes path key generation changed session next cache)
    (hmarked : key ∈ session.waiting) (hearlier : generation ≠ session.generation)
    (hclaimed : ∀ slot, cache.slots.find? key = some slot → slot.pending = true →
      slot.generation = session.generation) : Settling path key next cache where
  unmarked := h.unmarked
  claimed := by
    rw [h.generation_eq]
    exact hclaimed
  shown := Or.inl (h.shown_of_ne hmarked hearlier)

theorem abandoned_of_pending (h : Takes path key generation changed session next cache)
    (hwatched : Watched path key session cache) (hmarked : key ∈ session.waiting)
    (hearlier : generation ≠ session.generation) {slot : Slot}
    (hslot : cache.slots.find? key = some slot) (hother : slot.generation ≠ session.generation) :
    Abandoned path key (cache.textFor key) next where
  unmarked := h.unmarked
  undue := by
    rw [h.generation_eq]
    intro hticket
    have hmem := h.perm.symm.subset (List.mem_cons_of_mem _ hticket)
    exact hother (hwatched.toRouted.slot_generation hmem hslot)
  shown := h.shown_of_ne hmarked hearlier

end Takes

section Exactly

variable {snapshot : Snapshot}

/-- The listeners know the badge in the end, unless the update that takes the mark is followed by a
change of it that nobody is told about. -/
theorem arrives_iff_of_taken {later : List Input} {generation : Nat} {changed : Bool}
    (hwatched : Watched path key session cache) (htimeline : Timeline session)
    (hcurrent : session.current = some snapshot) (hloaded : snapshot.state = .loaded)
    (hplace : snapshot.backend.localPath? path = some key)
    (hplaces : ∀ backend ∈ later.flatMap Input.backends, backend.Places path key)
    (hfinal : ((session.step .process).run later).generation = session.generation)
    (hidle : ((session.step .process).run later).isIdle = true) (hmarked : key ∈ session.waiting)
    (hhead : session.inbox.head? = some (.status path key generation changed)) :
    let settled := (session.step .process).run later
    settled.shownBadge path = settled.statusText path ↔
      if generation = snapshot.generation then changed = true ∨ settled.statusText path = ""
      else
        (∀ slot, session.slot? key = some slot → slot.pending = true →
          slot.generation = snapshot.generation) ∨
        session.statusText path = settled.statusText path := by
  intro settled
  have htakes := takes_of_head hwatched hmarked hhead
  have hnow : snapshot.generation = session.generation := (htimeline.current snapshot hcurrent).1
  have htext := statusText_eq htimeline hcurrent hplace hwatched.status
  have hslot : session.slot? key = cache.slots.find? key := by
    unfold slot?
    rw [hwatched.status]
    rfl
  have hnext : Timeline (session.step .process) := htimeline.step .process
  have hcurrent' : (session.step .process).current = some snapshot :=
    htakes.current_eq.trans hcurrent
  have hfinal' : settled.generation = (session.step .process).generation :=
    hfinal.trans htakes.generation_eq.symm
  have harrives (h : Settling path key (session.step .process) cache) :
      settled.shownBadge path = settled.statusText path :=
    h.arrives htakes.watched hnext hcurrent' hloaded hplace hplaces hfinal' hidle
  have hstays {text : String} (h : Abandoned path key text (session.step .process)) :
      settled.shownBadge path = text :=
    h.stays htakes.watched hnext hcurrent' hloaded hplaces hfinal'
  rw [hnow, hslot, htext]
  split
  case isTrue hgeneration =>
    subst hgeneration
    cases changed with
    | true => simp only [true_or, harrives (htakes.settling_of_changed hwatched)]
    | false =>
      rw [hstays (htakes.abandoned_of_unchanged hwatched)]
      simp only [Bool.false_eq_true, false_or]
      exact eq_comm
  case isFalse hearlier =>
    by_cases hclaimed : ∀ slot, cache.slots.find? key = some slot → slot.pending = true →
        slot.generation = session.generation
    · have hsettling := htakes.settling_of_claimed hmarked hearlier hclaimed
      simp only [harrives hsettling, true_iff]
      exact Or.inl hclaimed
    · rw [or_iff_right hclaimed]
      push Not at hclaimed
      obtain ⟨slot, hfind, -, hother⟩ := hclaimed
      rw [hstays (htakes.abandoned_of_pending hwatched hmarked hearlier hfind hother)]

/-- The same, seen from a session in which the mark is still there. -/
theorem arrives_iff_of_split {earlier later : List Input} {generation : Nat} {changed : Bool}
    (hwatched : Watched path key session cache) (htimeline : Timeline session)
    (hcurrent : session.current = some snapshot) (hloaded : snapshot.state = .loaded)
    (hplace : snapshot.backend.localPath? path = some key)
    (hplaces : ∀ backend ∈ (earlier ++ .process :: later).flatMap Input.backends,
      backend.Places path key)
    (hfinal : (session.run (earlier ++ .process :: later)).generation = session.generation)
    (hidle : (session.run (earlier ++ .process :: later)).isIdle = true)
    (hmarked : key ∈ (session.run earlier).waiting)
    (hhead : (session.run earlier).inbox.head? = some (.status path key generation changed)) :
    let taken := session.run earlier
    let settled := session.run (earlier ++ .process :: later)
    settled.shownBadge path = settled.statusText path ↔
      if generation = snapshot.generation then changed = true ∨ settled.statusText path = ""
      else
        (∀ slot, taken.slot? key = some slot → slot.pending = true →
          slot.generation = snapshot.generation) ∨
        taken.statusText path = settled.statusText path := by
  intro taken settled
  have hrun : settled = (taken.step .process).run later := by
    simp only [settled, run_append]
    rfl
  rw [List.flatMap_append] at hplaces
  obtain ⟨cache', htaken⟩ := hwatched.run htimeline fun backend hbackend ↦
    hplaces backend (List.mem_append_left _ hbackend)
  have hgeneration : taken.generation = session.generation := by
    have hfirst : session.generation ≤ taken.generation := session.generation_le_run earlier
    have hsecond := taken.generation_le_step .process
    have hthird := (taken.step .process).generation_le_run later
    have hlast : settled.generation = session.generation := hfinal
    rw [← hrun] at hthird
    omega
  have hcurrent' : taken.current = some snapshot :=
    (quiet_run (motive := fun _ ↦ True) htimeline hcurrent hloaded hgeneration trivial
      fun _ _ _ _ _ _ _ ↦ trivial).2
  have hfinal' : ((taken.step .process).run later).generation = taken.generation := by
    rw [← hrun, hgeneration]
    exact hfinal
  have hidle' : ((taken.step .process).run later).isIdle = true := by
    rw [← hrun]
    exact hidle
  rw [hrun]
  exact arrives_iff_of_taken htaken (htimeline.run earlier) hcurrent' hloaded hplace
    (fun backend hbackend ↦ hplaces backend (List.mem_append_right _ hbackend)) hfinal' hidle'
    hmarked hhead

/-- A badge that was in flight when a snapshot came on show reaches the listeners by the time the
session is idle exactly if no request of an earlier snapshot moves it after the mark of its key has
been taken. The update that takes the mark is the first to name the key. -/
theorem waiting_badge_arrives_iff (store : StateStore) (inputs after : List Input)
    {snapshot : Snapshot} {path key : String}
    (hplaces : ∀ backend ∈ (inputs ++ after).flatMap Input.backends, backend.Places path key)
    (hcurrent : ((start (some .empty) store).run inputs).current = some snapshot)
    (hplace : snapshot.backend.localPath? path = some key)
    (hmarked : key ∈ ((start (some .empty) store).run inputs).waiting)
    (hsettled : (((start (some .empty) store).run inputs).run after).current = some snapshot)
    (hidle : (((start (some .empty) store).run inputs).run after).isIdle = true) :
    let session := (start (some .empty) store).run inputs
    let settled := session.run after
    settled.shownBadge path = settled.statusText path ↔
      ∃ earlier later generation changed, after = earlier ++ .process :: later ∧
        let taken := session.run earlier
        key ∈ taken.waiting ∧
        taken.inbox.head? = some (.status path key generation changed) ∧
        if generation = snapshot.generation then changed = true ∨ settled.statusText path = ""
        else
          (∀ slot, taken.slot? key = some slot → slot.pending = true →
            slot.generation = snapshot.generation) ∨
          taken.statusText path = settled.statusText path := by
  intro session settled
  rw [List.flatMap_append] at hplaces
  have htimeline : Timeline session := (Timeline.start _ store).run inputs
  obtain ⟨cache, hwatched⟩ : ∃ cache, Watched path key session cache :=
    (Watched.start store).run (Timeline.start _ store) fun backend hbackend ↦
      hplaces backend (List.mem_append_left _ hbackend)
  have hafter : ∀ backend ∈ after.flatMap Input.backends, backend.Places path key :=
    fun backend hbackend ↦ hplaces backend (List.mem_append_right _ hbackend)
  have hloaded : snapshot.state = .loaded := by
    obtain ⟨⟨other, hother, hloaded⟩, -⟩ := hwatched.waited hmarked
    rw [hcurrent, Option.some.injEq] at hother
    rwa [hother]
  have hfinal : settled.generation = session.generation := by
    rw [← (htimeline.current snapshot hcurrent).1]
    exact ((htimeline.run after).current snapshot hsettled).1.symm
  have hidle : settled.isIdle = true := hidle
  -- Whichever handling of the key takes the mark, the badge arrives under its condition.
  have hiff : ∀ earlier later generation changed, after = earlier ++ .process :: later →
      key ∈ (session.run earlier).waiting →
      (session.run earlier).inbox.head? = some (.status path key generation changed) →
      (settled.shownBadge path = settled.statusText path ↔
        if generation = snapshot.generation then changed = true ∨ settled.statusText path = ""
        else
          (∀ slot, (session.run earlier).slot? key = some slot → slot.pending = true →
            slot.generation = snapshot.generation) ∨
          (session.run earlier).statusText path = settled.statusText path) := by
    intro earlier later generation changed hsplit hstill hhead
    subst hsplit
    exact arrives_iff_of_split hwatched htimeline hcurrent hloaded hplace hafter hfinal hidle
      hstill hhead
  constructor
  · intro harrives
    obtain ⟨earlier, later, generation, changed, hsplit, hstill, hhead⟩ :=
      exists_taken hwatched htimeline hcurrent hloaded hafter hfinal hidle hmarked
    exact ⟨earlier, later, generation, changed, hsplit, hstill, hhead,
      (hiff earlier later generation changed hsplit hstill hhead).mp harrives⟩
  · rintro ⟨earlier, later, generation, changed, hsplit, hstill, hhead, hcondition⟩
    exact (hiff earlier later generation changed hsplit hstill hhead).mpr hcondition

end Exactly

/-! ### Two runs on the disk -/

/-- Every storage keeps a path where it is, or has no local paths at all. -/
theorem places_of_storage {backend : Backend} {storage : Storage}
    (h : backend.localPath? = storage.localPath?) (path : String) :
    backend.Places path path := by
  intro other place hplace
  rw [h] at hplace
  cases storage with
  | disk =>
    cases hplace
    exact Iff.rfl
  | ftp => cases hplace
  | http => cases hplace

def disk : Backend := ⟨0, Storage.diskRoot, none, Storage.disk.localPath?⟩

def dirty : StatusRecord := { StatusRecord.clean with dirty := true }

/-- A directory with one file in it is opened, and its listing is handled. -/
def visit (generation : Nat) (opening : Input) : List Input :=
  [opening, .respond generation (.ok [⟨"a", false, none⟩]), .process]

/-- The oldest request goes through the workers to the inbox. -/
def answer (record : StatusRecord) : List Input :=
  [.compute 0 (some record), .advance 0, .advance 0, .advance 0]

/-- The second visit finds the request of the first in flight. -/
def revisited : List Input :=
  visit 1 (.navigate disk "/r" true) ++ visit 2 (.navigate disk "/r" true)

/-- The third visit finds the request of the second in flight; that of the first is overtaken. -/
def refreshed : List Input :=
  visit 1 (.navigate disk "/r" true) ++ visit 2 .refresh ++ visit 3 (.navigate disk "/r" true)

theorem waiting_badge_arrives_revisited :
    let session := (start (some .empty) .absent).run revisited
    let settled := session.run (answer dirty ++ [Input.process])
    "/r/a" ∈ session.waiting ∧ settled.isIdle = true ∧ settled.statusText "/r/a" = "*" ∧
      settled.shownBadge "/r/a" = settled.statusText "/r/a" := by
  have hplaces : ∀ backend ∈ (revisited ++ (answer dirty ++ [Input.process])).flatMap Input.backends,
      backend.Places "/r/a" "/r/a" := by
    intro backend hbackend
    have hdisk : backend = disk := by
      simpa [revisited, visit, answer, Input.backends] using hbackend
    rw [hdisk]
    have hstorage : disk.localPath? = Storage.disk.localPath? := rfl
    exact places_of_storage hstorage _
  have hcurrent : ((start (some .empty) .absent).run revisited).current =
      some (Snapshot.loaded disk "/r" [⟨"a", false, none⟩] 2) := by
    with_unfolding_all rfl
  have hsettled : (((start (some .empty) .absent).run revisited).run
      (answer dirty ++ [.process])).current =
        some (Snapshot.loaded disk "/r" [⟨"a", false, none⟩] 2) := by
    with_unfolding_all rfl
  have hhead : ((((start (some .empty) .absent).run revisited).run (answer dirty)).inbox).head? =
      some (.status "/r/a" "/r/a" 1 true) := by
    with_unfolding_all rfl
  have hmarked : "/r/a" ∈ ((start (some .empty) .absent).run revisited).waiting := by
    decide +kernel
  have hidle : (((start (some .empty) .absent).run revisited).run
      (answer dirty ++ [.process])).isIdle = true := by
    decide +kernel
  refine ⟨hmarked, hidle, by decide +kernel, ?_⟩
  refine (waiting_badge_arrives_iff .absent revisited _ hplaces hcurrent rfl hmarked hsettled
    hidle).mpr ⟨answer dirty, [], 1, true, rfl, by decide +kernel, hhead, ?_⟩
  rw [if_neg (by decide)]
  exact Or.inr (by decide +kernel)

/-- The overtaken request takes the mark while there is nothing to show, and the badge that the
request in flight brings is never announced. -/
theorem waiting_badge_lost_refreshed :
    let session := (start (some .empty) .absent).run refreshed
    let settled := session.run (answer .clean ++ [.process] ++ answer dirty ++ [.process])
    session.current = some (Snapshot.loaded disk "/r" [⟨"a", false, none⟩] 3) ∧
      settled.current = session.current ∧ disk.localPath? (Path.join "/r" "a") = some "/r/a" ∧
      "/r/a" ∈ session.waiting ∧ settled.isIdle = true ∧
      settled.shownBadge "/r/a" = "" ∧ settled.statusText "/r/a" = "*" := by
  refine ⟨?_, ?_, by decide +kernel, by decide +kernel, by decide +kernel, by decide +kernel,
    by decide +kernel⟩
  · with_unfolding_all rfl
  · with_unfolding_all rfl

end DirectoryBrowser.Session
