import DirectoryBrowser.Proofs.Navigation.Announcing

/-!
# While the badges of a listing are asked for

The children of a listing are gone through one by one while status workers go
on. `Gathered` holds between any two of them: a child that has been asked for
has a request of its own under way, or waits for one of an earlier listing, or
its badge is fresh and will be announced unless there is nothing to show. No
update is handled before the call returns, so that all of this is still so when
the badges are announced. `Attended` puts it together with what holds of the
presentation thread anyway.
-/

namespace DirectoryBrowser

namespace Session

open StatusCache

/-- How a child that has been asked for comes to its badge. -/
inductive Met (path key : String) (hits : List (String × String)) (session : Session)
    (cache : StatusCache) : Prop
  | requested (hticket : ⟨key, session.generation⟩ ∈ session.unhandled)
  | awaited (hwaiting : key ∈ session.waiting)
  | known (record : StatusRecord) (hlookup : cache.lookup key = .hit record)
      (hhit : cache.textFor key = "" ∨ (path, cache.textFor key) ∈ hits)

structure Gathered (snapshot : Snapshot) (asked : List Entry) (hits : List (String × String))
    (session : Session) (cache : StatusCache) : Prop where
  quiet : ∀ path, session.shownBadge path = ""
  owned : ∀ key, ⟨key, session.generation⟩ ∈ session.unhandled →
    cache.Belongs key session.generation
  met : ∀ entry ∈ asked, ∀ key,
    snapshot.backend.localPath? (Path.join snapshot.path entry.name) = some key →
    Met (Path.join snapshot.path entry.name) key hits session cache

variable {path key : String} {snapshot : Snapshot} {asked : List Entry}
  {hits : List (String × String)} {session next : Session} {cache cache' : StatusCache}

theorem belongs_of_hit {record : StatusRecord} (hlookup : cache.lookup key = .hit record)
    (generation : Nat) : cache.Belongs key generation := by
  intro slot hslot hpending
  rw [not_pending_of_hit hlookup slot hslot] at hpending
  cases hpending

theorem belongs_claimed {place : String} (isDir : Bool) {generation : Nat}
    (h : key = place ∨ cache.Belongs key generation) :
    (cache.claimed place isDir generation).Belongs key generation := by
  intro slot hslot hpending
  rw [find?_claimed] at hslot
  split at hslot
  case isTrue =>
    cases hslot
    rfl
  case isFalse hne =>
    exact h.resolve_left (Ne.symm hne) slot hslot hpending

namespace Met

/-- What a child comes to its badge by only grows. -/
theorem mono (h : Met path key hits session cache) {hits' : List (String × String)}
    (hgeneration : next.generation = session.generation)
    (hunhandled : ∀ ticket ∈ session.unhandled, ticket ∈ next.unhandled)
    (hwaiting : ∀ key ∈ session.waiting, key ∈ next.waiting)
    (hhits : ∀ hit ∈ hits, hit ∈ hits')
    (hfind : ∀ record, cache.lookup key = .hit record →
      cache'.slots.find? key = cache.slots.find? key) :
    Met path key hits' next cache' := by
  cases h with
  | requested hticket => exact .requested (hgeneration ▸ hunhandled _ hticket)
  | awaited hkey => exact .awaited (hwaiting key hkey)
  | known record hlookup hhit =>
    have hsame := hfind record hlookup
    rw [← textFor_congr hsame] at hhit
    exact .known record ((lookup_of_find? hsame).trans hlookup) (hhit.imp_right (hhits _))

end Met

namespace Gathered

/-- A step that neither shows anything nor handles an update keeps what has been gathered. -/
theorem grown (h : Gathered snapshot asked hits session cache) {hits' : List (String × String)}
    (hgeneration : next.generation = session.generation) (htrace : next.trace = session.trace)
    (hunhandled : ∀ ticket ∈ session.unhandled, ticket ∈ next.unhandled)
    (hwaiting : ∀ key ∈ session.waiting, key ∈ next.waiting)
    (hhits : ∀ hit ∈ hits, hit ∈ hits')
    (howned : ∀ key, ⟨key, session.generation⟩ ∈ next.unhandled →
      cache'.Belongs key session.generation)
    (hfind : ∀ key record, cache.lookup key = .hit record →
      cache'.slots.find? key = cache.slots.find? key) :
    Gathered snapshot asked hits' next cache' where
  quiet path := by
    unfold shownBadge
    rw [htrace]
    exact h.quiet path
  owned := by
    rw [hgeneration]
    exact howned
  met entry hentry key hkey :=
    (h.met entry hentry key hkey).mono hgeneration hunhandled hwaiting hhits (hfind key)

/-- A fresh badge waits for no answer, so no worker can touch it. -/
theorem worked (h : Gathered snapshot asked hits session cache)
    (hstatus : session.status = some cache)
    (htracked : Tracked cache session.jobs session.generation) (hworked : Worked session next) :
    ∃ cache, next.status = some cache ∧ Gathered snapshot asked hits next cache := by
  have hperm := hworked.unhandled_perm
  have hkept (cache' : StatusCache) (hgeneration : next.generation = session.generation)
      (htrace : next.trace = session.trace) (hwaiting : next.waiting = session.waiting)
      (hbelongs : ∀ key, cache.Belongs key session.generation →
        cache'.Belongs key session.generation)
      (hfind : ∀ key record, cache.lookup key = .hit record →
        cache'.slots.find? key = cache.slots.find? key) :
      Gathered snapshot asked hits next cache' :=
    h.grown hgeneration htrace (fun _ ↦ (hperm.symm.subset ·)) (by simp [hwaiting]) (fun _ ↦ id)
      (fun key hticket ↦ hbelongs key (h.owned key (hperm.subset hticket))) hfind
  cases hworked with
  | cached before after job record cache' hjobs hstage hstatus' =>
    obtain rfl : cache = cache' := Option.some.inj (hstatus.symm.trans hstatus')
    rw [hjobs] at htracked
    exact ⟨_, rfl, hkept _ rfl rfl rfl (fun _ ↦ htracked.belongs_complete hstage)
      fun _ _ hlookup ↦ htracked.find?_complete_of_idle hstage (not_pending_of_hit hlookup)⟩
  | uncached before after job record hjobs hstage hstatus' =>
    rw [hstatus] at hstatus'
    cases hstatus'
  | _ => exact ⟨cache, hstatus, hkept cache rfl rfl rfl (fun _ ↦ id) fun _ _ _ ↦ rfl⟩

theorem background (h : Gathered snapshot asked hits session cache) {input : Input}
    (hstatus : session.status = some cache)
    (htracked : Tracked cache session.jobs session.generation)
    (hbackground : input.isBackground = true) :
    ∃ cache, (session.step input).status = some cache ∧
      Gathered snapshot asked hits (session.step input) cache := by
  rcases session.background_step hbackground with ⟨loads, inbox, hnext, hsame⟩ | hworked
  · have hunhandled := hsame.unhandled
    rw [hnext] at hunhandled ⊢
    refine ⟨cache, hstatus, h.grown rfl rfl ?_ (fun _ ↦ id) (fun _ ↦ id) ?_ fun _ _ _ ↦ rfl⟩
    · rw [hunhandled]
      exact fun _ ↦ id
    · rw [hunhandled]
      exact h.owned
  · exact h.worked hstatus htracked hworked

theorem requested (h : Gathered snapshot asked hits session cache)
    (hstatus : session.status = some cache)
    (htracked : Tracked cache session.jobs session.generation)
    (hgeneration : snapshot.generation = session.generation) {entry : Entry}
    {hit : Option (String × String)} (hrequested : Requested snapshot session entry next hit) :
    ∃ cache, next.status = some cache ∧
      Gathered snapshot (asked ++ [entry]) (hits ++ hit.toList) next cache := by
  have hadded {next : Session} {cache : StatusCache} {hits : List (String × String)}
      (hgathered : Gathered snapshot asked hits next cache)
      (hmet : ∀ key, snapshot.backend.localPath? (Path.join snapshot.path entry.name) = some key →
        Met (Path.join snapshot.path entry.name) key hits next cache) :
      Gathered snapshot (asked ++ [entry]) hits next cache := by
    refine { hgathered with met := ?_ }
    intro other hother
    rcases List.mem_append.mp hother with hold | hnew
    · exact hgathered.met other hold
    · rw [List.mem_singleton.mp hnew]
      exact hmet
  cases hrequested with
  | remote hremote =>
    have hnone := hremote.resolve_left (by simp [hstatus])
    rw [Option.toList_none, List.append_nil]
    exact ⟨cache, hstatus, hadded h (by simp [hnone])⟩
  | known cache' key record hstatus' hkey hlookup =>
    obtain rfl : cache = cache' := Option.some.inj (hstatus.symm.trans hstatus')
    have hgathered : Gathered snapshot asked
        (hits ++ (if (cache.textFor key).isEmpty then none
          else some (Path.join snapshot.path entry.name, cache.textFor key)).toList)
        session cache :=
      h.grown rfl rfl (fun _ ↦ id) (fun _ ↦ id) (fun _ ↦ List.mem_append_left _) h.owned
        fun _ _ _ ↦ rfl
    refine ⟨cache, hstatus, hadded hgathered ?_⟩
    intro other hother
    obtain rfl : key = other := Option.some.inj (hkey.symm.trans hother)
    refine .known record hlookup ?_
    cases hempty : (cache.textFor key).isEmpty with
    | true => exact Or.inl (String.isEmpty_iff.mp hempty)
    | false => exact Or.inr (by simp)
  | awaited cache' key hstatus' hkey hlookup =>
    obtain rfl : cache = cache' := Option.some.inj (hstatus.symm.trans hstatus')
    rw [Option.toList_none, List.append_nil]
    have hgathered : Gathered snapshot asked hits
        { session with waiting := key :: session.waiting } cache :=
      h.grown rfl rfl (fun _ ↦ id) (fun _ ↦ List.mem_cons_of_mem _) (fun _ ↦ id) h.owned
        fun _ _ _ ↦ rfl
    refine ⟨cache, hstatus, hadded hgathered ?_⟩
    intro other hother
    obtain rfl : key = other := Option.some.inj (hkey.symm.trans hother)
    exact .awaited (List.mem_cons_self ..)
  | submitted cache' key hstatus' hkey hlookup hbegin =>
    obtain rfl : cache = cache' := Option.some.inj (hstatus.symm.trans hstatus')
    rw [htracked.accounts.begin_eq entry.isDir hlookup hgeneration.ge, Option.toList_none,
      List.append_nil]
    have hperm := Routed.unhandled_submitted session snapshot entry key
      (some (cache.claimed key entry.isDir snapshot.generation)) (session.pendingStatus + 1)
    rw [hgeneration] at hperm
    have hgathered : Gathered snapshot asked hits
        { session with
          status := some (cache.claimed key entry.isDir snapshot.generation)
          pendingStatus := session.pendingStatus + 1
          jobs := session.jobs ++ [.ofChild snapshot entry key] }
        (cache.claimed key entry.isDir snapshot.generation) := by
      refine h.grown rfl rfl (fun _ hold ↦ hperm.symm.subset (List.mem_cons_of_mem _ hold))
        (fun _ ↦ id) (fun _ ↦ id) ?_ ?_
      · intro other hticket
        rw [hgeneration]
        apply belongs_claimed
        rcases List.mem_cons.mp (hperm.subset hticket) with heq | hold
        · exact Or.inl (congrArg Ticket.path heq)
        · exact Or.inr (h.owned other hold)
      · intro other record hother
        rw [find?_claimed, if_neg]
        rintro rfl
        rw [hlookup] at hother
        cases hother
    refine ⟨_, rfl, hadded hgathered ?_⟩
    intro other hother
    obtain rfl : key = other := Option.some.inj (hkey.symm.trans hother)
    exact .requested (hperm.symm.subset (List.mem_cons_self ..))
  | refused cache' key hstatus' hkey hlookup hbegin =>
    obtain rfl : cache = cache' := Option.some.inj (hstatus.symm.trans hstatus')
    rw [htracked.accounts.begin_eq entry.isDir hlookup hgeneration.ge] at hbegin
    cases hbegin

end Gathered

/-! ### From the arrival of a listing to its badges -/

/-- When a listing comes on show, no request of its generation has been begun. -/
theorem gathered_nothing {backends : List Backend} {placeholder : Snapshot}
    (h : Addressed backends session) (hplaceholder : session.current = some placeholder)
    (hloading : placeholder.state = .loading) :
    Gathered snapshot [] [] (session.onShow snapshot).persist cache := by
  have hblank := session.shownBadge_onShow snapshot
  obtain ⟨store, saves, hpersist, -⟩ := session.onShow_persist_eq snapshot
  have hstate : placeholder.state ≠ .loaded := by
    rw [hloading]
    exact SnapshotState.noConfusion
  refine ⟨hblank, ?_, by simp⟩
  intro key hticket
  rw [hpersist] at hticket
  have hold : ⟨key, session.generation⟩ ∈ session.unhandled := hticket
  rcases List.mem_append.mp hold with hjobs | hposted
  · obtain ⟨job, hjob, heq⟩ := List.mem_map.mp hjobs
    have hlt := (h.jobs job (List.mem_filter.mp hjob).1).lt_of_unloaded hplaceholder hstate
    exact absurd (congrArg Ticket.generation heq) (Nat.ne_of_lt hlt)
  · obtain ⟨answer, hanswer, heq⟩ := List.mem_map.mp hposted
    have hlt := (h.answers answer hanswer).lt_of_unloaded hplaceholder hstate
    exact absurd (congrArg Ticket.generation heq) (Nat.ne_of_lt hlt)

/-- What is known of the badges of a listing once those that were fresh have been announced. -/
structure Presented (snapshot : Snapshot) (session : Session) (cache : StatusCache) : Prop where
  current : session.current = some snapshot
  owned : ∀ key, ⟨key, session.generation⟩ ∈ session.unhandled →
    cache.Belongs key session.generation
  unmarked : ∀ entry ∈ snapshot.children, ∀ key,
    snapshot.backend.localPath? (Path.join snapshot.path entry.name) = some key →
    key ∉ session.waiting → cache.Belongs key session.generation
  shown : ∀ entry ∈ snapshot.children, ∀ key,
    snapshot.backend.localPath? (Path.join snapshot.path entry.name) = some key →
    (session.shownBadge (Path.join snapshot.path entry.name) = cache.textFor key ∧
        cache.Belongs key session.generation) ∨
      session.shownBadge (Path.join snapshot.path entry.name) = "" ∧
        (⟨key, session.generation⟩ ∈ session.unhandled ∨ key ∈ session.waiting)
  remote : ∀ path, snapshot.backend.localPath? path = none → session.shownBadge path = ""

namespace Gathered

theorem belongs (h : Gathered snapshot asked hits session cache) {entry : Entry}
    (hentry : entry ∈ asked)
    (hkey : snapshot.backend.localPath? (Path.join snapshot.path entry.name) = some key)
    (hunmarked : key ∉ session.waiting) : cache.Belongs key session.generation := by
  cases h.met entry hentry key hkey with
  | requested hticket => exact h.owned key hticket
  | awaited hwaiting => exact absurd hwaiting hunmarked
  | known record hlookup => exact belongs_of_hit hlookup _

/-- A child whose badge is not known has nothing shown, and it is asked for or waited for. -/
theorem shown (h : Gathered snapshot asked hits session cache)
    (hfound : Found snapshot hits session) (hstatus : session.status = some cache)
    {entry : Entry} (hentry : entry ∈ asked)
    (hkey : snapshot.backend.localPath? (Path.join snapshot.path entry.name) = some key) :
    let shown := (session.announce hits).shownBadge (Path.join snapshot.path entry.name)
    (shown = cache.textFor key ∧ cache.Belongs key session.generation) ∨
      shown = "" ∧ (⟨key, session.generation⟩ ∈ session.unhandled ∨ key ∈ session.waiting) := by
  intro shown
  have hfresh (text : String) (hhit : (Path.join snapshot.path entry.name, text) ∈ hits) :
      text = cache.textFor key ∧ ∃ record, cache.lookup key = .hit record := by
    obtain ⟨-, -, cache', other, record, -, hother, hstatus', hlookup, htext⟩ :=
      hfound.fresh _ _ hhit
    obtain rfl : cache = cache' := Option.some.inj (hstatus.symm.trans hstatus')
    obtain rfl : key = other := Option.some.inj (hkey.symm.trans hother)
    exact ⟨htext, record, hlookup⟩
  by_cases hmem : ∃ hit ∈ hits, hit.1 = Path.join snapshot.path entry.name
  · obtain ⟨⟨path, text⟩, hhit, rfl⟩ := hmem
    obtain ⟨-, record, hlookup⟩ := hfresh text hhit
    refine Or.inl ⟨shownBadge_announce_of_mem ?_ ⟨_, hhit, rfl⟩, belongs_of_hit hlookup _⟩
    rintro ⟨other, news⟩ hother rfl
    exact (hfresh news hother).1
  · have hblank : shown = "" := by
      rw [← h.quiet (Path.join snapshot.path entry.name)]
      apply shownBadge_announce_of_ne
      exact fun hit hhit hpath ↦ hmem ⟨hit, hhit, hpath⟩
    cases h.met entry hentry key hkey with
    | requested hticket => exact Or.inr ⟨hblank, Or.inl hticket⟩
    | awaited hwaiting => exact Or.inr ⟨hblank, Or.inr hwaiting⟩
    | known record hlookup hhit =>
      have hempty := hhit.resolve_right fun hhit ↦ hmem ⟨_, hhit, rfl⟩
      exact Or.inl ⟨hblank.trans hempty.symm, belongs_of_hit hlookup _⟩

theorem announced (h : Gathered snapshot snapshot.children hits session cache)
    (hfound : Found snapshot hits session) (hstatus : session.status = some cache) :
    Presented snapshot (session.announce hits) cache := by
  have hshown (entry : Entry) (hentry : entry ∈ snapshot.children) (key : String)
      (hkey : snapshot.backend.localPath? (Path.join snapshot.path entry.name) = some key) :=
    h.shown hfound hstatus hentry hkey
  have hremote (path : String) (hremote : snapshot.backend.localPath? path = none) :
      (session.announce hits).shownBadge path = "" := by
    rw [← h.quiet path]
    apply shownBadge_announce_of_ne
    rintro ⟨other, text⟩ hhit rfl
    obtain ⟨-, -, -, key, -, -, hkey, -⟩ := hfound.fresh _ _ hhit
    cases hremote.symm.trans hkey
  rw [announce_eq] at hshown hremote ⊢
  exact ⟨hfound.current, h.owned, fun entry hentry key hkey ↦ h.belongs hentry hkey, hshown,
    hremote⟩

end Gathered

end Session

end DirectoryBrowser
