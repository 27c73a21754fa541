import DirectoryBrowser.Proofs.Navigation.Gathering

/-!
# What a presentation thread keeps to

`Attended` is what holds between any two ticks of a thread whose cache was
empty at the start. To what holds of any thread it adds what a call that asks
for badges has gathered for the children before.
-/

namespace DirectoryBrowser.Presentation

open Session StatusCache

/-- What the call under way has seen to so far. -/
def Attends (session : Session) (cache : StatusCache) : Activity → Prop
  | .idle | .distrusting _ _ => True
  | .asking snapshot entries hits =>
    ∃ asked, snapshot.children = asked ++ entries ∧ Gathered snapshot asked hits session cache
  | .claiming snapshot entry _ entries hits =>
    ∃ asked, snapshot.children = asked ++ entry :: entries ∧
      Gathered snapshot asked hits session cache

structure Attended (backends : List Backend) (thread : Presentation) (cache : StatusCache) :
    Prop extends Steady backends thread where
  sound : Sound thread cache
  attends : Attends thread.session cache thread.activity

variable {backends : List Backend} {thread : Presentation} {cache : StatusCache}

theorem Attends.background {session : Session} {activity : Activity} {input : Input}
    {cache' : StatusCache} (h : Attends session cache activity)
    (hstatus : session.status = some cache)
    (htracked : Tracked cache session.jobs session.generation)
    (hbackground : input.isBackground = true)
    (hnext : (session.step input).status = some cache') :
    Attends (session.step input) cache' activity := by
  have hgathered {snapshot : Snapshot} {asked : List Entry} {hits : List (String × String)}
      (hgathered : Gathered snapshot asked hits session cache) :
      Gathered snapshot asked hits (session.step input) cache' := by
    obtain ⟨other, hother, hkept⟩ := hgathered.background hstatus htracked hbackground
    obtain rfl : cache' = other := Option.some.inj (hnext.symm.trans hother)
    exact hkept
  cases activity with
  | idle => trivial
  | distrusting => trivial
  | asking snapshot entries hits =>
    obtain ⟨asked, hchildren, h⟩ := h
    exact ⟨asked, hchildren, hgathered h⟩
  | claiming snapshot entry key entries hits =>
    obtain ⟨asked, hchildren, h⟩ := h
    exact ⟨asked, hchildren, hgathered h⟩

namespace Attended

theorem start (backends : List Backend) (store : StateStore) :
    Attended backends (.start store) .empty where
  toSteady := .start backends (some .empty) store
  sound := .start store
  attends := trivial

/-- One more child has been asked for. -/
theorem requested (h : Attended backends thread cache) {snapshot : Snapshot} {entry : Entry}
    {entries asked : List Entry} {hits : List (String × String)} {session : Session}
    {hit : Option (String × String)} (hchildren : snapshot.children = asked ++ entry :: entries)
    (hgathered : Gathered snapshot asked hits thread.session cache)
    (hfound : Found snapshot hits thread.session)
    (hrequested : Requested snapshot thread.session entry session hit) {cache' : StatusCache}
    (hnext : session.status = some cache') :
    Attends session cache' (.asking snapshot entries (hits ++ hit.toList)) := by
  have hgeneration := (h.kept.timeline.current snapshot hfound.current).1
  obtain ⟨other, hother, hasked⟩ :=
    hgathered.requested h.sound.status h.sound.tracked hgeneration hrequested
  obtain rfl : cache' = other := Option.some.inj (hnext.symm.trans hother)
  refine ⟨asked ++ [entry], ?_, hasked⟩
  rw [hchildren, List.append_assoc]
  rfl

theorem paced (h : Attended backends thread cache) {tick : Tick} {next : Presentation}
    (hpaced : Paced thread tick next) {cache' : StatusCache}
    (hnext : next.session.status = some cache') : Attends next.session cache' next.activity := by
  have hsame : thread.session.status = some cache' → cache' = cache := fun hsame ↦
    Option.some.inj (hsame.symm.trans h.sound.status)
  have hattends := h.attends
  have hprepared := h.prepared
  cases hpaced with
  | busy =>
    rw [hsame hnext]
    exact hattends
  | rested =>
    rw [hsame hnext]
    exact hattends
  | background input log hbackground =>
    exact hattends.background h.sound.status h.sound.tracked hbackground hnext
  | called input hidle =>
    rw [hidle]
    trivial
  | refreshing => trivial
  | arriving backend load children later hidle hbackend hinbox hgeneration =>
    have hcurrent := h.kept.timeline.current_of_inbox hinbox hgeneration
    have hpopped := h.addressed.popped hinbox (thread.session.loadsInFlight - 1) none
      thread.session.restoring
    exact ⟨[], rfl, gathered_nothing hpopped hcurrent rfl⟩
  | distrusted => trivial
  | asked snapshot entry entries hits session hit hactivity hrequested =>
    rw [hactivity] at hattends hprepared
    obtain ⟨asked, hchildren, hgathered⟩ := hattends
    exact h.requested hchildren hgathered hprepared.2 hrequested hnext
  | missed snapshot entry key entries hits hactivity hkey =>
    rw [hactivity] at hattends
    rw [hsame hnext]
    exact hattends
  | claimed snapshot entry key entries hits log hactivity =>
    have hfits := h.sound.fits
    have hbegin := h.sound.begin_eq hactivity
    rw [hactivity] at hattends hprepared hfits
    obtain ⟨asked, hchildren, hgathered⟩ := hattends
    have hclaimed : (cache.begin key entry.isDir snapshot.generation).1 = true := by rw [hbegin]
    obtain ⟨hkey, -, hfound⟩ := hprepared
    have hrequested := Requested.submitted cache key h.sound.status hkey hfits.2 hclaimed
    rw [← submit_of_claimed h.sound.status hclaimed] at hrequested
    have hasked := h.requested hchildren hgathered hfound hrequested hnext
    rwa [Option.toList_none, List.append_nil] at hasked
  | announced => trivial

theorem tick (h : Attended backends thread cache) {tick : Tick}
    (hbackends : ∀ backend ∈ tick.backends, backend ∈ backends) :
    ∃ cache, Attended backends (thread.tick tick) cache := by
  obtain ⟨cache', hsound⟩ := h.sound.ticked (thread.tick_ticked tick)
  exact ⟨cache', h.toSteady.tick hbackends, hsound,
    h.paced (thread.tick_paced tick) hsound.status⟩

/-- When all children have been asked for, the next thing is to announce what is fresh. -/
theorem announced (h : Attended backends thread cache) {snapshot : Snapshot}
    {hits : List (String × String)} (hactivity : thread.activity = .asking snapshot [] hits) :
    (thread.tick .resume).activity = .idle ∧ ∃ cache,
      Attended backends (thread.tick .resume) cache ∧
        Presented snapshot (thread.tick .resume).session cache := by
  have hresume : thread.tick .resume =
      { thread with session := thread.session.announce hits, activity := .idle } := by
    simp only [Presentation.tick, resume, hactivity]
  have hattends := h.attends
  have hprepared := h.prepared
  rw [hactivity] at hattends hprepared
  obtain ⟨asked, hchildren, hgathered⟩ := hattends
  rw [List.append_nil] at hchildren
  subst hchildren
  obtain ⟨cache', hnext⟩ : ∃ cache', Attended backends (thread.tick .resume) cache' :=
    h.tick (by simp [Tick.backends])
  have hstatus := hnext.sound.status
  rw [hresume, announce_eq] at hstatus
  obtain rfl : cache' = cache := Option.some.inj (hstatus.symm.trans h.sound.status)
  refine ⟨by rw [hresume], cache', hnext, ?_⟩
  rw [hresume]
  exact hgathered.announced hprepared.2 h.sound.status

theorem run (h : Attended backends thread cache) {ticks : List Tick}
    (hbackends : ∀ backend ∈ ticks.flatMap Tick.backends, backend ∈ backends) :
    ∃ cache, Attended backends (thread.run ticks) cache := by
  induction ticks generalizing thread cache with
  | nil => exact ⟨cache, h⟩
  | cons tick ticks ih =>
    rw [List.flatMap_cons] at hbackends
    obtain ⟨cache', hnext⟩ := h.tick fun backend hbackend ↦
      hbackends backend (List.mem_append_left _ hbackend)
    exact ih hnext fun backend hbackend ↦ hbackends backend (List.mem_append_right _ hbackend)

end Attended

end DirectoryBrowser.Presentation
