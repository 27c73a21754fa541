import DirectoryBrowser.CommandLine.Browse
import DirectoryBrowser.Proofs.Navigation.Draining
import DirectoryBrowser.Proofs.Navigation.Replaying

/-!
# What a listing lists

The command that lists a directory opens it in a session and lets the session
settle. Settling is a run without calls in which every load returns what the
machine has for it, so a location that has been opened stays: it is sent for
once, and what comes to be on show is its listing.
-/

namespace DirectoryBrowser.Browse

open Session

variable {machine : Machine} {storages : List Storage} {session middle next : Session}

/-- The session has gone on by itself, and its listings have returned what the machine has. -/
def Serves (machine : Machine) (storages : List Storage) (session next : Session) : Prop :=
  ∃ inputs, next = session.run inputs ∧ (∀ input ∈ inputs, input.isCall = false) ∧
    ∀ response ∈ session.responses inputs,
      response.2 = machine.list (storageOf storages response.1.backend) response.1.path

namespace Serves

theorem refl (session : Session) : Serves machine storages session session :=
  ⟨[], rfl, List.forall_mem_nil _, List.forall_mem_nil _⟩

theorem trans (hfirst : Serves machine storages session middle)
    (hsecond : Serves machine storages middle next) : Serves machine storages session next := by
  obtain ⟨earlier, rfl, hearlier, hbefore⟩ := hfirst
  obtain ⟨later, rfl, hlater, hafter⟩ := hsecond
  refine ⟨earlier ++ later, (run_append session earlier later).symm, ?_, ?_⟩
  · exact List.forall_mem_append.mpr ⟨hearlier, hlater⟩
  · rw [responses_append]
    exact List.forall_mem_append.mpr ⟨hbefore, hafter⟩

/-- A step that is no call, and with which no listing returns. -/
theorem quiet {input : Input} (hcall : input.isCall = false)
    (hquiet : session.response? input = none) :
    Serves machine storages session (session.step input) := by
  refine ⟨[input], rfl, by simpa using hcall, ?_⟩
  rw [responses, hquiet]
  exact List.forall_mem_nil _

theorem responded {load : Load} {later : List Load} (hloads : session.loads = load :: later) :
    Serves machine storages session (session.respond load.generation
      (machine.list (storageOf storages load.backend) load.path)) := by
  refine ⟨[.respond load.generation _], rfl, by simp [Input.isCall], ?_⟩
  simp [responses, response?, hloads]

theorem processed (session : Session) : Serves machine storages session session.processUpdates.2 := by
  have hrun (count : Nat) (session : Session) :
      Serves machine storages session (session.run (List.replicate count .process)) := by
    induction count generalizing session with
    | zero => exact refl session
    | succ count ih => exact (quiet rfl rfl).trans (ih _)
  rw [processUpdates_eq_run]
  exact hrun _ session

theorem settledStatus (session : Session) (record : Option StatusRecord) :
    Serves machine storages session (session.settleStatus record).2 := by
  have hcompute : Serves machine storages session (session.step (.compute 0 record)) :=
    quiet rfl rfl
  have hadvance (session : Session) : Serves machine storages session (session.step (.advance 0)) :=
    quiet rfl rfl
  unfold Session.settleStatus
  dsimp only
  exact hcompute.trans <| (hadvance _).trans <| (hadvance _).trans <| (hadvance _).trans <|
    processed _

end Serves

theorem settleLoads_serves (machine : Machine) (storages : List Storage) (rounds : Nat)
    (session : Session) :
    Serves machine storages session (settleLoads machine storages rounds session) := by
  induction rounds generalizing session with
  | zero => exact .refl session
  | succ rounds ih =>
    unfold settleLoads
    split
    case h_1 => exact .refl session
    case h_2 load later hloads =>
      exact (Serves.responded hloads).trans <| (Serves.processed _).trans (ih _)

theorem settleStatus_serves (machine : Machine) (storages : List Storage) (count : Nat)
    (session : Session) :
    Serves machine storages session (settleStatus machine count session) := by
  induction count generalizing session with
  | zero => exact .refl session
  | succ count ih =>
    unfold settleStatus
    split
    case h_1 => exact .refl session
    case h_2 => exact (Serves.settledStatus session _).trans (ih _)

theorem settle_serves (machine : Machine) (storages : List Storage) (session : Session) :
    Serves machine storages session (settle machine storages session) :=
  (settleLoads_serves machine storages 2 session).trans (settleStatus_serves machine storages _ _)

/-! ### A location that is listed -/

/-- The session that a location has been opened in, once it has settled. -/
def listing (machine : Machine) (settings : Settings) (place : Location) : Session :=
  let saved := (if settings.rememberPath then machine.stateFile? else none).bind
    (StateFile.load machine.disk)
  let (storages, session) := startAt machine place (fresh settings saved)
  settle machine storages session

theorem run_eq (machine : Machine) (settings : Settings) (place : Location) (all : Bool) :
    run machine settings (some place) all =
      (report (listing machine settings place) all,
        saveAll machine (if settings.rememberPath then machine.stateFile? else none)
          (listing machine settings place).trace) := rfl

/-- A session has listed one directory and nothing else, and shows the entries that it has. -/
structure Lists (machine : Machine) (storage : Storage) (path : String) (session : Session) :
    Prop where
  sent : session.dispatched.map Load.path = [path]
  shown : ∃ snapshot, session.current = some snapshot ∧ snapshot.path = path ∧
    (snapshot.state = .loaded → ∃ children, machine.list storage path = .ok children ∧
      snapshot.children = Entry.sorted children)

/-- What has come of a load that stays, if its listing has returned what the machine has. -/
theorem lists_of_landing {noted : List Response} {load : Load} {storage : Storage}
    {selected : Option String} {told : List Event}
    (h : Landing noted load selected session.view told) (htold : session.navigations = told)
    (hserved : ∀ result, (load, result) ∈ noted → result = machine.list storage load.path) :
    Lists machine storage load.path session where
  sent := by
    rw [dispatched_eq, htold, h.dispatched]
    rfl
  shown := by
    generalize hview : session.view = view at h
    have hcurrent : session.current = view.current := congrArg View.current hview
    cases h with
    | awaiting => exact ⟨load.placeholder, hcurrent, rfl, fun hstate ↦ by cases hstate⟩
    | loaded children hnoted =>
      exact ⟨load.loaded children, hcurrent, rfl, fun _ ↦
        ⟨children, (hserved _ hnoted).symm, rfl⟩⟩
    | failed error => exact ⟨load.failed error, hcurrent, rfl, fun hstate ↦ by cases hstate⟩

theorem listing_lists (machine : Machine) (settings : Settings) (place : Location) :
    Lists machine place.storage (target (machine.backend 0 place.storage) place.path)
      (listing machine settings place) := by
  unfold listing startAt
  dsimp only
  generalize (if settings.rememberPath then machine.stateFile? else none).bind
    (StateFile.load machine.disk) = saved
  generalize hbackend : machine.backend 0 place.storage = backend
  let load : Load := ⟨1, target backend place.path, backend⟩
  let opened := (fresh settings saved).step (.navigate backend place.path true)
  have hstart : Timeline (fresh settings saved) := .start _ _
  have hnoted : Noted [] opened :=
    (Noted.start _ _).step hstart (.navigate backend place.path true)
  have hopening : opened.navigations = [] ++ load.opening := rfl
  have hlanding : Landing [] load none opened.view load.opening := .awaiting
  obtain ⟨inputs, hsettled, hcalls, hserved⟩ := settle_serves machine [place.storage] opened
  obtain ⟨told, htold, hlanded⟩ := hlanding.run hnoted (hstart.step _) hopening hcalls
  rw [← hsettled] at htold hlanded
  refine lists_of_landing hlanded htold fun result hresult ↦ ?_
  calc result
    _ = machine.list (storageOf [place.storage] backend) load.path := hserved _ hresult
    _ = machine.list place.storage load.path := by
      rw [← hbackend]
      rfl

end DirectoryBrowser.Browse
