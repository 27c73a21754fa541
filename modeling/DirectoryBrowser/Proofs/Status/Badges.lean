import DirectoryBrowser.Proofs.Status.Tickets
import Mathlib.Data.List.Induction

/-!
# When badges move

The badge of a path is read off the record that its slot keeps, for the kind of
entry that was last asked about. A stale record stays on show, so only an answer
should move the badge, and an answer says whether it has. But a request sets the
kind of its slot before it is answered. Where the path has been asked about as
another kind, the badge moves with the request, and the answer compares with
what it has moved to.
-/

namespace DirectoryBrowser.StatusCache

/-- What can be asked of a cache, with whatever arguments. -/
inductive Use where
  | lookup (path : String)
  | begin (path : String) (isDir : Bool) (generation : Nat)
  | complete (path : String) (generation : Nat) (record : Option StatusRecord)
  | invalidate (directory : String) (generation : Nat)
  deriving DecidableEq, Repr

def perform (cache : StatusCache) : Use → StatusCache
  | .lookup _ => cache
  | .begin path isDir generation => (cache.begin path isDir generation).2
  | .complete path generation record => (cache.complete path generation record).2
  | .invalidate directory generation => cache.invalidateUnder directory generation

def after (uses : List Use) : StatusCache := uses.foldl perform .empty

namespace Use

/-- An answer for the path that says its badge has moved. -/
def Reports (cache : StatusCache) (path : String) : Use → Prop
  | .complete other generation record =>
    other = path ∧ (cache.complete path generation record).1.changed = true
  | .lookup _ | .begin .. | .invalidate .. => False

/-- A request that is granted for the path as a kind of entry for which the record on show reads
differently. -/
def Rereads (cache : StatusCache) (path : String) : Use → Prop
  | .begin other isDir generation =>
    other = path ∧ (cache.begin path isDir generation).1 = true ∧
      ∃ slot record, cache.slots.find? path = some slot ∧ slot.record = some record ∧
        record.badge path isDir ≠ record.badge path slot.isDir
  | .lookup _ | .complete .. | .invalidate .. => False

/-- Requests for the path take it for an entry of this kind. -/
def Takes (path : String) (kind : Bool) : Use → Prop
  | .begin other isDir _ => other = path → isDir = kind
  | .lookup _ | .complete .. | .invalidate .. => True

end Use

/-! ### One call -/

theorem text_claim_ne_iff (slot : Slot) (isDir : Bool) (generation : Nat) (path : String) :
    (slot.claim isDir generation).text path ≠ slot.text path ↔
      ∃ record, slot.record = some record ∧
        record.badge path isDir ≠ record.badge path slot.isDir := by
  obtain ⟨_, record, kind, _, _⟩ := slot
  cases record with
  | none => simp [Slot.text, Slot.claim]
  | some record => simp [Slot.text, Slot.claim]

section Steps

variable (cache : StatusCache) (path : String)

theorem textFor_claimed_ne_iff (isDir : Bool) (generation : Nat) :
    (cache.claimed path isDir generation).textFor path ≠ cache.textFor path ↔
      ∃ slot record, cache.slots.find? path = some slot ∧ slot.record = some record ∧
        record.badge path isDir ≠ record.badge path slot.isDir := by
  have hclaimed := cache.find?_claimed path path isDir generation
  rw [if_pos rfl] at hclaimed
  rw [textFor_of_find? hclaimed]
  cases hslot : cache.slots.find? path with
  | none =>
    have hnone : cache.textFor path = "" := by rw [textFor, hslot]
    rw [hnone]
    simp [Slot.text, Slot.claim, Slot.unclaimed]
  | some slot =>
    rw [Option.getD_some, textFor_of_find? hslot, text_claim_ne_iff]
    simp

theorem textFor_begin_ne_iff (other : String) (isDir : Bool) (generation : Nat) :
    (cache.begin other isDir generation).2.textFor path ≠ cache.textFor path ↔
      (Use.begin other isDir generation).Rereads cache path := by
  by_cases hpath : other = path
  case neg =>
    have hsame : (cache.begin other isDir generation).2.textFor path = cache.textFor path := by
      unfold begin
      dsimp only
      split
      · exact textFor_set_of_ne cache _ hpath
      · rfl
    exact iff_of_false (not_not_intro hsame) fun hreread ↦ hpath hreread.1
  case pos =>
    subst hpath
    cases hgranted : (cache.begin other isDir generation).1 with
    | false =>
      rw [begin_of_refused hgranted]
      refine iff_of_false (not_not_intro rfl) fun hreread ↦ ?_
      rw [hreread.2.1] at hgranted
      cases hgranted
    | true =>
      obtain ⟨hmiss, hbound⟩ := miss_of_granted hgranted
      rw [begin_of_miss isDir hmiss hbound, textFor_claimed_ne_iff]
      exact ⟨fun hreread ↦ ⟨rfl, hgranted, hreread⟩, fun hreread ↦ hreread.2.2⟩

theorem textFor_complete_ne_iff (other : String) (generation : Nat)
    (record : Option StatusRecord) :
    (cache.complete other generation record).2.textFor path ≠ cache.textFor path ↔
      (Use.complete other generation record).Reports cache path := by
  by_cases hpath : other = path
  case neg =>
    have hsame : (cache.complete other generation record).2.textFor path = cache.textFor path := by
      unfold complete
      split
      · rfl
      · split
        · rfl
        · exact textFor_set_of_ne cache _ hpath
    exact iff_of_false (not_not_intro hsame) fun hreport ↦ hpath hreport.1
  case pos =>
    subst hpath
    have hreports : (Use.complete other generation record).Reports cache other ↔
        (cache.complete other generation record).1.changed = true := and_iff_right rfl
    rw [hreports]
    cases hslot : cache.slots.find? other with
    | none =>
      have hnothing : cache.complete other generation record = (⟨false, false⟩, cache) := by
        rw [complete, hslot]
      simp [hnothing]
    | some slot =>
      rcases Nat.lt_or_ge generation slot.generation with hlate | hle
      · simp [complete_of_lt record hslot hlate]
      · have hset : (cache.slots.set other (slot.answer generation record)).find? other =
            some (slot.answer generation record) := Table.find?_set_self _ _ _
        have htext : textFor ⟨cache.slots.set other (slot.answer generation record)⟩ other =
            (slot.answer generation record).text other := textFor_of_find? hset
        rw [complete_of_le record hslot hle, htext, textFor_of_find? hslot, bne_iff_ne]

theorem textFor_invalidateUnder (directory : String) (generation : Nat) :
    (cache.invalidateUnder directory generation).textFor path = cache.textFor path := by
  unfold textFor
  rw [find?_invalidateUnder]
  cases cache.slots.find? path with
  | none => rfl
  | some slot =>
    rw [Option.map_some]
    dsimp only
    split
    · rfl
    · rfl

/-- The badge of a path moves with an answer that says so, and with a request for which the record
on show reads differently. -/
theorem textFor_perform_ne_iff (use : Use) :
    (cache.perform use).textFor path ≠ cache.textFor path ↔
      use.Reports cache path ∨ use.Rereads cache path := by
  cases use with
  | lookup other => exact iff_of_false (not_not_intro rfl) (or_self_iff.mp ·)
  | begin other isDir generation =>
    exact (textFor_begin_ne_iff cache path other isDir generation).trans
      (iff_of_eq (false_or _)).symm
  | complete other generation record =>
    exact (textFor_complete_ne_iff cache path other generation record).trans
      (iff_of_eq (or_false _)).symm
  | invalidate directory generation =>
    exact iff_of_false (not_not_intro (textFor_invalidateUnder cache path directory generation))
      (or_self_iff.mp ·)

end Steps

/-! ### Kinds -/

/-- A slot keeps the kind that the requests for its path take it for. -/
theorem isDir_perform {cache : StatusCache} {path : String} {kind : Bool} {use : Use}
    (hkind : ∀ slot, cache.slots.find? path = some slot → slot.isDir = kind)
    (htakes : use.Takes path kind) :
    ∀ slot, (cache.perform use).slots.find? path = some slot → slot.isDir = kind := by
  intro slot hslot
  cases use with
  | lookup other => exact hkind slot hslot
  | begin other isDir generation =>
    unfold perform begin at hslot
    dsimp only at hslot
    split at hslot
    case isFalse => exact hkind slot hslot
    case isTrue =>
      dsimp only at hslot
      rw [Table.find?_set] at hslot
      split at hslot
      case isTrue hpath =>
        rw [← Option.some.inj hslot]
        exact htakes hpath
      case isFalse => exact hkind slot hslot
  | complete other generation record =>
    unfold perform complete at hslot
    dsimp only at hslot
    split at hslot
    case h_1 => exact hkind slot hslot
    case h_2 answered hanswered =>
      split at hslot
      case isTrue => exact hkind slot hslot
      case isFalse =>
        dsimp only at hslot
        rw [Table.find?_set] at hslot
        split at hslot
        case isTrue hpath =>
          subst hpath
          rw [← Option.some.inj hslot, ← hkind answered hanswered]
          cases record with
          | none => rfl
          | some record => rfl
        case isFalse => exact hkind slot hslot
  | invalidate directory generation =>
    rw [perform, find?_invalidateUnder, Option.map_eq_some_iff] at hslot
    obtain ⟨old, hold, rfl⟩ := hslot
    split
    · exact hkind old hold
    · exact hkind old hold

theorem isDir_after {uses : List Use} {path : String} {kind : Bool}
    (htakes : ∀ use ∈ uses, use.Takes path kind) :
    ∀ slot, (after uses).slots.find? path = some slot → slot.isDir = kind := by
  induction uses using List.reverseRecOn with
  | nil => exact fun slot hslot ↦ by cases hslot
  | append_singleton uses use ih =>
    obtain ⟨hearlier, hlast⟩ := List.forall_mem_append.mp htakes
    rw [after, List.foldl_append]
    exact isDir_perform (ih hearlier) (List.forall_mem_singleton.mp hlast)

/-- Over every history of calls, and for every path, the badge moves with an answer that says so
and with nothing else, unless a request takes the path for another kind of entry. -/
theorem badge_moves_iff (uses : List Use) (use : Use) (path : String) :
    let cache := after uses
    ((cache.perform use).textFor path ≠ cache.textFor path ↔
      use.Reports cache path ∨ use.Rereads cache path) ∧
    (((cache.perform use).textFor path ≠ cache.textFor path ↔ use.Reports cache path) ↔
      ¬ use.Rereads cache path) ∧
    ∀ kind, (∀ other ∈ uses ++ [use], other.Takes path kind) → ¬ use.Rereads cache path := by
  intro cache
  have hmoves := cache.textFor_perform_ne_iff path use
  refine ⟨hmoves, ?_, ?_⟩
  · rw [hmoves]
    cases use with
    | begin other isDir generation => simp [Use.Reports]
    | _ => simp [Use.Rereads]
  · intro kind htakes hrereads
    obtain ⟨hearlier, hlast⟩ := List.forall_mem_append.mp htakes
    cases use with
    | begin other isDir generation =>
      obtain ⟨hpath, -, slot, record, hslot, -, hbadge⟩ := hrereads
      have hkind : isDir = kind := List.forall_mem_singleton.mp hlast hpath
      rw [hkind, isDir_after hearlier slot hslot] at hbadge
      exact hbadge rfl
    | _ => exact hrereads

/-- A file that was shown with changes is asked about as a directory. Its badge moves with the
request, and the answer, which finds it moved already, says that nothing has changed. -/
theorem badge_moves_unreported :
    let record : StatusRecord :=
      { StatusRecord.clean with repoRoot := "/r", changed := 1, dirty := true }
    let cache := after [.begin "/r/a" false 1, .complete "/r/a" 1 (some record), .invalidate "/r" 2]
    let (granted, begun) := cache.begin "/r/a" true 2
    let (completion, answered) := begun.complete "/r/a" 2 (some record)
    cache.textFor "/r/a" = "*" ∧ granted = true ∧ begun.textFor "/r/a" = "[*1]" ∧
      completion = ⟨true, false⟩ ∧ answered.textFor "/r/a" = "[*1]" := by
  decide +kernel

end DirectoryBrowser.StatusCache
