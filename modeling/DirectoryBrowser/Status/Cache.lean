import DirectoryBrowser.Path
import DirectoryBrowser.Status.Record
import DirectoryBrowser.Table

/-!
# Status cache

The cache remembers one slot per path. A slot belongs to the generation of
the request that last claimed it, and answers of older generations bounce
off, so a late answer never overwrites a newer one. A stale record stays
visible until its successor arrives.
-/

namespace DirectoryBrowser

structure Slot where
  generation : Nat
  record : Option StatusRecord
  isDir : Bool
  pending : Bool
  fresh : Bool
  deriving DecidableEq, Repr

inductive Lookup where
  | hit (record : StatusRecord)
  | inFlight
  | miss
  deriving DecidableEq, Repr

/-- What an answer did: whether its record was kept, and whether the badge moved. -/
structure Completion where
  stored : Bool
  changed : Bool
  deriving DecidableEq, Repr

namespace Slot

def text (slot : Slot) (path : String) : String :=
  match slot.record with
  | some record => record.badge path slot.isDir
  | none => ""

def lookup (slot : Slot) : Lookup :=
  if slot.pending then .inFlight
  else
    match slot.record, slot.fresh with
    | some record, true => .hit record
    | _, _ => .miss

def unclaimed (isDir : Bool) (generation : Nat) : Slot :=
  ⟨generation, none, isDir, false, false⟩

def isClaimable (slot : Slot) (generation : Nat) : Bool :=
  !slot.pending && !(slot.fresh && slot.record.isSome) && slot.generation ≤ generation

def claim (slot : Slot) (isDir : Bool) (generation : Nat) : Slot :=
  { slot with generation, isDir, pending := true }

/-- Without a record the previous one stays on show but is no longer trusted. -/
def answer (slot : Slot) (generation : Nat) : Option StatusRecord → Slot
  | some record => { slot with generation, record := some record, pending := false, fresh := true }
  | none => { slot with generation, pending := false, fresh := false }

def invalidate (slot : Slot) (generation : Nat) : Slot :=
  { slot with generation := max slot.generation generation, pending := false, fresh := false }

end Slot

structure StatusCache where
  slots : Table String Slot
  deriving DecidableEq, Repr

namespace StatusCache

def empty : StatusCache := ⟨Table.empty⟩

def size (cache : StatusCache) : Nat := cache.slots.size

def lookup (cache : StatusCache) (path : String) : Lookup :=
  match cache.slots.find? path with
  | some slot => slot.lookup
  | none => .miss

def textFor (cache : StatusCache) (path : String) : String :=
  match cache.slots.find? path with
  | some slot => slot.text path
  | none => ""

/-- Claims a path for a new request, unless one is running, its answer is fresh, or the slot has
already moved on to a newer generation. -/
def begin (cache : StatusCache) (path : String) (isDir : Bool) (generation : Nat) :
    Bool × StatusCache :=
  let slot := (cache.slots.find? path).getD (Slot.unclaimed isDir generation)
  if slot.isClaimable generation then
    (true, ⟨cache.slots.set path (slot.claim isDir generation)⟩)
  else (false, cache)

def complete (cache : StatusCache) (path : String) (generation : Nat)
    (record : Option StatusRecord) : Completion × StatusCache :=
  match cache.slots.find? path with
  | none => (⟨false, false⟩, cache)
  | some slot =>
    if generation < slot.generation then (⟨false, false⟩, cache)
    else
      let answered := slot.answer generation record
      (⟨record.isSome, answered.text path != slot.text path⟩, ⟨cache.slots.set path answered⟩)

/-- Everything at or below a directory becomes stale and moves to a generation, so that answers to
earlier requests are dropped. -/
def invalidateUnder (cache : StatusCache) (directory : String) (generation : Nat) : StatusCache :=
  let directory := Path.normalize directory
  ⟨cache.slots.mapValues fun path slot ↦
    if Path.isUnder directory path then slot.invalidate generation else slot⟩

end StatusCache

end DirectoryBrowser
