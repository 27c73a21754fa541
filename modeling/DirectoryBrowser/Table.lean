/-!
# Finite tables

A table holds at most one value per key, in the order in which the keys
first came. Writing to a key that is there keeps its place, so two tables
built by the same calls are equal as values.
-/

namespace DirectoryBrowser

structure Table (κ : Type) (α : Type) where
  rows : List (κ × α)
  deriving DecidableEq, Repr

namespace Table

variable {κ α : Type} [DecidableEq κ]

def empty : Table κ α := ⟨[]⟩

def size (table : Table κ α) : Nat := table.rows.length

def findRow? (key : κ) : List (κ × α) → Option α
  | [] => none
  | (k, value) :: rows => if k = key then some value else findRow? key rows

def find? (table : Table κ α) (key : κ) : Option α :=
  findRow? key table.rows

def contains (table : Table κ α) (key : κ) : Bool :=
  (table.find? key).isSome

def setRow (key : κ) (value : α) : List (κ × α) → List (κ × α)
  | [] => [(key, value)]
  | (k, old) :: rows => if k = key then (key, value) :: rows else (k, old) :: setRow key value rows

def set (table : Table κ α) (key : κ) (value : α) : Table κ α :=
  ⟨setRow key value table.rows⟩

def erase (table : Table κ α) (key : κ) : Table κ α :=
  ⟨table.rows.filter fun row ↦ row.1 != key⟩

def mapValues (f : κ → α → α) (table : Table κ α) : Table κ α :=
  ⟨table.rows.map fun (key, value) ↦ (key, f key value)⟩

@[simp] theorem find?_empty (key : κ) : (empty : Table κ α).find? key = none := rfl

theorem find?_set (table : Table κ α) (key other : κ) (value : α) :
    (table.set key value).find? other = if key = other then some value else table.find? other := by
  obtain ⟨rows⟩ := table
  unfold find? set
  induction rows with
  | nil => rfl
  | cons row rows ih =>
    obtain ⟨k, old⟩ := row
    by_cases hkey : k = key
    · subst hkey
      by_cases hother : k = other <;> simp [setRow, findRow?, hother]
    · by_cases hother : k = other
      · subst hother
        simp [setRow, findRow?, hkey, Ne.symm hkey]
      · simpa [setRow, findRow?, hkey, hother] using ih

@[simp] theorem find?_set_self (table : Table κ α) (key : κ) (value : α) :
    (table.set key value).find? key = some value := by
  rw [find?_set, if_pos rfl]

theorem find?_set_of_ne (table : Table κ α) {key other : κ} (value : α) (h : key ≠ other) :
    (table.set key value).find? other = table.find? other := by
  rw [find?_set, if_neg h]

@[simp] theorem find?_mapValues (f : κ → α → α) (table : Table κ α) (key : κ) :
    (table.mapValues f).find? key = (table.find? key).map (f key) := by
  obtain ⟨rows⟩ := table
  unfold find? mapValues
  induction rows with
  | nil => rfl
  | cons row rows ih =>
    obtain ⟨k, value⟩ := row
    by_cases hkey : k = key
    · subst hkey
      simp [findRow?]
    · simpa [findRow?, hkey] using ih

theorem find?_erase (table : Table κ α) (key other : κ) :
    (table.erase key).find? other = if key = other then none else table.find? other := by
  obtain ⟨rows⟩ := table
  unfold find? erase
  induction rows with
  | nil => simp [findRow?]
  | cons row rows ih =>
    obtain ⟨k, value⟩ := row
    by_cases hkey : k = key
    · subst hkey
      by_cases hother : k = other <;> simpa [findRow?, hother] using ih
    · by_cases hother : k = other
      · subst hother
        simp [findRow?, hkey, Ne.symm hkey]
      · simpa [findRow?, hkey, hother] using ih

/-! ### Rows -/

/-- No key has a second row. -/
def Keyed (table : Table κ α) : Prop := (table.rows.map Prod.fst).Nodup

omit [DecidableEq κ] in
theorem keyed_empty : (empty : Table κ α).Keyed := List.nodup_nil

theorem mem_map_fst_iff (table : Table κ α) (key : κ) :
    key ∈ table.rows.map Prod.fst ↔ (table.find? key).isSome = true := by
  obtain ⟨rows⟩ := table
  unfold find?
  induction rows with
  | nil => simp [findRow?]
  | cons row rows ih =>
    obtain ⟨k, value⟩ := row
    by_cases hkey : k = key
    · simp [findRow?, hkey]
    · simpa [findRow?, hkey, Ne.symm hkey] using ih

theorem Keyed.mem_rows_iff {table : Table κ α} (h : table.Keyed) (key : κ) (value : α) :
    (key, value) ∈ table.rows ↔ table.find? key = some value := by
  obtain ⟨rows⟩ := table
  induction rows with
  | nil => simp [find?, findRow?]
  | cons row rows ih =>
    obtain ⟨k, old⟩ := row
    obtain ⟨hfirst, hrest⟩ := List.nodup_cons.mp h
    by_cases hkey : k = key
    · subst hkey
      have hnone : (k, value) ∉ rows := by
        intro hmem
        have hkey : k ∈ rows.map Prod.fst := List.mem_map_of_mem hmem
        exact hfirst hkey
      simp [find?, findRow?, hnone, eq_comm]
    · have hrow : (key, value) ≠ (k, old) := fun heq ↦ hkey (Prod.mk.inj heq).1.symm
      simpa [find?, findRow?, hkey, hrow] using ih hrest

theorem mem_map_fst_set_iff (table : Table κ α) (key other : κ) (value : α) :
    other ∈ (table.set key value).rows.map Prod.fst ↔
      other = key ∨ other ∈ table.rows.map Prod.fst := by
  rw [mem_map_fst_iff, find?_set, mem_map_fst_iff]
  by_cases hkey : key = other
  · simp [hkey]
  · simp [hkey, Ne.symm hkey]

theorem Keyed.set {table : Table κ α} (h : table.Keyed) (key : κ) (value : α) :
    (table.set key value).Keyed := by
  obtain ⟨rows⟩ := table
  unfold Keyed Table.set at *
  induction rows with
  | nil => simp [setRow]
  | cons row rows ih =>
    obtain ⟨k, old⟩ := row
    obtain ⟨hfirst, hrest⟩ := List.nodup_cons.mp h
    by_cases hkey : k = key
    · subst hkey
      simpa [setRow] using h
    · have hfresh : k ∉ (setRow key value rows).map Prod.fst := by
        rw [show setRow key value rows = (Table.set ⟨rows⟩ key value).rows from rfl,
          mem_map_fst_set_iff, not_or]
        exact ⟨hkey, hfirst⟩
      rw [setRow, if_neg hkey]
      exact List.nodup_cons.mpr ⟨hfresh, ih hrest⟩

theorem Keyed.erase {table : Table κ α} (h : table.Keyed) (key : κ) :
    (table.erase key).Keyed :=
  List.Nodup.sublist (List.filter_sublist.map Prod.fst) h

theorem size_pos_iff (table : Table κ α) :
    0 < table.size ↔ ∃ key, (table.find? key).isSome = true := by
  simp only [← mem_map_fst_iff, size]
  rw [List.length_pos_iff_exists_mem]
  constructor
  · rintro ⟨row, hrow⟩
    exact ⟨row.1, List.mem_map_of_mem hrow⟩
  · rintro ⟨key, hkey⟩
    obtain ⟨row, hrow, -⟩ := List.mem_map.mp hkey
    exact ⟨row, hrow⟩

end Table

end DirectoryBrowser
