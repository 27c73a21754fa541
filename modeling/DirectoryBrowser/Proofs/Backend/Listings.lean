import DirectoryBrowser.Backend.Memory

/-!
# Listings in the order of names

Names are told apart by their bytes, and the bytes put any two of them in order.
So the rows of a table are listed in one order only, each name once.
-/

namespace DirectoryBrowser

namespace Text

theorem bytesOf_inj {a b : String} : bytesOf a = bytesOf b ↔ a = b := by
  refine ⟨fun h ↦ ?_, congrArg bytesOf⟩
  have hencoded : a.toList.utf8Encode = b.toList.utf8Encode := congrArg List.toByteArray h
  rw [← String.ofList_toList (s := a), ← String.ofList_toList (s := b), ← String.toByteArray_inj,
    String.toByteArray_ofList, String.toByteArray_ofList, hencoded]

theorem bytesLE_iff {a b : String} : bytesLE a b = true ↔ bytesOf a ≤ bytesOf b := by
  simp [bytesLE, List.not_lt]

theorem bytesLE_trans (a b c : String) (hab : bytesLE a b = true) (hbc : bytesLE b c = true) :
    bytesLE a c = true := by
  rw [bytesLE_iff] at hab hbc ⊢
  exact List.le_trans hab hbc

theorem bytesLE_total (a b : String) : (bytesLE a b || bytesLE b a) = true := by
  rw [Bool.or_eq_true, bytesLE_iff, bytesLE_iff]
  exact List.le_total (bytesOf a) (bytesOf b)

theorem bytesOf_lt_of_ne {a b : String} (hle : bytesLE a b = true) (hne : a ≠ b) :
    bytesOf a < bytesOf b :=
  Std.lt_of_le_of_ne (bytesLE_iff.mp hle) (mt bytesOf_inj.mp hne)

end Text

namespace MemoryTree

open Text

theorem mem_entriesOf_iff {children : Table String Bool} (hkeyed : children.Keyed) (entry : Entry) :
    entry ∈ entriesOf children ↔
      entry.info = none ∧ children.find? entry.name = some entry.isDir := by
  obtain ⟨name, isDir, info⟩ := entry
  rw [← hkeyed.mem_rows_iff, entriesOf, List.mem_map]
  constructor
  · rintro ⟨⟨other, flag⟩, hrow, hentry⟩
    obtain ⟨rfl, rfl, rfl⟩ := Entry.mk.inj hentry
    exact ⟨rfl, List.mem_mergeSort.mp hrow⟩
  · rintro ⟨rfl, hrow⟩
    exact ⟨(name, isDir), List.mem_mergeSort.mpr hrow, rfl⟩

theorem entriesOf_pairwise {children : Table String Bool} (hkeyed : children.Keyed) :
    (entriesOf children).Pairwise fun a b ↦ bytesOf a.name < bytesOf b.name := by
  have hsorted : (children.rows.mergeSort fun a b ↦ bytesLE a.1 b.1).Pairwise
      fun a b ↦ bytesLE a.1 b.1 = true := by
    apply List.pairwise_mergeSort
    · intro a b c
      exact bytesLE_trans a.1 b.1 c.1
    · intro a b
      exact bytesLE_total a.1 b.1
  have hnames : ((children.rows.mergeSort fun a b ↦ bytesLE a.1 b.1).map Prod.fst).Nodup :=
    ((List.mergeSort_perm children.rows _).map Prod.fst).nodup_iff.mpr hkeyed
  rw [entriesOf, List.pairwise_map]
  exact (hsorted.and (List.pairwise_map.mp hnames)).imp fun ⟨hle, hne⟩ ↦ bytesOf_lt_of_ne hle hne

end MemoryTree

end DirectoryBrowser
