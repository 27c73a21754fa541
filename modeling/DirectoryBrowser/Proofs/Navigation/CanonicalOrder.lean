import Mathlib.Data.List.Nodup
import DirectoryBrowser.Navigation.Snapshot
import DirectoryBrowser.Proofs.Backend.Listings

/-!
# The order of children

Backends promise no order, so a snapshot has its children in one of its own. Any two
entries can be compared, and only entries of the same name and kind come before each
other both ways. Sorting leaves such entries in the order of the listing. That
order apart, there is a single way to put a listing in order, whatever order it
came in.
-/

namespace DirectoryBrowser

open Text

namespace Entry

def nameAndKind (entry : Entry) : String × Bool := (entry.name, entry.isDir)

variable {a b : Entry} {entries others : List Entry}

/-! ### Which entry comes first -/

theorem precedes_iff : precedes a b = true ↔
    a.isDir = true ∧ b.isDir = false ∨ a.isDir = b.isDir ∧ bytesOf a.name ≤ bytesOf b.name := by
  unfold precedes
  cases a.isDir <;> cases b.isDir <;> simp [bytesLE_iff]

theorem precedes_trans (a b c : Entry) (hab : precedes a b = true) (hbc : precedes b c = true) :
    precedes a c = true := by
  rw [precedes_iff] at hab hbc ⊢
  rcases hab with ⟨ha, hb⟩ | ⟨hkind, hname⟩
  · rcases hbc with ⟨hb', -⟩ | ⟨hkind, -⟩
    · rw [hb] at hb'
      cases hb'
    · exact Or.inl ⟨ha, hkind ▸ hb⟩
  · rcases hbc with ⟨hb, hc⟩ | ⟨hkind', hname'⟩
    · exact Or.inl ⟨hkind.trans hb, hc⟩
    · exact Or.inr ⟨hkind.trans hkind', List.le_trans hname hname'⟩

theorem precedes_total (a b : Entry) : (precedes a b || precedes b a) = true := by
  rw [Bool.or_eq_true, precedes_iff, precedes_iff]
  have htotal := List.le_total (bytesOf a.name) (bytesOf b.name)
  cases a.isDir <;> cases b.isDir <;> simp [htotal]

/-- Entries that come before each other agree in name and kind. -/
theorem nameAndKind_eq_iff :
    a.nameAndKind = b.nameAndKind ↔ precedes a b = true ∧ precedes b a = true := by
  unfold nameAndKind
  rw [Prod.mk.injEq, precedes_iff, precedes_iff]
  constructor
  · rintro ⟨hname, hkind⟩
    rw [hname, hkind]
    exact ⟨Or.inr ⟨rfl, List.le_refl _⟩, Or.inr ⟨rfl, List.le_refl _⟩⟩
  · rintro ⟨hab, hba⟩
    rcases hab with ⟨ha, hb⟩ | ⟨hkind, hab⟩
    · simp [ha, hb] at hba
    · rcases hba with ⟨hb, ha⟩ | ⟨-, hba⟩
      · simp [ha, hb] at hkind
      · exact ⟨bytesOf_inj.mp (List.le_antisymm hab hba), hkind⟩

theorem isDir_of_precedes (h : precedes a b = true) (hb : b.isDir = true) : a.isDir = true := by
  rcases precedes_iff.mp h with ⟨ha, -⟩ | ⟨hkind, -⟩
  · exact ha
  · exact hkind.trans hb

theorem precedes_of_mem_cons (h : (a :: entries).Pairwise fun a b ↦ precedes a b = true)
    (hb : b ∈ a :: entries) : precedes a b = true := by
  rcases List.mem_cons.mp hb with rfl | hb
  · exact (nameAndKind_eq_iff.mp rfl).1
  · exact (List.pairwise_cons.mp h).1 b hb

theorem bytesOf_le_of_precedes (h : precedes a b = true) (hkind : a.isDir = b.isDir) :
    bytesOf a.name ≤ bytesOf b.name := by
  rcases precedes_iff.mp h with ⟨ha, hb⟩ | ⟨-, hname⟩
  · simp [ha, hb] at hkind
  · exact hname

/-! ### Listings in order -/

theorem sorted_perm (entries : List Entry) : (sorted entries).Perm entries :=
  List.mergeSort_perm entries precedes

theorem pairwise_sorted (entries : List Entry) :
    (sorted entries).Pairwise fun a b ↦ precedes a b = true :=
  List.pairwise_mergeSort precedes_trans precedes_total entries

theorem sorted_eq_self (h : entries.Pairwise fun a b ↦ precedes a b = true) :
    sorted entries = entries :=
  List.mergeSort_of_pairwise h

/-- What is in order already comes out of sorting as it went in. -/
theorem filter_sorted {p : Entry → Bool}
    (h : ∀ a b, p a = true → p b = true → precedes a b = true) (entries : List Entry) :
    (sorted entries).filter p = entries.filter p := by
  have hordered : (entries.filter p).Pairwise fun a b ↦ precedes a b = true :=
    List.pairwise_filter.mpr (List.pairwise_of_forall fun a b ↦ h a b)
  have hsublist : (entries.filter p).Sublist (sorted entries) :=
    List.sublist_mergeSort precedes_trans precedes_total hordered List.filter_sublist
  have hkept := hsublist.filter p
  rw [List.filter_filter, funext fun entry ↦ Bool.and_self (p entry)] at hkept
  exact (hkept.eq_of_length ((sorted_perm entries).filter p).length_eq.symm).symm

theorem filter_nameAndKind_sorted (key : String × Bool) (entries : List Entry) :
    (sorted entries).filter (·.nameAndKind == key) = entries.filter (·.nameAndKind == key) :=
  filter_sorted (fun _ _ ha hb ↦
    (nameAndKind_eq_iff.mp ((beq_iff_eq.mp ha).trans (beq_iff_eq.mp hb).symm)).1) entries

/-! ### Listings of the same entries -/

/-- The same entries in any order, save that those of one name and kind keep theirs. -/
structure SameEntries (entries others : List Entry) : Prop where
  perm : others.Perm entries
  filter_eq (key : String × Bool) :
    others.filter (·.nameAndKind == key) = entries.filter (·.nameAndKind == key)

/-- Where no two entries agree in name and kind, any order will do. -/
theorem SameEntries.of_perm (hdistinct : (entries.map nameAndKind).Nodup)
    (hperm : others.Perm entries) : SameEntries entries others where
  perm := hperm
  filter_eq key := by
    have hsingle {a b : Entry} (ha : a ∈ others.filter (·.nameAndKind == key))
        (hb : b ∈ entries.filter (·.nameAndKind == key)) : a = b := by
      obtain ⟨ha, hkey⟩ := List.mem_filter.mp ha
      obtain ⟨hb, hkey'⟩ := List.mem_filter.mp hb
      exact List.inj_on_of_nodup_map hdistinct (hperm.mem_iff.mp ha) hb
        ((beq_iff_eq.mp hkey).trans (beq_iff_eq.mp hkey').symm)
    have hany (entries : List Entry) : entries.Pairwise fun _ _ ↦ True :=
      List.pairwise_of_forall fun _ _ ↦ trivial
    exact List.Perm.eq_of_pairwise (fun _ _ ha hb _ _ ↦ hsingle ha hb) (hany _) (hany _)
      (hperm.filter _)

/-- There is one way to put entries in order that leaves those of one name and kind in theirs. -/
theorem SameEntries.eq_of_pairwise (h : SameEntries entries others)
    (hentries : entries.Pairwise fun a b ↦ precedes a b = true)
    (hothers : others.Pairwise fun a b ↦ precedes a b = true) : others = entries := by
  induction entries generalizing others with
  | nil => exact h.perm.eq_nil
  | cons a entries ih =>
    cases others with
    | nil => exact h.perm.symm.eq_nil.symm
    | cons b others =>
      -- The first entries come before each other, so they are the first ones of the same key.
      have hkey : b.nameAndKind = a.nameAndKind := nameAndKind_eq_iff.mpr
        ⟨precedes_of_mem_cons hothers (h.perm.mem_iff.mpr (List.mem_cons_self ..)),
          precedes_of_mem_cons hentries (h.perm.mem_iff.mp (List.mem_cons_self ..))⟩
      have hfirst := h.filter_eq a.nameAndKind
      simp only [List.filter_cons, hkey, beq_self_eq_true, if_true] at hfirst
      obtain rfl : b = a := (List.cons.inj hfirst).1
      have hsame : SameEntries entries others := by
        refine ⟨h.perm.cons_inv, fun key ↦ ?_⟩
        have hrest := h.filter_eq key
        rw [List.filter_cons, List.filter_cons] at hrest
        split at hrest
        · exact (List.cons.inj hrest).2
        · exact hrest
      exact congrArg (b :: ·) (ih hsame hentries.of_cons hothers.of_cons)

/-- Sorting forgets the order in which entries have been listed. -/
theorem SameEntries.sorted_eq (h : SameEntries entries others) :
    sorted others = sorted entries := by
  have hsorted : SameEntries (sorted entries) (sorted others) := by
    refine ⟨((sorted_perm others).trans h.perm).trans (sorted_perm entries).symm, fun key ↦ ?_⟩
    rw [filter_nameAndKind_sorted, filter_nameAndKind_sorted]
    exact h.filter_eq key
  exact hsorted.eq_of_pairwise (pairwise_sorted entries) (pairwise_sorted others)

theorem sorted_eq_of_perm (hdistinct : (entries.map nameAndKind).Nodup)
    (hperm : others.Perm entries) : sorted others = sorted entries :=
  (SameEntries.of_perm hdistinct hperm).sorted_eq

end Entry

namespace Snapshot

/-- Children are those of the listing, directories first and then files, each kind by the bytes of
the names; entries of one name and kind stay in the order of the listing. If there are no two such
entries, listings in different orders lead to the same children. -/
theorem children_in_order (backend : Backend) (path : String) (generation : Nat)
    (listing : List Entry) :
    let childrenOf (listing : List Entry) := (loaded backend path listing generation).children
    (childrenOf listing).Perm listing ∧
    ((childrenOf listing).Pairwise fun a b ↦ b.isDir = true → a.isDir = true) ∧
    (∀ kind, ((childrenOf listing).filter fun entry ↦ entry.isDir == kind).Pairwise fun a b ↦
      bytesOf a.name ≤ bytesOf b.name) ∧
    (∀ key, (childrenOf listing).filter (·.nameAndKind == key) =
      listing.filter (·.nameAndKind == key)) ∧
    ((listing.map Entry.nameAndKind).Nodup → ∀ one other, one.Perm listing → other.Perm listing →
      childrenOf one = childrenOf other) := by
  intro childrenOf
  have hordered : (childrenOf listing).Pairwise fun a b ↦ Entry.precedes a b = true :=
    Entry.pairwise_sorted listing
  refine ⟨Entry.sorted_perm listing, hordered.imp Entry.isDir_of_precedes, fun kind ↦ ?_,
    fun key ↦ ?_, fun hdistinct one other hone hother ↦ ?_⟩
  · refine List.pairwise_filter.mpr (hordered.imp fun {a b} hab ha hb ↦ ?_)
    exact Entry.bytesOf_le_of_precedes hab ((beq_iff_eq.mp ha).trans (beq_iff_eq.mp hb).symm)
  · exact Entry.filter_nameAndKind_sorted key listing
  · exact (Entry.sorted_eq_of_perm hdistinct hone).trans
      (Entry.sorted_eq_of_perm hdistinct hother).symm

/-- A file and a directory may share a name, and letters of either case differ. -/
def mixed : List Entry :=
  [⟨"b", false, none⟩, ⟨"z", true, none⟩, ⟨"B", false, none⟩, ⟨"é", true, none⟩, ⟨"b", true, none⟩]

theorem children_in_order_reversed :
    let backend : Backend := ⟨0, (MemoryTree.empty "m").root, none, fun _ ↦ none⟩
    (mixed.map Entry.nameAndKind).Nodup ∧ mixed.reverse.Perm mixed ∧
      (loaded backend "/" mixed.reverse 1).children = (loaded backend "/" mixed 1).children := by
  intro backend
  have hdistinct : (mixed.map Entry.nameAndKind).Nodup := by decide
  have hreverse : mixed.reverse.Perm mixed := List.reverse_perm mixed
  obtain ⟨-, -, -, -, hsame⟩ := children_in_order backend "/" 1 mixed
  exact ⟨hdistinct, hreverse, hsame hdistinct _ _ hreverse (List.Perm.refl mixed)⟩

end Snapshot

end DirectoryBrowser
