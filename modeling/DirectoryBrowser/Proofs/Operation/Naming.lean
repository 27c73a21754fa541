import DirectoryBrowser.Proofs.Components
import DirectoryBrowser.Proofs.Operation.Pruning
import DirectoryBrowser.Proofs.Text.Numerals
import DirectoryBrowser.Proofs.Text.Replacing
import Mathlib.Order.Interval.Finset.Nat

/-!
# Names of directories in a layout

The places of a template are replaced one after the other. Both begin with a brace
that no number holds, so writing the level neither makes nor destroys a place of the
index, and the index can be read off the name. A path that is joined from names can
be taken apart into them again. So the nodes of a layout have different paths, on one
level and on different ones, whatever the root is written like.
-/

namespace DirectoryBrowser

namespace TreeLayout

open DirectoryBrowser.Path Text

variable {layout : TreeLayout} {root : String} {node other : Node}

/-! ### Names -/

theorem validate_eq_ok_iff : layout.validate = .ok () ↔ IsName layout.template ∧
    (1 < layout.breadth → indexPlace <:+: layout.template.toList) := by
  have hplace : (cutAt? indexPlace layout.template.toList).isNone = true ↔
      ¬ indexPlace <:+: layout.template.toList := by
    rw [← isSome_cutAt?_iff, Option.isNone_iff_eq_none, Option.not_isSome_iff_eq_none]
  unfold validate IsName
  dsimp only
  split
  case isTrue hrefused =>
    refine iff_of_false nofun ?_
    rintro ⟨⟨hne, hslash⟩, -⟩
    simp [hne, hslash] at hrefused
  case isFalse hname =>
    have hproper : layout.template ≠ "" ∧ '/' ∉ layout.template.toList := by simpa using hname
    simp only [hproper, ne_eq, not_false_eq_true, and_self, true_and, Bool.and_eq_true,
      decide_eq_true_eq, hplace]
    split
    case isTrue hnone => exact iff_of_false nofun fun hsome ↦ hnone.2 (hsome hnone.1)
    case isFalse hsome =>
      refine iff_of_true rfl fun hmany ↦ ?_
      by_contra hnone
      exact hsome ⟨hmany, hnone⟩

theorem toList_name (layout : TreeLayout) (level index : Nat) :
    (layout.name level index).toList = replaceAll indexPlace (decimal index)
      (replaceAll levelPlace (decimal level) layout.template.toList) :=
  String.toList_ofList

theorem isName_name (h : IsName layout.template) (level index : Nat) :
    IsName (layout.name level index) := by
  have hlevel : levelPlace ≠ [] := by decide
  have hindex : indexPlace ≠ [] := by decide
  have hslash (n : Nat) : '/' ∉ decimal n := (isNumeral_decimal n).notMem (by decide)
  constructor
  · apply mt String.toList_eq_nil_iff.mpr
    rw [toList_name]
    apply replaceAll_ne_nil hindex (isNumeral_decimal index).ne_nil
    exact replaceAll_ne_nil hlevel (isNumeral_decimal level).ne_nil h.toList_ne_nil
  · rw [toList_name]
    intro hmem
    rcases mem_of_mem_replaceAll hindex hmem with hmem | hmem
    · exact hslash index hmem
    · rcases mem_of_mem_replaceAll hlevel hmem with hmem | hmem
      · exact hslash level hmem
      · exact h.2 hmem

/-- Where a template has a place for the index, the name tells the index. -/
theorem name_inj (h : indexPlace <:+: layout.template.toList) (level : Nat) {i j : Nat} :
    layout.name level i = layout.name level j ↔ i = j := by
  have hkept : indexPlace <:+: replaceAll levelPlace (decimal level) layout.template.toList :=
    infix_replaceAll (by decide) (by decide) (by decide) h
  have hne : indexPlace ≠ [] := by decide
  rw [← String.toList_inj, toList_name, toList_name, replaceAll_inj hne hkept, decimal_inj]

/-- Without a place for the index there is one sibling only. -/
theorem name_injOn (h : layout.validate = .ok ()) (level : Nat) :
    Set.InjOn (layout.name level) (Finset.Icc 1 layout.breadth) := by
  obtain ⟨-, hplace⟩ := validate_eq_ok_iff.mp h
  intro i hi j hj hname
  rw [Finset.mem_coe, Finset.mem_Icc] at hi hj
  by_cases hmany : 1 < layout.breadth
  · exact (name_inj (hplace hmany) level).mp hname
  · omega

/-! ### Paths -/

theorem namesOf_pathOf_cons (h : IsName layout.template) (root : String) (index : Nat)
    (parent : Node) : namesOf (layout.pathOf root (index :: parent)) =
      layout.name (parent.length + 1) index :: namesOf (layout.pathOf root parent) :=
  namesOf_join _ (isName_name h _ _)

theorem length_namesOf_pathOf (h : IsName layout.template) (root : String) (node : Node) :
    (namesOf (layout.pathOf root node)).length = node.length + (namesOf root).length := by
  induction node with
  | nil => exact (Nat.zero_add _).symm
  | cons index parent ih =>
    rw [namesOf_pathOf_cons h, List.length_cons, ih, List.length_cons]
    omega

/-- A node is made of positions among siblings. -/
def IsNode (layout : TreeLayout) (node : Node) : Prop :=
  ∀ index ∈ node, index ∈ Finset.Icc 1 layout.breadth

/-- A path tells its node. -/
theorem eq_of_namesOf_pathOf (h : layout.validate = .ok ()) (hnode : layout.IsNode node)
    (hother : layout.IsNode other)
    (hnames : namesOf (layout.pathOf root node) = namesOf (layout.pathOf root other)) :
    node = other := by
  have hname := (validate_eq_ok_iff.mp h).1
  have hlength := congrArg List.length hnames
  rw [length_namesOf_pathOf hname, length_namesOf_pathOf hname, Nat.add_right_cancel_iff] at hlength
  induction node generalizing other with
  | nil => exact (List.length_eq_zero_iff.mp hlength.symm).symm
  | cons index parent ih =>
    obtain ⟨last, above, rfl⟩ := List.exists_cons_of_length_eq_add_one hlength.symm
    have habove := Nat.succ.inj hlength
    rw [namesOf_pathOf_cons hname, namesOf_pathOf_cons hname, ← habove] at hnames
    obtain ⟨hlast, hparent⟩ := List.cons.inj hnames
    obtain ⟨hindex, hnode⟩ := List.forall_mem_cons.mp hnode
    obtain ⟨hindex', hother⟩ := List.forall_mem_cons.mp hother
    rw [name_injOn h _ hindex hindex' hlast, ih hnode hother hparent habove]

/-! ### All nodes -/

theorem mem_nodesAt {level : Nat} :
    node ∈ layout.nodesAt level ↔ node.length = level ∧ layout.IsNode node := by
  induction level generalizing node with
  | zero =>
    rw [nodesAt, List.mem_singleton, List.length_eq_zero_iff]
    constructor
    · rintro rfl
      exact ⟨rfl, List.forall_mem_nil _⟩
    · exact And.left
  | succ level ih =>
    rw [nodesAt, mem_children]
    constructor
    · rintro ⟨parent, hparent, i, hi, rfl⟩
      obtain ⟨hlength, hnode⟩ := ih.mp hparent
      refine ⟨congrArg Nat.succ hlength, List.forall_mem_cons.mpr ⟨?_, hnode⟩⟩
      exact Finset.mem_Icc.mpr ⟨Nat.succ_pos i, hi⟩
    · rintro ⟨hlength, hnode⟩
      obtain ⟨index, parent, rfl⟩ := List.exists_cons_of_length_eq_add_one hlength
      obtain ⟨hindex, hparent⟩ := List.forall_mem_cons.mp hnode
      rw [Finset.mem_Icc] at hindex
      refine ⟨parent, ih.mpr ⟨Nat.succ.inj hlength, hparent⟩, index - 1, by omega, ?_⟩
      rw [Nat.sub_add_cancel hindex.1]

theorem nodup_nodesAt (layout : TreeLayout) (level : Nat) : (layout.nodesAt level).Nodup := by
  induction level with
  | zero => exact List.nodup_singleton []
  | succ level ih => exact layout.nodup_children ih

theorem nodup_breadthFirst (layout : TreeLayout) : layout.breadthFirst.Nodup := by
  apply List.nodup_flatMap.mpr
  refine ⟨fun level _ ↦ layout.nodup_nodesAt (level + 1), ?_⟩
  apply List.nodup_range.imp
  intro level later hne node hnode hlater
  apply hne
  exact Nat.succ.inj ((mem_nodesAt.mp hnode).1.symm.trans (mem_nodesAt.mp hlater).1)

theorem isNode_of_mem_breadthFirst (h : node ∈ layout.breadthFirst) : layout.IsNode node := by
  obtain ⟨level, -, hnode⟩ := List.mem_flatMap.mp h
  exact (mem_nodesAt.mp hnode).2

theorem nodup_paths (h : layout.validate = .ok ()) (root : String) :
    (layout.breadthFirst.map (layout.pathOf root)).Nodup := by
  apply List.Nodup.map_on _ layout.nodup_breadthFirst
  intro node hnode other hother hpath
  apply eq_of_namesOf_pathOf h
  · exact isNode_of_mem_breadthFirst hnode
  · exact isNode_of_mem_breadthFirst hother
  · exact congrArg namesOf hpath

end TreeLayout

end DirectoryBrowser
