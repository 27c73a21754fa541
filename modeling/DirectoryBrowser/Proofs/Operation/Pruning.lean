import DirectoryBrowser.Operation.Generate
import Mathlib.Algebra.Ring.Nat
import Mathlib.Data.List.Nodup

/-!
# Pruned trees

A node of a layout is given by positions among siblings, and a level holds the
children of the nodes above it, in order. Where nodes fail, what is below them
is not reached. Going down level by level, and on each only below those that did
not fail, comes to the same as leaving out everything below a failed node of the
whole enumeration.
-/

namespace DirectoryBrowser

/-- A node by its position among its siblings, and those of the nodes above it. -/
abbrev Node := List Nat

/-- Neither the node nor any above it failed. The root is no node of the layout. -/
def Node.stands (fails : Node → Bool) : Node → Bool
  | [] => true
  | index :: parent => !fails (index :: parent) && stands fails parent

namespace TreeLayout

def pathOf (layout : TreeLayout) (root : String) : Node → String
  | [] => root
  | index :: parent =>
    Path.join (layout.pathOf root parent) (layout.name (parent.length + 1) index)

def children (layout : TreeLayout) (nodes : List Node) : List Node :=
  nodes.flatMap fun node ↦ (List.range layout.breadth).map fun i ↦ (i + 1) :: node

def nodesAt (layout : TreeLayout) : Nat → List Node
  | 0 => [[]]
  | level + 1 => layout.children (layout.nodesAt level)

variable (layout : TreeLayout)

def breadthFirst : List Node :=
  (List.range layout.depth).flatMap fun level ↦ layout.nodesAt (level + 1)

/-- The nodes below which nothing is left out. -/
def pruned (fails : Node → Bool) : List Node :=
  layout.breadthFirst.filter fun node ↦ Node.stands fails node.tail

/-- What is below nodes that failed, as it is counted. -/
def lost (nodes : List Node) : Nat :=
  (nodes.map fun node ↦ layout.subtreeSize (layout.depth - node.length)).sum

/-- Nodes in the levels that remain below a frontier, gone through level by level. -/
def walk (fails : Node → Bool) (frontier : List Node) : Nat → List Node
  | 0 => []
  | remaining + 1 =>
    let nodes := layout.children frontier
    nodes ++ walk fails (nodes.filter fun node ↦ !fails node) remaining

theorem mem_children {nodes : List Node} {node : Node} :
    node ∈ layout.children nodes ↔
      ∃ parent ∈ nodes, ∃ i < layout.breadth, node = (i + 1) :: parent := by
  simp [children, eq_comm]

theorem lost_append (nodes later : List Node) :
    layout.lost (nodes ++ later) = layout.lost nodes + layout.lost later := by
  unfold lost
  rw [List.map_append, List.sum_append]

theorem length_children {remaining : Nat} {nodes : List Node}
    (hlength : ∀ node ∈ nodes, node.length + (remaining + 1) = layout.depth) :
    ∀ node ∈ layout.children nodes, node.length + remaining = layout.depth := by
  intro node hnode
  obtain ⟨parent, hparent, i, -, rfl⟩ := layout.mem_children.mp hnode
  rw [← hlength parent hparent, List.length_cons]
  omega

theorem nodup_children {nodes : List Node} (h : nodes.Nodup) : (layout.children nodes).Nodup := by
  refine List.nodup_flatMap.mpr ⟨fun node _ ↦ ?_, h.imp fun hne node hleft hright ↦ ?_⟩
  · exact List.nodup_range.map fun i j hsame ↦ Nat.succ.inj (List.cons.inj hsame).1
  · obtain ⟨i, -, rfl⟩ := List.mem_map.mp hleft
    obtain ⟨j, -, hsame⟩ := List.mem_map.mp hright
    exact hne (List.cons.inj hsame).2.symm

theorem workOf_map_pathOf (root : String) {level : Nat} {frontier : List Node}
    (hlength : ∀ node ∈ frontier, node.length + 1 = level) :
    Generate.workOf layout level (frontier.map (layout.pathOf root)) =
      (layout.children frontier).map (layout.pathOf root) := by
  unfold Generate.workOf children
  rw [List.flatMap_map, List.map_flatMap]
  refine List.flatMap_congr fun node hnode ↦ ?_
  rw [List.map_map]
  refine List.map_congr_left fun i _ ↦ ?_
  simp only [Function.comp_apply, pathOf, hlength node hnode]

/-! ### Going through the levels -/

theorem walk_nil (fails : Node → Bool) (remaining : Nat) : layout.walk fails [] remaining = [] := by
  induction remaining with
  | zero => rfl
  | succ remaining ih => exact ih

theorem filter_tail_children (fails : Node → Bool) (nodes : List Node) :
    (layout.children nodes).filter (fun node ↦ Node.stands fails node.tail) =
      layout.children (nodes.filter (Node.stands fails)) := by
  induction nodes with
  | nil => rfl
  | cons node nodes ih =>
    have hcons (rest : List Node) : layout.children (node :: rest) =
        ((List.range layout.breadth).map fun i ↦ (i + 1) :: node) ++ layout.children rest := rfl
    have hsame : (fun node ↦ Node.stands fails node.tail) ∘ (fun i ↦ (i + 1) :: node) =
        fun _ ↦ Node.stands fails node := rfl
    rw [hcons, List.filter_append, ih, List.filter_map, hsame]
    cases hstands : Node.stands fails node with
    | true => rw [List.filter_cons_of_pos hstands, hcons, List.filter_true]
    | false =>
      rw [List.filter_cons_of_neg (Bool.not_eq_true _ ▸ hstands), List.filter_false]
      rfl

theorem filter_stands_children (fails : Node → Bool) (nodes : List Node) :
    (layout.children (nodes.filter (Node.stands fails))).filter (fun node ↦ !fails node) =
      (layout.children nodes).filter (Node.stands fails) := by
  rw [← filter_tail_children, List.filter_filter]
  refine List.filter_congr fun node hnode ↦ ?_
  obtain ⟨parent, -, i, -, rfl⟩ := layout.mem_children.mp hnode
  rfl

theorem walk_nodesAt (fails : Node → Bool) (level remaining : Nat) :
    layout.walk fails ((layout.nodesAt level).filter (Node.stands fails)) remaining =
      ((List.range' level remaining).flatMap fun level ↦ layout.nodesAt (level + 1)).filter
        fun node ↦ Node.stands fails node.tail := by
  induction remaining generalizing level with
  | zero => rfl
  | succ remaining ih =>
    rw [walk, filter_stands_children, List.range'_succ, List.flatMap_cons, List.filter_append, nodesAt,
      filter_tail_children]
    exact congrArg _ (ih (level + 1))

theorem walk_eq_pruned (fails : Node → Bool) :
    layout.walk fails [[]] layout.depth = layout.pruned fails := by
  unfold pruned breadthFirst
  rw [List.range_eq_range', ← walk_nodesAt]
  rfl

/-- The first of two nodes fails, and only below the other one there is more. -/
example : (⟨2, 2, ""⟩ : TreeLayout).pruned (· == [1]) = [[1], [2], [1, 2], [2, 2]] := by
  decide

end TreeLayout

end DirectoryBrowser
