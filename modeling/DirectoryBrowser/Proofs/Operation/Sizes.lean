import DirectoryBrowser.Operation.TreeLayout
import Mathlib.Algebra.BigOperators.Intervals
import Mathlib.Tactic.Ring

/-!
# Sizes of generated trees

The size of a tree is a geometric sum. Every level of it is found again below
each child of its root, which is how a size splits when levels are created one
after the other. As long as the sum fits a counter, the size that is counted
with is exact.
-/

namespace DirectoryBrowser.TreeLayout

theorem nodesBelow_eq_sum (breadth levels : Nat) :
    nodesBelow breadth levels = ∑ level ∈ Finset.Icc 1 levels, breadth ^ level := by
  induction levels with
  | zero => rfl
  | succ levels ih =>
    rw [Finset.sum_Icc_succ_top (Nat.succ_le_succ (Nat.zero_le _)), ← ih]
    rfl

/-- Below every child of the root there is the same tree with one level less. -/
theorem nodesBelow_succ (breadth levels : Nat) :
    nodesBelow breadth (levels + 1) = breadth * (1 + nodesBelow breadth levels) := by
  induction levels with
  | zero => simp [nodesBelow]
  | succ levels ih =>
    calc nodesBelow breadth (levels + 2)
      _ = nodesBelow breadth (levels + 1) + breadth ^ (levels + 2) := rfl
      _ = breadth * (1 + nodesBelow breadth levels) + breadth * breadth ^ (levels + 1) := by
        rw [ih, Nat.pow_succ' (m := breadth)]
      _ = breadth * (1 + (nodesBelow breadth levels + breadth ^ (levels + 1))) := by ring
      _ = breadth * (1 + nodesBelow breadth (levels + 1)) := rfl

theorem nodesBelow_mono (breadth : Nat) {fewer levels : Nat} (h : fewer ≤ levels) :
    nodesBelow breadth fewer ≤ nodesBelow breadth levels := by
  induction h with
  | refl => exact Nat.le_refl _
  | step _ ih => exact ih.trans (Nat.le_add_right _ _)

theorem pow_le_nodesBelow (breadth : Nat) {levels : Nat} (h : 0 < levels) :
    breadth ^ levels ≤ nodesBelow breadth levels := by
  cases levels with
  | zero => exact absurd h (Nat.lt_irrefl 0)
  | succ levels => exact Nat.le_add_left _ _

theorem nodesBelow_of_breadth_le_one {breadth : Nat} (h : breadth ≤ 1) (levels : Nat) :
    nodesBelow breadth levels = breadth * levels := by
  induction levels with
  | zero => rfl
  | succ levels ih =>
    have hbreadth : breadth = 0 ∨ breadth = 1 := by omega
    rcases hbreadth with rfl | rfl
    · rw [nodesBelow, ih]
      simp
    · rw [nodesBelow, ih]
      simp

theorem subtreeSize_eq (layout : TreeLayout) {levels : Nat} (hlevels : levels < UInt32.size)
    (hfits : nodesBelow layout.breadth levels < Progress.limit) :
    layout.subtreeSize levels = nodesBelow layout.breadth levels := by
  unfold subtreeSize
  dsimp only
  rw [Nat.mod_eq_of_lt hlevels]
  split
  case isTrue hbreadth => exact (nodesBelow_of_breadth_le_one hbreadth levels).symm
  case isFalse hbreadth =>
    have hshort : levels < 64 := by
      by_contra hlong
      have hpos : 0 < levels := by omega
      have hpow : 2 ^ 64 ≤ layout.breadth ^ levels :=
        calc 2 ^ 64
          _ ≤ 2 ^ levels := Nat.pow_le_pow_right (by decide) (by omega)
          _ ≤ layout.breadth ^ levels := Nat.pow_le_pow_left (by omega) levels
      have hlarge := pow_le_nodesBelow layout.breadth hpos
      exact absurd (hpow.trans hlarge) (Nat.not_le.mpr hfits)
    rw [if_neg (by omega)]
    exact Nat.min_eq_left (Nat.le_sub_one_of_lt hfits)

/-- A size that does not fit is cut off at the largest counter. -/
theorem subtreeSize_eq_min (layout : TreeLayout) {levels : Nat} (hlevels : levels < UInt32.size) :
    layout.subtreeSize levels = min (nodesBelow layout.breadth levels) (Progress.limit - 1) := by
  by_cases hfits : nodesBelow layout.breadth levels < Progress.limit
  case pos =>
    rw [layout.subtreeSize_eq hlevels hfits]
    exact (Nat.min_eq_left (Nat.le_sub_one_of_lt hfits)).symm
  case neg =>
    have hlarge := Nat.le_of_not_lt hfits
    have hbreadth : ¬ layout.breadth ≤ 1 := by
      intro hbreadth
      have hsmall : layout.breadth * levels ≤ 1 * levels := Nat.mul_le_mul_right levels hbreadth
      have hlimit : UInt32.size < Progress.limit := by decide
      rw [nodesBelow_of_breadth_le_one hbreadth] at hlarge
      omega
    unfold subtreeSize
    dsimp only
    rw [Nat.mod_eq_of_lt hlevels, if_neg hbreadth]
    split
    case isTrue => exact (Nat.min_eq_right ((Nat.sub_le _ _).trans hlarge)).symm
    case isFalse => rfl

theorem subtreeSize_le (layout : TreeLayout) {levels : Nat} (hlevels : levels < UInt32.size) :
    layout.subtreeSize levels ≤ nodesBelow layout.breadth levels := by
  rw [layout.subtreeSize_eq_min hlevels]
  exact Nat.min_le_left _ _

end DirectoryBrowser.TreeLayout
