import Mathlib.Algebra.Order.BigOperators.Group.List
import Mathlib.Algebra.Order.Group.Nat
import Mathlib.Algebra.Group.Action.Defs
import Mathlib.Data.List.Fold
import Mathlib.Data.List.Sort
import Mathlib.Order.Basic
import Mathlib.Tactic.Common
import Mathlib.Tactic.Ring

namespace Dlir.Math

section Sorted

variable {α : Type} [LinearOrder α] {xs : List α}

theorem getElem_le_of_sorted (h : xs.Pairwise (· ≤ ·)) {i j : Nat} (hij : i ≤ j)
    (hj : j < xs.length) : xs[i] ≤ xs[j] := by
  rcases Nat.lt_or_eq_of_le hij with hlt | rfl
  · exact List.pairwise_iff_getElem.mp h i j (by omega) hj hlt
  · exact le_rfl

/-- No element of a sorted list is before fewer elements than its place says. -/
theorem lt_countP_of_sorted (h : xs.Pairwise (· ≤ ·)) {i : Nat} (hi : i < xs.length) :
    i < xs.countP (· ≤ xs[i]) := by
  have hfront : (xs.take (i + 1)).countP (· ≤ xs[i]) = i + 1 := by
    have hall : (xs.take (i + 1)).countP (· ≤ xs[i]) = (xs.take (i + 1)).length := by
      rw [List.countP_eq_length]
      intro x hx
      obtain ⟨j, hj, rfl⟩ := List.mem_iff_getElem.mp hx
      rw [List.length_take] at hj
      rw [List.getElem_take, decide_eq_true_iff]
      exact getElem_le_of_sorted h (by omega) hi
    rw [hall, List.length_take]
    omega
  have hsplit : xs.countP (· ≤ xs[i]) =
      (xs.take (i + 1)).countP (· ≤ xs[i]) + (xs.drop (i + 1)).countP (· ≤ xs[i]) := by
    rw [← List.countP_append, List.take_append_drop]
  omega

/-- A sort by a key leaves the keys in order. -/
theorem mergeSort_sorted {β : Type} (key : β → α) (ys : List β) :
    (ys.mergeSort fun a b => decide (key a ≤ key b)).Pairwise fun a b => key a ≤ key b := by
  have htrans : ∀ a b c : β, decide (key a ≤ key b) = true → decide (key b ≤ key c) = true →
      decide (key a ≤ key c) = true := by
    intro a b c hab hbc
    exact decide_eq_true ((of_decide_eq_true hab).trans (of_decide_eq_true hbc))
  have htotal : ∀ a b : β, (decide (key a ≤ key b) || decide (key b ≤ key a)) = true := by
    intro a b
    rw [Bool.or_eq_true, decide_eq_true_iff, decide_eq_true_iff]
    exact le_total _ _
  have hpairs := List.pairwise_mergeSort htrans htotal ys
  exact hpairs.imp fun h => of_decide_eq_true h

end Sorted

section Mean

variable {xs : List Nat} {bound : Nat}

theorem le_mean (hne : xs ≠ []) (h : ∀ x ∈ xs, bound ≤ x) : bound ≤ xs.sum / xs.length := by
  have hpos : 0 < xs.length := List.length_pos_iff.mpr hne
  have hsum := List.card_nsmul_le_sum xs bound h
  rw [smul_eq_mul] at hsum
  rw [Nat.le_div_iff_mul_le hpos, Nat.mul_comm]
  exact hsum

theorem mean_le (hne : xs ≠ []) (h : ∀ x ∈ xs, x ≤ bound) : xs.sum / xs.length ≤ bound := by
  have hpos : 0 < xs.length := List.length_pos_iff.mpr hne
  have hsum := List.sum_le_card_nsmul xs bound h
  rw [smul_eq_mul] at hsum
  calc xs.sum / xs.length ≤ xs.length * bound / xs.length := Nat.div_le_div_right hsum
    _ = bound := Nat.mul_div_cancel_left bound hpos

/-- The largest of some numbers, or 0. -/
def largest (xs : List Nat) : Nat := xs.foldr max 0

theorem max?_getD (xs : List Nat) : xs.max?.getD 0 = largest xs := by
  cases xs with
  | nil => rfl
  | cons x xs =>
    rw [List.max?_cons', Option.getD_some, largest, List.foldl_eq_foldr, List.foldr_cons]
    induction xs with
    | nil => exact (Nat.max_zero x).symm
    | cons y xs ih => rw [List.foldr_cons, List.foldr_cons, ih, Nat.max_left_comm]

theorem largest_perm {ys : List Nat} (h : xs.Perm ys) : largest xs = largest ys :=
  h.foldr_eq 0

end Mean

end Dlir.Math
