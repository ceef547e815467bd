import Mathlib.Algebra.BigOperators.Fin
import Mathlib.Algebra.Group.Fin.Basic
import Mathlib.Algebra.Group.Units.Equiv
import Mathlib.Algebra.Group.WithOne.Basic
import Mathlib.Data.List.FinRange

namespace Dlir.Math

variable {n : Nat} {β γ : Type}

/-- All indices but one, in order. -/
def others (root : Fin n) : List (Fin n) := (List.finRange n).filter (· ≠ root)

theorem nodup_others (root : Fin n) : (others root).Nodup :=
  (List.nodup_finRange n).filter _

@[simp] theorem mem_others {root i : Fin n} : i ∈ others root ↔ i ≠ root := by
  simp [others]

theorem map_val_finRange : (List.finRange n).map Fin.val = List.range n := by
  simp [List.finRange_eq_pmap_range, List.map_pmap]

theorem others_zero_succ (m : Nat) : others (0 : Fin (m + 1)) = (List.finRange m).map Fin.succ := by
  rw [others, List.finRange_succ, List.filter_cons_of_neg (by simp), List.filter_eq_self.mpr]
  intro i hi
  obtain ⟨j, -, rfl⟩ := List.mem_map.mp hi
  simp [Fin.succ_ne_zero]

theorem cons_others_zero [NeZero n] : (0 : Fin n) :: others 0 = List.finRange n := by
  obtain ⟨m, rfl⟩ := Nat.exists_eq_succ_of_ne_zero (NeZero.ne n)
  rw [others_zero_succ, List.finRange_succ]

theorem map_val_others_zero [NeZero n] :
    (others (0 : Fin n)).map Fin.val = List.range' 1 (n - 1) := by
  obtain ⟨m, rfl⟩ := Nat.exists_eq_succ_of_ne_zero (NeZero.ne n)
  rw [others_zero_succ, List.map_map]
  have hcomp : (Fin.val ∘ Fin.succ : Fin m → Nat) = (fun k => 1 + k) ∘ Fin.val := by
    funext i
    simp [Nat.add_comm]
  rw [hcomp, ← List.map_map, map_val_finRange, List.range_eq_range', List.map_add_range']
  simp

/-- Combines the values of all indices, starting at `root` and continuing in order. -/
def rootFold (op : β → β → β) (root : Fin n) (x : Fin n → β) : β :=
  (others root).foldl (fun acc i => op acc (x i)) (x root)

/-- Combines `d + 1` values going round from index `c`, each new value on the left. -/
def ringFold (op : β → β → β) [NeZero n] (x : Fin n → β) (c : Nat) : Nat → β
  | 0 => x (Fin.ofNat n c)
  | d + 1 => op (x (Fin.ofNat n (c + (d + 1)))) (ringFold op x c d)

section Map

variable (op : β → β → β) (op' : γ → γ → γ) {x : Fin n → β} (f : β → γ) (good : β → Prop)

theorem foldl_map_of_hom (hgood : ∀ a b, good a → good b → good (op a b))
    (hf : ∀ a b, good a → good b → f (op a b) = op' (f a) (f b)) (hx : ∀ i, good (x i))
    (is : List (Fin n)) {a : β} (ha : good a) :
    good (is.foldl (fun acc i => op acc (x i)) a) ∧
      f (is.foldl (fun acc i => op acc (x i)) a) =
        is.foldl (fun acc i => op' acc (f (x i))) (f a) := by
  induction is generalizing a with
  | nil => exact ⟨ha, rfl⟩
  | cons i is ih =>
    obtain ⟨hg, he⟩ := ih (hgood a (x i) ha (hx i))
    refine ⟨hg, ?_⟩
    rw [List.foldl_cons, he, hf a (x i) ha (hx i), List.foldl_cons]

theorem map_rootFold (hgood : ∀ a b, good a → good b → good (op a b))
    (hf : ∀ a b, good a → good b → f (op a b) = op' (f a) (f b)) (hx : ∀ i, good (x i))
    (root : Fin n) : good (rootFold op root x) ∧
      f (rootFold op root x) = rootFold op' root fun i => f (x i) :=
  foldl_map_of_hom op op' f good hgood hf hx (others root) (hx root)

theorem map_ringFold [NeZero n] (hgood : ∀ a b, good a → good b → good (op a b))
    (hf : ∀ a b, good a → good b → f (op a b) = op' (f a) (f b)) (hx : ∀ i, good (x i))
    (c d : Nat) : good (ringFold op x c d) ∧
      f (ringFold op x c d) = ringFold op' (fun i => f (x i)) c d := by
  induction d with
  | zero => exact ⟨hx _, rfl⟩
  | succ d ih =>
    obtain ⟨hg, he⟩ := ih
    refine ⟨hgood _ _ (hx _) hg, ?_⟩
    rw [ringFold, hf _ _ (hx _) hg, he, ringFold]

end Map

section Commutative

variable [AddCommSemigroup β] (x : Fin n → β)

theorem coe_foldl (is : List (Fin n)) (a : β) :
    ((is.foldl (fun acc i => acc + x i) a : β) : WithZero β) =
      a + (is.map fun i => (x i : WithZero β)).sum := by
  induction is generalizing a with
  | nil => simp
  | cons i is ih => rw [List.foldl_cons, ih]; simp [add_assoc]

theorem coe_rootFold (root : Fin n) :
    ((rootFold (· + ·) root x : β) : WithZero β) = ∑ i, (x i : WithZero β) := by
  have hset : (others root).toFinset = Finset.univ.erase root := by
    ext i
    simp
  rw [rootFold, coe_foldl, ← List.sum_toFinset _ (nodup_others root), hset]
  exact Finset.add_sum_erase Finset.univ (fun i => (x i : WithZero β)) (Finset.mem_univ root)

theorem coe_ringFold [NeZero n] (c d : Nat) :
    ((ringFold (· + ·) x c d : β) : WithZero β) =
      ∑ j ∈ Finset.range (d + 1), (x (Fin.ofNat n (c + j)) : WithZero β) := by
  induction d with
  | zero => simp [ringFold]
  | succ d ih => rw [ringFold, WithZero.coe_add, ih, Finset.sum_range_succ _ (d + 1), add_comm]

/-- With a commutative sum it does not matter where the round starts. -/
theorem ringFold_eq_rootFold [NeZero n] (c : Nat) (root : Fin n) :
    ringFold (· + ·) x c (n - 1) = rootFold (· + ·) root x := by
  have hn : n - 1 + 1 = n := Nat.succ_pred_eq_of_pos (Nat.pos_of_neZero n)
  apply WithZero.coe_injective
  rw [coe_ringFold, coe_rootFold, hn,
    ← Fin.sum_univ_eq_sum_range (fun j => (x (Fin.ofNat n (c + j)) : WithZero β)) n,
    ← Equiv.sum_comp (Equiv.addLeft (Fin.ofNat n c)) fun i => (x i : WithZero β)]
  refine Finset.sum_congr rfl fun j _ => ?_
  congr 2
  ext
  simp [Fin.val_add]

theorem rootFold_comm (root root' : Fin n) :
    rootFold (· + ·) root x = rootFold (· + ·) root' x := by
  apply WithZero.coe_injective
  rw [coe_rootFold, coe_rootFold]

end Commutative

end Dlir.Math
