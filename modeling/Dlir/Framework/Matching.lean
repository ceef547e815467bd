import Dlir.Framework.Interleaving
import Mathlib.Algebra.BigOperators.Fin
import Mathlib.Algebra.BigOperators.Group.Finset.Sigma

namespace Dlir.Framework

theorem fromStream_mono {ι α : Type} [DecidableEq ι] {i : ι} {xs ys : List (ι × α)} (h : xs <+: ys) :
    fromStream i xs <+: fromStream i ys := by
  obtain ⟨rest, rfl⟩ := h
  rw [fromStream_append]
  exact List.prefix_append _ _

/-- The same for each of some streams. -/
theorem fromStream_map_const {ι α : Type} [DecidableEq ι] {xs : List ι} (hnodup : xs.Nodup) (i : ι) (a : α) :
    fromStream i (xs.map fun j => (j, a)) = if i ∈ xs then [a] else [] := by
  induction xs with
  | nil => rfl
  | cons j xs ih =>
    obtain ⟨hj, hnodup⟩ := List.nodup_cons.mp hnodup
    rw [List.map_cons, fromStream_cons, ih hnodup]
    by_cases h : j = i
    · have hi : i ∉ xs := fun hi => hj (h ▸ hi)
      rw [if_pos h, if_neg hi, if_pos (List.mem_cons.mpr (.inl h.symm))]
    · have hmem : i ∈ j :: xs ↔ i ∈ xs := by
        rw [List.mem_cons]
        exact or_iff_right fun hij => h hij.symm
      rw [if_neg h]
      simp only [hmem]

/-- Where the streams of some senders are those of the receivers, as much is received as is sent. -/
theorem sum_matched {α : Type} {n : Nat} {sent received : Fin n → List (Nat × α)} (f : α → Nat)
    (hmatch : ∀ i j : Fin n, fromStream j.val (sent i) = fromStream i.val (received j))
    (hsent : ∀ i, ∀ entry ∈ sent i, entry.1 < n) (hreceived : ∀ i, ∀ entry ∈ received i, entry.1 < n) :
    ∑ i, ((sent i).map fun entry => f entry.2).sum =
      ∑ j, ((received j).map fun entry => f entry.2).sum := by
  have hstreams : ∀ {lists : Fin n → List (Nat × α)}, (∀ i, ∀ entry ∈ lists i, entry.1 < n) →
      ∀ i, ((lists i).map fun entry => f entry.2).sum =
        ∑ j : Fin n, ((fromStream j.val (lists i)).map f).sum := by
    intro lists h i
    rw [sum_fromStream f fun entry hentry => Finset.mem_range.mpr (h i entry hentry)]
    exact Finset.sum_range _
  rw [Finset.sum_congr rfl fun i _ => hstreams hsent i,
    Finset.sum_congr rfl fun i _ => hstreams hreceived i, Finset.sum_comm]
  exact Finset.sum_congr rfl fun j _ => Finset.sum_congr rfl fun i _ => by rw [hmatch i j]

end Dlir.Framework
