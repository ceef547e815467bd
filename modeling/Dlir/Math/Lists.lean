import Mathlib.Data.List.Basic
import Mathlib.Data.List.Perm.Subperm
import Mathlib.Data.List.Range
import Mathlib.Logic.Function.Basic

namespace Dlir.Math

variable {β : Type}

/-- Overwriting one entry of a table over a range. -/
theorem set_map_range (n : Nat) (f : Nat → β) (i : Nat) (v : β) :
    ((List.range n).map f).set i v = (List.range n).map (Function.update f i v) := by
  refine List.ext_getElem (by simp) fun j h1 h2 => ?_
  by_cases hj : i = j
  · subst hj
    simp
  · simp [List.getElem_set_ne hj, Function.update_of_ne (Ne.symm hj)]

/-- Distinct numbers below `n` are at most `n`. -/
theorem length_le_of_nodup_lt {l : List Nat} {n : Nat} (h : l.Nodup) (hlt : ∀ k ∈ l, k < n) :
    l.length ≤ n := by
  have hsub : l ⊆ List.range n := fun k hk => List.mem_range.mpr (hlt k hk)
  simpa using (h.subperm hsub).length_le

/-- `n` distinct numbers below `n` are all of them. -/
theorem perm_range_of_nodup_lt {l : List Nat} {n : Nat} (h : l.Nodup) (hlt : ∀ k ∈ l, k < n)
    (hlen : l.length = n) : l.Perm (List.range n) := by
  have hsub : l ⊆ List.range n := fun k hk => List.mem_range.mpr (hlt k hk)
  exact (h.subperm hsub).perm_of_length_le (by simp [hlen])

/-- What stands before the first separator, and what after it. -/
theorem append_separator_inj {c : β} {a b s t : List β} (ha : c ∉ a) (hb : c ∉ b)
    (h : a ++ c :: s = b ++ c :: t) : a = b ∧ s = t := by
  induction a generalizing b with
  | nil =>
    cases b with
    | nil => exact ⟨rfl, (List.cons.inj h).2⟩
    | cons x b => exact absurd (List.cons.inj h).1 (List.ne_of_not_mem_cons hb)
  | cons x a ih =>
    cases b with
    | nil => exact absurd (List.cons.inj h).1.symm (List.ne_of_not_mem_cons ha)
    | cons y b =>
      obtain ⟨rfl, htail⟩ := List.cons.inj h
      obtain ⟨rfl, rfl⟩ := ih (List.not_mem_of_not_mem_cons ha) (List.not_mem_of_not_mem_cons hb) htail
      exact ⟨rfl, rfl⟩

section UpTo

variable {α : Type}

/-- The part of a list before its mark number `n`, counted from zero. -/
def upTo (mark : α → Bool) : Nat → List α → List α
  | _, [] => []
  | n, x :: xs =>
    if mark x then
      match n with
      | 0 => []
      | n + 1 => x :: upTo mark n xs
    else x :: upTo mark n xs

theorem upTo_append (mark : α → Bool) (n : Nat) (xs ys : List α) :
    upTo mark n (xs ++ ys) = if xs.countP mark ≤ n then xs ++ upTo mark (n - xs.countP mark) ys
      else upTo mark n xs := by
  induction xs generalizing n with
  | nil => simp
  | cons x xs ih =>
    by_cases hx : mark x
    · cases n with
      | zero => simp [upTo, hx]
      | succ n =>
        simp only [List.cons_append, upTo, hx, if_true, ih, List.countP_cons_of_pos hx,
          Nat.add_le_add_iff_right, Nat.add_sub_add_right]
        split_ifs <;> rfl
    · simp only [List.cons_append, upTo, if_neg hx, ih, List.countP_cons_of_neg hx]
      split_ifs <;> rfl

theorem upTo_of_le {mark : α → Bool} {n : Nat} {xs : List α} (h : xs.countP mark ≤ n) :
    upTo mark n xs = xs := by
  have happend := upTo_append mark n xs []
  rw [List.append_nil, if_pos h] at happend
  rw [happend, upTo, List.append_nil]

theorem upTo_initial (mark : α → Bool) (n : Nat) (xs : List α) : upTo mark n xs <+: xs := by
  induction xs generalizing n with
  | nil => exact List.prefix_refl _
  | cons x xs ih =>
    by_cases hx : mark x
    · cases n with
      | zero => simp [upTo, hx]
      | succ n =>
        simp only [upTo, hx, if_true]
        exact (List.prefix_cons_inj x).mpr (ih n)
    · simp only [upTo, if_neg hx]
      exact (List.prefix_cons_inj x).mpr (ih n)

end UpTo

end Dlir.Math
