import Mathlib.Algebra.BigOperators.Intervals
import Mathlib.Algebra.Order.Monoid.Unbundled.Basic
import Mathlib.Tactic.Common

namespace Dlir.Math

variable {bound : Nat → Nat} {p n : Nat}

/-- Consecutive blocks that start at 0 and end at `n` hold every number below `n` once. -/
theorem existsUnique_block (hmono : Monotone bound) (hzero : bound 0 = 0) (hend : bound p = n)
    {x : Nat} (hx : x < n) : ∃! r, r < p ∧ bound r ≤ x ∧ x < bound (r + 1) := by
  have hexists : ∀ q, x < bound q → ∃ r, r < q ∧ bound r ≤ x ∧ x < bound (r + 1) := by
    intro q
    induction q with
    | zero =>
      intro hlt
      omega
    | succ q ih =>
      intro hlt
      by_cases hq : x < bound q
      · obtain ⟨r, hr, hblock⟩ := ih hq
        exact ⟨r, by omega, hblock⟩
      · exact ⟨q, by omega, by omega, hlt⟩
  obtain ⟨r, hr, hlow, hhigh⟩ := hexists p (by omega)
  refine ⟨r, ⟨hr, hlow, hhigh⟩, ?_⟩
  rintro s ⟨-, hlow', hhigh'⟩
  -- a block further on starts where this one has ended, or later
  rcases Nat.lt_trichotomy s r with hlt | heq | hgt
  · have := hmono (show s + 1 ≤ r from hlt)
    omega
  · exact heq
  · have := hmono (show r + 1 ≤ s from hgt)
    omega

/-- Where the blocks start when `n` things are dealt out evenly, the first ones taking one more. -/
def evenBound (base remainder r : Nat) : Nat := r * base + min r remainder

theorem evenBound_succ (base remainder r : Nat) :
    evenBound base remainder (r + 1) =
      evenBound base remainder r + (base + if r < remainder then 1 else 0) := by
  unfold evenBound
  rw [Nat.add_mul, Nat.one_mul]
  split_ifs <;> omega

theorem evenBound_monotone (base remainder : Nat) : Monotone (evenBound base remainder) := by
  apply monotone_nat_of_le_succ
  intro r
  rw [evenBound_succ]
  exact Nat.le_add_right _ _

theorem evenBound_end (hp : 0 < p) : evenBound (n / p) (n % p) p = n := by
  have hlt := Nat.mod_lt n hp
  unfold evenBound
  rw [Nat.min_eq_right hlt.le]
  exact Nat.div_add_mod n p

end Dlir.Math
