import Mathlib.Algebra.Group.Nat.Even
import Mathlib.Tactic.Common

namespace Dlir.Math

/-- `checked_add` of 64-bit unsigned integers. -/
@[irreducible] def checkedAdd (a b : Nat) : Option Nat := if a + b < 2 ^ 64 then some (a + b) else none

/-- `checked_mul` of 64-bit unsigned integers. -/
@[irreducible] def checkedMul (a b : Nat) : Option Nat := if a * b < 2 ^ 64 then some (a * b) else none

theorem checkedAdd_some {a b : Nat} (h : a + b < 2 ^ 64) : checkedAdd a b = some (a + b) := by
  rw [checkedAdd, if_pos h]

theorem checkedAdd_none {a b : Nat} (h : ¬ a + b < 2 ^ 64) : checkedAdd a b = none := by
  rw [checkedAdd, if_neg h]

theorem checkedMul_some {a b : Nat} (h : a * b < 2 ^ 64) : checkedMul a b = some (a * b) := by
  rw [checkedMul, if_pos h]

theorem checkedMul_none {a b : Nat} (h : ¬ a * b < 2 ^ 64) : checkedMul a b = none := by
  rw [checkedMul, if_neg h]

theorem checkedAdd_eq_some {a b c : Nat} :
    checkedAdd a b = some c ↔ a + b < 2 ^ 64 ∧ c = a + b := by
  rw [checkedAdd, Option.ite_none_right_eq_some, Option.some_inj, eq_comm (a := a + b)]

theorem checkedMul_eq_some {a b c : Nat} :
    checkedMul a b = some c ↔ a * b < 2 ^ 64 ∧ c = a * b := by
  rw [checkedMul, Option.ite_none_right_eq_some, Option.some_inj, eq_comm (a := a * b)]

end Dlir.Math
