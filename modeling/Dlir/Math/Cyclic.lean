import Mathlib.Data.Nat.Basic
import Mathlib.Data.Fin.Basic
import Mathlib.Tactic.Common

namespace Dlir.Math

variable {n : Nat}

theorem mod_wrap {k : Nat} (h : k < 2 * n) : k % n = if k < n then k else k - n := by
  split_ifs with hk
  · exact Nat.mod_eq_of_lt hk
  · rw [Nat.mod_eq_sub_mod (by omega), Nat.mod_eq_of_lt (by omega)]

/-- How far `c` lies behind `r` on a ring of `n` places. -/
def gap (n r c : Nat) : Nat := if c ≤ r then r - c else r + n - c

theorem gap_lt {r c : Nat} (hr : r < n) (hc : c < n) : gap n r c < n := by
  unfold gap
  split_ifs <;> omega

/-- The place `s` behind `r`. -/
def behind (n r s : Nat) : Nat := (r + n - s) % n

section Behind

variable {r s c : Nat}

theorem behind_lt (hr : r < n) (s : Nat) : behind n r s < n := Nat.mod_lt _ (by omega)

theorem gap_behind (hr : r < n) (hs : s < n) : gap n r (behind n r s) = s := by
  rw [behind, mod_wrap (by omega), gap]
  split_ifs <;> omega

theorem behind_gap (hr : r < n) (hc : c < n) : behind n r (gap n r c) = c := by
  unfold gap
  split_ifs with h
  · rw [behind, show r + n - (r - c) = c + n by omega, Nat.add_mod_right, Nat.mod_eq_of_lt hc]
  · rw [behind, show r + n - (r + n - c) = c by omega, Nat.mod_eq_of_lt hc]

theorem eq_behind_iff (hr : r < n) (hc : c < n) (hs : s < n) :
    c = behind n r s ↔ gap n r c = s := by
  constructor
  · rintro rfl
    exact gap_behind hr hs
  · rintro rfl
    exact (behind_gap hr hc).symm

theorem behind_add_mod (hr : r < n) (hs : s < n) : (behind n r s + s) % n = r := by
  rw [behind, Nat.mod_add_mod, show r + n - s + s = r + n by omega, Nat.add_mod_right,
    Nat.mod_eq_of_lt hr]

/-- What is `s` behind the left neighbour is `s + 1` behind. -/
theorem behind_pred (hr : r < n) (hs : s + 1 < n) :
    behind n ((r + n - 1) % n) s = behind n r (s + 1) := by
  rw [behind, behind, mod_wrap (k := r + n - 1) (by omega)]
  split_ifs with h
  · rw [show r + n - 1 + n - s = r + n - (s + 1) + n by omega, Nat.add_mod_right]
  · rw [show r + n - 1 - n + n - s = r + n - (s + 1) by omega]

/-- The right neighbour of the place `s` behind is one less behind, or the whole way round. -/
theorem gap_succ_behind (hr : r < n) (hs : s < n) :
    gap n r ((r + 1 + n - s) % n) = if s = 0 then n - 1 else s - 1 := by
  by_cases h0 : s = 0
  · subst h0
    rw [Nat.sub_zero, Nat.add_mod_right, if_pos rfl]
    by_cases hw : r + 1 < n
    · rw [Nat.mod_eq_of_lt hw, gap, if_neg (by omega)]
      omega
    · rw [show r + 1 = n by omega, Nat.mod_self, gap, if_pos (Nat.zero_le r)]
      omega
  · rw [if_neg h0, show r + 1 + n - s = r + n - (s - 1) by omega]
    exact gap_behind hr (by omega)

theorem succ_behind_pred (hr : r < n) (hs : s < n) :
    ((r + n - 1) % n + 1 + n - s) % n = behind n r s := by
  rw [behind, mod_wrap (k := r + n - 1) (by omega)]
  split_ifs with h
  · rw [show r + n - 1 + 1 + n - s = r + n - s + n by omega, Nat.add_mod_right]
  · rw [show r + n - 1 - n + 1 + n - s = r + n - s by omega]

end Behind

/-- The place `s` ahead of `r`. -/
def ahead (s : Nat) (r : Fin n) : Fin n := ⟨(r.val + s) % n, Nat.mod_lt _ r.pos⟩

/-- The place `s` behind `r`. -/
def back (s : Nat) (r : Fin n) : Fin n := ⟨behind n r s, behind_lt r.isLt s⟩

section Shift

variable {s : Nat}

theorem back_ahead (hs : s < n) (r : Fin n) : back s (ahead s r) = r := by
  ext
  simp only [back, ahead, behind]
  have hr := r.isLt
  rw [mod_wrap (k := r.val + s) (by omega)]
  split_ifs with h
  · rw [show r.val + s + n - s = r.val + n by omega, Nat.add_mod_right, Nat.mod_eq_of_lt hr]
  · rw [show r.val + s - n + n - s = r.val by omega, Nat.mod_eq_of_lt hr]

theorem ahead_back (hs : s < n) (r : Fin n) : ahead s (back s r) = r := by
  ext
  exact behind_add_mod r.isLt hs

theorem ahead_ne (h0 : 0 < s) (hs : s < n) (r : Fin n) : ahead s r ≠ r := by
  intro h
  have hv : (r.val + s) % n = r.val := congrArg Fin.val h
  have hr := r.isLt
  rw [mod_wrap (by omega)] at hv
  split_ifs at hv <;> omega

end Shift

end Dlir.Math
