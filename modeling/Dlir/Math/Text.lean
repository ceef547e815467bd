import Dlir.Math.Checked
import Mathlib.Data.List.DropRight
import Mathlib.Tactic.Common

namespace Dlir.Math

/-- Takes the characters that satisfy `p` off both ends, as `trim_matches` does. -/
def trimMatches (p : Char → Bool) (s : List Char) : List Char := (s.dropWhile p).rdropWhile p

/-- Takes the characters that satisfy `p` off the end, as `trim_end_matches` does. -/
def trimEndMatches (p : Char → Bool) (s : List Char) : List Char := s.rdropWhile p

/-- The number that decimal digits denote. -/
def digitsValue (digits : List Char) : Nat := Nat.ofDigitChars 10 digits 0

/-- `parse::<u64>`: an optional plus sign, then digits that denote a 64-bit number. -/
def parseU64 (s : List Char) : Option Nat :=
  let digits := if s.head? = some '+' then s.tail else s
  if digits = [] ∨ ¬ digits.all Char.isDigit then none
  else if digitsValue digits < 2 ^ 64 then some (digitsValue digits)
  else none

theorem trimMatches_eq_self {p : Char → Bool} {s : List Char} (h : ∀ c ∈ s, p c = false) :
    trimMatches p s = s := by
  have hfront : s.dropWhile p = s := by
    cases s with
    | nil => rfl
    | cons c s => simp [h c List.mem_cons_self]
  rw [trimMatches, hfront, List.rdropWhile_eq_self_iff]
  intro hne
  simp [h _ (List.getLast_mem hne)]

/-- A run of one character at the end is taken off. -/
theorem trimEndMatches_append_replicate (s : List Char) (c : Char) (n : Nat) :
    trimEndMatches (· == c) (s ++ List.replicate n c) = trimEndMatches (· == c) s := by
  induction n with
  | zero => rw [List.replicate_zero, List.append_nil]
  | succ n ih =>
    rw [List.replicate_succ', ← List.append_assoc, trimEndMatches, List.rdropWhile_concat_pos]
    · exact ih
    · simp

theorem trimEndMatches_eq_self {s : List Char} {c : Char} (h : s.getLast? ≠ some c) :
    trimEndMatches (· == c) s = s := by
  rw [trimEndMatches, List.rdropWhile_eq_self_iff]
  intro hne hlast
  rw [beq_iff_eq] at hlast
  exact h (by rw [List.getLast?_eq_getLast_of_ne_nil hne, hlast])

theorem parseU64_eq_some {s : List Char} {n : Nat} (hsign : s.head? ≠ some '+') :
    parseU64 s = some n ↔
      s ≠ [] ∧ s.all Char.isDigit = true ∧ digitsValue s = n ∧ n < 2 ^ 64 := by
  unfold parseU64
  simp only [if_neg hsign]
  split_ifs with hbad hlt
  · constructor
    · intro h
      cases h
    · rintro ⟨hne, hdigits, -⟩
      exact absurd hbad (by simp [hne, hdigits])
  · push Not at hbad
    rw [Option.some.injEq]
    constructor
    · rintro rfl
      exact ⟨hbad.1, hbad.2, rfl, hlt⟩
    · rintro ⟨-, -, rfl, -⟩
      rfl
  · constructor
    · intro h
      cases h
    · rintro ⟨-, -, rfl, hn⟩
      exact absurd hn hlt

/-- A text of digits does not begin with a sign. -/
theorem head_ne_of_digits {s : List Char} {c : Char} (h : s.all Char.isDigit = true)
    (hc : c.isDigit = false) : s.head? ≠ some c := by
  intro hs
  have hmem : c ∈ s := List.mem_of_mem_head? hs
  have hdigit := List.all_eq_true.mp h c hmem
  rw [hc] at hdigit
  cases hdigit

theorem digitsValue_append (xs ys : List Char) :
    digitsValue (xs ++ ys) = digitsValue xs * 10 ^ ys.length + digitsValue ys := by
  rw [digitsValue, Nat.ofDigitChars_append, Nat.ofDigitChars_eq_ofDigitChars_zero, Nat.mul_comm]
  rfl

theorem digitsValue_zeros (n : Nat) : digitsValue (List.replicate n '0') = 0 := by
  simp [digitsValue]

theorem digitsValue_toDigits (n : Nat) : digitsValue (Nat.toDigits 10 n) = n :=
  Nat.ofDigitChars_ten_toDigits

theorem all_isDigit_toDigits (n : Nat) : (Nat.toDigits 10 n).all Char.isDigit = true := by
  rw [List.all_eq_true]
  intro c hc
  exact Nat.isDigit_of_mem_toDigits (by omega) (by omega) hc

theorem digitsValue_lt {digits : List Char} (h : digits.all Char.isDigit = true) :
    digitsValue digits < 10 ^ digits.length := by
  induction digits using List.reverseRecOn with
  | nil => simp [digitsValue]
  | append_singleton digits c ih =>
    obtain ⟨hdigits, hc⟩ : digits.all Char.isDigit = true ∧ c.isDigit = true := by
      simpa using h
    have hlt := ih hdigits
    have hone : digitsValue [c] ≤ 9 := by
      simp only [Char.isDigit, Bool.and_eq_true, decide_eq_true_eq] at hc
      have hle : c.val.toNat ≤ 57 := by
        have := hc.2
        rw [ge_iff_le, UInt32.le_iff_toNat_le] at *
        exact this
      have hval : digitsValue [c] = c.toNat - 48 := by
        simp [digitsValue, Nat.ofDigitChars_cons]
      rw [hval]
      have hnat : c.toNat = c.val.toNat := rfl
      omega
    rw [digitsValue_append, List.length_append, List.length_singleton, pow_succ]
    omega

end Dlir.Math
