import Dlir.Math.Text
import Mathlib.Data.List.TakeWhile

namespace Dlir.Math

/-- The bytes of a text without other characters than those of ASCII. -/
def asciiBytes (s : List Char) : List UInt8 := s.map fun c => .ofNat c.toNat

def isAscii (s : List Char) : Bool := s.all fun c => c.toNat < 128

def asciiText (bytes : List UInt8) : List Char := bytes.map fun b => .ofNat b.toNat

/-- What follows a word at the front of a text. -/
def strip (word s : List Char) : Option (List Char) :=
  if word <+: s then some (s.drop word.length) else none

/-- A number at the front of a text, and what follows it. -/
def number (s : List Char) : Nat × List Char :=
  (digitsValue (s.takeWhile Char.isDigit), s.dropWhile Char.isDigit)

theorem asciiText_asciiBytes {s : List Char} (h : isAscii s = true) : asciiText (asciiBytes s) = s := by
  induction s with
  | nil => rfl
  | cons c s ih =>
    obtain ⟨hc, hs⟩ : c.toNat < 128 ∧ isAscii s = true := by simpa [isAscii] using h
    have hbyte : (UInt8.ofNat c.toNat).toNat = c.toNat := by
      rw [UInt8.toNat_ofNat']
      exact Nat.mod_eq_of_lt (by omega)
    show Char.ofNat (UInt8.ofNat c.toNat).toNat :: asciiText (asciiBytes s) = c :: s
    rw [hbyte, Char.ofNat_toNat, ih hs]

theorem strip_append (word s : List Char) : strip word (word ++ s) = some s := by
  rw [strip, if_pos (List.prefix_append word s), List.drop_left]

/-- A text that begins with another word of at least the same length does not begin with this one. -/
theorem strip_eq_none {word other : List Char} (s : List Char) (hlength : word.length ≤ other.length)
    (h : ¬ word <+: other) : strip word (other ++ s) = none := by
  refine if_neg fun hword => h ?_
  exact List.prefix_of_prefix_length_le hword (List.prefix_append other s) hlength

/-- A number ends where the digits end. -/
theorem number_toDigits (n : Nat) {c : Char} (s : List Char) (hc : c.isDigit = false) :
    number (Nat.toDigits 10 n ++ c :: s) = (n, c :: s) := by
  have hdigits : ∀ d ∈ Nat.toDigits 10 n, d.isDigit = true := List.all_eq_true.mp (all_isDigit_toDigits n)
  rw [number, List.takeWhile_append_of_pos hdigits, List.dropWhile_append_of_pos hdigits,
    List.takeWhile_cons_of_neg (by simp [hc]), List.dropWhile_cons_of_neg (by simp [hc]),
    List.append_nil, digitsValue_toDigits]

theorem isAscii_append (s s' : List Char) : isAscii (s ++ s') = (isAscii s && isAscii s') :=
  List.all_append

theorem isAscii_toDigits (n : Nat) : isAscii (Nat.toDigits 10 n) = true := by
  rw [isAscii, List.all_eq_true]
  intro c hc
  rw [decide_eq_true_eq]
  have hdigit := List.all_eq_true.mp (all_isDigit_toDigits n) c hc
  simp only [Char.isDigit, Bool.and_eq_true, decide_eq_true_eq] at hdigit
  have hle : c.val.toNat ≤ 57 := UInt32.le_iff_toNat_le.mp hdigit.2
  have hnat : c.toNat = c.val.toNat := rfl
  omega

theorem toNat_toLower (c : Char) :
    c.toLower.toNat = if 65 ≤ c.toNat ∧ c.toNat ≤ 90 then c.toNat + 32 else c.toNat := by
  have hcase : (c.val ≥ 'A'.val ∧ c.val ≤ 'Z'.val) ↔ 65 ≤ c.toNat ∧ c.toNat ≤ 90 := by
    simp [UInt32.le_iff_toNat_le]
  unfold Char.toLower
  simp only [hcase]
  split_ifs with h
  · have hdistance : ('a'.val - 'A'.val).toNat = 32 := by decide
    simp only [Char.toNat_mk, UInt32.toNat_add, Char.toNat_val]
    omega
  · rfl

theorem toNat_toUpper (c : Char) :
    c.toUpper.toNat = if 97 ≤ c.toNat ∧ c.toNat ≤ 122 then c.toNat - 32 else c.toNat := by
  have hcase : ('a'.val ≤ c.val ∧ c.val ≤ 'z'.val) ↔ 97 ≤ c.toNat ∧ c.toNat ≤ 122 := by
    simp [UInt32.le_iff_toNat_le]
  unfold Char.toUpper
  simp only [hcase]
  split_ifs with h
  · have hdistance : ('A'.val - 'a'.val).toNat = 2 ^ 32 - 32 := by decide
    simp only [Char.toNat_mk, UInt32.toNat_add, Char.toNat_val]
    omega
  · rfl

/-- Two characters agree in lower case when one is the other in either case. -/
theorem toLower_eq_toLower_iff {c letter : Char} :
    c.toLower = letter.toLower ↔ c = letter.toLower ∨ c = letter.toUpper := by
  simp only [← Char.toNat_inj, toNat_toLower, toNat_toUpper]
  split_ifs <;> omega

end Dlir.Math
