import Dlir.Framework.Machine
import Mathlib.Data.List.TakeWhile
import Mathlib.Tactic.Common

namespace Dlir.Math

open Dlir.Framework

/-- The bytes that a text takes. -/
def utf8Length (s : List Char) : Nat := (s.map Char.utf8Size).sum

/-- `find`: the byte at which the first character that satisfies `p` begins. -/
def findByte (p : Char → Bool) : List Char → Option Nat
  | [] => none
  | c :: s => if p c then some 0 else (findByte p s).map (c.utf8Size + ·)

/-- `split_at`: the text before a byte and the text from it on. It panics where the byte is not the
first one of a character, or lies behind the end. -/
def splitAtByte (s : List Char) (n : Nat) : Except Panic (List Char × List Char) :=
  if n = 0 then .ok ([], s)
  else match s with
    | [] => .error .notCharBoundary
    | c :: s =>
      if n < c.utf8Size then .error .notCharBoundary
      else (splitAtByte s (n - c.utf8Size)).map (Prod.map (c :: ·) id)

@[simp] theorem utf8Length_nil : utf8Length [] = 0 := rfl

@[simp] theorem utf8Length_cons (c : Char) (s : List Char) :
    utf8Length (c :: s) = c.utf8Size + utf8Length s := rfl

/-- A text is split between two of its characters. -/
theorem splitAtByte_append (xs ys : List Char) :
    splitAtByte (xs ++ ys) (utf8Length xs) = .ok (xs, ys) := by
  induction xs with
  | nil =>
    unfold splitAtByte
    exact if_pos rfl
  | cons c xs ih =>
    have hpos := c.utf8Size_pos
    unfold splitAtByte
    rw [List.cons_append, utf8Length_cons, if_neg (by omega)]
    show (if _ then _ else _) = _
    rw [if_neg (by omega), show c.utf8Size + utf8Length xs - c.utf8Size = utf8Length xs by omega, ih]
    rfl

theorem findByte_eq_none {p : Char → Bool} {s : List Char} (h : ∀ c ∈ s, p c = false) :
    findByte p s = none := by
  induction s with
  | nil => rfl
  | cons c s ih =>
    obtain ⟨hc, hs⟩ := List.forall_mem_cons.mp h
    simp [findByte, hc, ih hs]

theorem findByte_append {p : Char → Bool} {xs : List Char} (h : ∀ c ∈ xs, p c = false)
    {c : Char} (hc : p c = true) (ys : List Char) :
    findByte p (xs ++ c :: ys) = some (utf8Length xs) := by
  induction xs with
  | nil => simp [findByte, hc]
  | cons x xs ih =>
    obtain ⟨hx, hxs⟩ := List.forall_mem_cons.mp h
    simp [findByte, hx, ih hxs]

/-- The byte that `find` gives, or else the end, splits a text into the characters before the first
one that satisfies `p` and the rest. -/
theorem splitAtByte_findByte (p : Char → Bool) (s : List Char) :
    splitAtByte s ((findByte p s).getD (utf8Length s)) =
      .ok (s.takeWhile (!p ·), s.dropWhile (!p ·)) := by
  have htake : ∀ c ∈ s.takeWhile (!p ·), p c = false := by
    intro c hc
    simpa using List.mem_takeWhile_imp hc
  have hsplit : s.takeWhile (!p ·) ++ s.dropWhile (!p ·) = s := List.takeWhile_append_dropWhile
  have hbyte : (findByte p s).getD (utf8Length s) = utf8Length (s.takeWhile (!p ·)) := by
    cases hdrop : s.dropWhile (!p ·) with
    | nil =>
      rw [hdrop, List.append_nil] at hsplit
      rw [hsplit] at htake ⊢
      rw [findByte_eq_none htake, Option.getD_none]
    | cons c rest =>
      have hc : p c = true := by
        have hhead := List.head_dropWhile_not (!p ·) (l := s) (by rw [hdrop]; simp)
        simpa [hdrop] using hhead
      have hfind := findByte_append htake hc rest
      rw [← hdrop, hsplit] at hfind
      rw [hfind, Option.getD_some]
  have happend := splitAtByte_append (s.takeWhile (!p ·)) (s.dropWhile (!p ·))
  rw [hsplit] at happend
  rw [hbyte, happend]

end Dlir.Math
