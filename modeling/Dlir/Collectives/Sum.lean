import Dlir.Collectives.Blocks
import Dlir.Math.RankFold

namespace Dlir.Collectives

open Dlir.Math

namespace Tensor

variable {α : Type} [Add α]

/-- The sum of two tensors of one shape. -/
def plus (a b : Tensor α) : Tensor α := (a.add b).toOption.getD a

theorem add_eq_plus {a b : Tensor α} (h : a.shape = b.shape) : a.add b = .ok (a.plus b) := by
  obtain ⟨c, hc, -⟩ := add_ok h
  simp [plus, hc, Except.toOption]

@[simp] theorem plus_shape (a b : Tensor α) : (a.plus b).shape = a.shape := by
  by_cases h : a.shape = b.shape
  · obtain ⟨c, hc, hs, -⟩ := add_ok h
    simp [plus, hc, Except.toOption, hs]
  · simp [plus, add, h, Except.toOption]

theorem plus_data {a b : Tensor α} (h : a.shape = b.shape) :
    (a.plus b).data = List.zipWith (· + ·) a.data b.data := by
  obtain ⟨c, hc, -, hd⟩ := add_ok h
  simp [plus, hc, Except.toOption, hd]

variable {world : Nat} {x : Fin world → Tensor α} {shape : List Nat}

theorem rootFold_shape (hx : ∀ r, (x r).shape = shape) (root : Fin world) :
    (rootFold plus root x).shape = shape :=
  (map_rootFold plus (fun a _ => a) Tensor.shape (fun t => t.shape = shape)
    (fun a b ha _ => by simp [ha]) (fun a b _ _ => by simp) hx root).1

theorem rootFold_data (hx : ∀ r, (x r).shape = shape) (root : Fin world) :
    (rootFold plus root x).data = rootFold (List.zipWith (· + ·)) root fun r => (x r).data :=
  (map_rootFold plus _ _ (fun t => t.shape = shape) (fun a b ha _ => by simp [ha])
    (fun a b ha hb => plus_data (ha.trans hb.symm)) hx root).2

theorem ringFold_shape [NeZero world] (hx : ∀ r, (x r).shape = shape) (c d : Nat) :
    (ringFold plus x c d).shape = shape :=
  (map_ringFold plus (fun a _ => a) Tensor.shape (fun t => t.shape = shape)
    (fun a b ha _ => by simp [ha]) (fun a b _ _ => by simp) hx c d).1

theorem ringFold_data [NeZero world] (hx : ∀ r, (x r).shape = shape) (c d : Nat) :
    (ringFold plus x c d).data = ringFold (List.zipWith (· + ·)) (fun r => (x r).data) c d :=
  (map_ringFold plus _ _ (fun t => t.shape = shape) (fun a b ha _ => by simp [ha])
    (fun a b ha hb => plus_data (ha.trans hb.symm)) hx c d).2

end Tensor

/-- Element by element, with the shorter list deciding the length, lists add commutatively. -/
abbrev pointwiseSemigroup (α : Type) [AddCommSemigroup α] : AddCommSemigroup (List α) where
  add := List.zipWith (· + ·)
  add_assoc a b c := by
    change List.zipWith _ (List.zipWith _ a b) c = List.zipWith _ a (List.zipWith _ b c)
    induction a generalizing b c with
    | nil => simp
    | cons x a ih =>
      cases b with
      | nil => simp
      | cons y b =>
        cases c with
        | nil => simp
        | cons z c => simp [ih, add_assoc]
  add_comm a b := by
    change List.zipWith _ a b = List.zipWith _ b a
    rw [List.zipWith_comm]
    simp only [add_comm]

section Commutative

variable {α : Type} [AddCommSemigroup α] {world : Nat}

theorem ringFold_zipWith [NeZero world] (x : Fin world → List α) (c : Nat) (root : Fin world) :
    ringFold (List.zipWith (· + ·)) x c (world - 1) =
      rootFold (List.zipWith (· + ·)) root x :=
  letI := pointwiseSemigroup α
  ringFold_eq_rootFold x c root

theorem rootFold_zipWith (x : Fin world → List α) (root root' : Fin world) :
    rootFold (List.zipWith (· + ·)) root x = rootFold (List.zipWith (· + ·)) root' x :=
  letI := pointwiseSemigroup α
  rootFold_comm x root root'

end Commutative

end Dlir.Collectives
