import Dlir.Collectives.Error
import Dlir.Math.Checked
import Mathlib.Algebra.BigOperators.Group.List.Basic
import Mathlib.Algebra.Order.BigOperators.Group.List
import Mathlib.Tactic.Ring
import Mathlib.Tactic.Linarith

namespace Dlir.Collectives

open Dlir.Math

/-- A CPU tensor in row-major order. A `Vec` of four-byte elements never exceeds
`isize::MAX` bytes, and every dimension is a 64-bit `usize`. -/
@[ext] structure Tensor (α : Type) where
  shape : List Nat
  data : List α
  size : data.length = shape.prod
  fits : data.length < 2 ^ 61
  usize : ∀ d ∈ shape, d < 2 ^ 64

namespace Tensor

variable {α : Type}

def fromVec (data : List α) (shape : List Nat) : Except CandleError (Tensor α) :=
  if h : data.length = shape.prod ∧ data.length < 2 ^ 61 ∧ ∀ d ∈ shape, d < 2 ^ 64 then
    .ok ⟨shape, data, h.1, h.2.1, h.2.2⟩
  else .error (.shapeMismatch shape [data.length])

def elemCount (t : Tensor α) : Nat := t.data.length

def rank (t : Tensor α) : Nat := t.shape.length

def dim (t : Tensor α) (axis : Nat) : Except CandleError Nat :=
  match t.shape[axis]? with
  | some d => .ok d
  | none => .error (.dimOutOfRange t.shape axis)

def flattenAll (t : Tensor α) : Tensor α where
  shape := [t.data.length]
  data := t.data
  size := by simp
  fits := t.fits
  usize := by have := t.fits; simp; omega

def reshape (t : Tensor α) (shape : List Nat) : Except CandleError (Tensor α) :=
  if shape.prod = t.elemCount then fromVec t.data shape
  else .error (.shapeMismatch t.shape shape)

/-- Number of consecutive elements below one index of `axis`. -/
def inner (shape : List Nat) (axis : Nat) : Nat := (shape.drop (axis + 1)).prod

/-- Number of blocks above `axis`. -/
def outer (shape : List Nat) (axis : Nat) : Nat := (shape.take axis).prod

def narrow (t : Tensor α) (axis start len : Nat) : Except CandleError (Tensor α) := do
  let d ← t.dim axis
  if start + len > d then .error (.narrowInvalidArgs t.shape axis start len)
  else
    fromVec ((List.range (outer t.shape axis)).flatMap fun o =>
      (t.data.drop ((o * d + start) * inner t.shape axis)).take (len * inner t.shape axis))
      (t.shape.set axis len)

/-- Block `o` of a tensor along `axis`. -/
def block (t : Tensor α) (axis o : Nat) : List α :=
  let width := t.shape.getD axis 0 * inner t.shape axis
  (t.data.drop (o * width)).take width

/-- Shapes that agree in rank and in every dimension but `axis`. -/
def sameExcept (axis : Nat) (a b : List Nat) : Bool :=
  a.length == b.length && (a.set axis 0 == b.set axis 0)

def cat (ts : List (Tensor α)) (axis : Nat) : Except CandleError (Tensor α) :=
  match ts with
  | [] => .error .opRequiresAtLeastOneTensor
  | [t] => .ok t
  | t :: _ =>
    if t.shape.length ≤ axis then .error (.dimOutOfRange t.shape axis)
    else match ts.find? fun u => !sameExcept axis t.shape u.shape with
      | some u => .error (.shapeMismatch t.shape u.shape)
      | none =>
        fromVec ((List.range (outer t.shape axis)).flatMap fun o => ts.flatMap fun u => u.block axis o)
          (t.shape.set axis (ts.map fun u => u.shape.getD axis 0).sum)

def add [Add α] (a b : Tensor α) : Except CandleError (Tensor α) :=
  if a.shape = b.shape then fromVec (List.zipWith (· + ·) a.data b.data) a.shape
  else .error (.shapeMismatch a.shape b.shape)

theorem fromVec_ok {data : List α} {shape : List Nat} (h : data.length = shape.prod)
    (hf : data.length < 2 ^ 61) (hu : ∀ d ∈ shape, d < 2 ^ 64) :
    fromVec data shape = .ok ⟨shape, data, h, hf, hu⟩ := by
  simp only [fromVec]
  rw [dif_pos ⟨h, hf, hu⟩]

theorem fromVec_parts {data : List α} {shape : List Nat} {t : Tensor α}
    (h : fromVec data shape = .ok t) : t.shape = shape ∧ t.data = data := by
  unfold fromVec at h
  split at h
  · cases h
    exact ⟨rfl, rfl⟩
  · cases h

theorem fromVec_self (t : Tensor α) : fromVec t.data t.shape = .ok t :=
  fromVec_ok t.size t.fits t.usize

theorem add_ok [Add α] {a b : Tensor α} (h : a.shape = b.shape) :
    ∃ c, a.add b = .ok c ∧ c.shape = a.shape ∧ c.data = List.zipWith (· + ·) a.data b.data := by
  have hl : (List.zipWith (· + ·) a.data b.data).length = a.shape.prod := by
    have hb := b.size
    rw [← h] at hb
    simp [a.size, hb]
  refine ⟨⟨a.shape, _, hl, ?_, a.usize⟩, ?_, rfl, rfl⟩
  · rw [hl, ← a.size]
    exact a.fits
  · unfold add
    rw [if_pos h]
    exact fromVec_ok hl _ a.usize

end Tensor

/-- Multiplies the dimensions in checked `usize` arithmetic. -/
def elementCount (shape : List Nat) : Except CollectivesError Nat :=
  match shape.foldlM checkedMul 1 with
  | some n => .ok n
  | none => .error (.shapeOverflow shape)

/-- Owned tensor metadata and values transferred between ranks. -/
@[ext] structure TensorPacket (α : Type) where
  shape : List Nat
  values : List α
  count : elementCount shape = .ok values.length

namespace TensorPacket

variable {α : Type}

/-- Validates that `shape` describes exactly `values.length` elements. -/
def new (shape : List Nat) (values : List α) : Except CollectivesError (TensorPacket α) :=
  match h : elementCount shape with
  | .error e => .error e
  | .ok expected =>
    if hc : expected = values.length then .ok ⟨shape, values, by rw [h, hc]⟩
    else .error (.elementCountMismatch shape expected values.length)

/-- Copies a CPU/F32 Candle tensor into an owned packet. -/
def fromTensor (t : Tensor α) : Except CollectivesError (TensorPacket α) :=
  new t.shape t.flattenAll.data

/-- Reconstructs a new CPU Candle tensor from this packet. -/
def toTensor (p : TensorPacket α) : Except CollectivesError (Tensor α) := do
  let expected ← elementCount p.shape
  if expected ≠ p.values.length then
    .error (.elementCountMismatch p.shape expected p.values.length)
  else (Tensor.fromVec p.values p.shape).mapError .tensor

theorem new_parts {shape : List Nat} {values : List α} {p : TensorPacket α}
    (h : new shape values = .ok p) : p.shape = shape ∧ p.values = values := by
  unfold new at h
  split at h
  · cases h
  · split_ifs at h with hc
    obtain rfl := Except.ok.inj h
    exact ⟨rfl, rfl⟩

theorem new_ok {shape : List Nat} {values : List α} (h : elementCount shape = .ok values.length) :
    new shape values = .ok ⟨shape, values, h⟩ := by
  unfold new
  split
  · rename_i e he
    rw [h] at he
    cases he
  · rename_i n hn
    obtain rfl : values.length = n := by rw [h] at hn; exact Except.ok.inj hn
    simp

end TensorPacket

/-- The tensor survives the copy into a packet: its dimensions multiply without overflow. -/
def Tensor.Sendable {α : Type} (t : Tensor α) : Prop := elementCount t.shape = .ok t.data.length

namespace TensorPacket

variable {α : Type}

/-- The packet of a sendable tensor. -/
def ofTensor (t : Tensor α) (h : t.Sendable) : TensorPacket α := ⟨t.shape, t.data, h⟩

theorem fromTensor_ok {t : Tensor α} (h : t.Sendable) : fromTensor t = .ok (ofTensor t h) :=
  new_ok h

theorem toTensor_ofTensor {t : Tensor α} (h : t.Sendable) : (ofTensor t h).toTensor = .ok t := by
  have hc : elementCount t.shape = .ok t.data.length := h
  simp [toTensor, ofTensor, hc, Tensor.fromVec_self, bind, Except.bind, Except.mapError]

/-- What is packed is unpacked again. -/
theorem toTensor_fromTensor {t : Tensor α} {p : TensorPacket α} (h : fromTensor t = .ok p) :
    p.toTensor = .ok t := by
  by_cases hs : t.Sendable
  · rw [fromTensor_ok hs] at h
    cases h
    exact toTensor_ofTensor hs
  · exfalso
    unfold fromTensor new at h
    split at h
    · cases h
    · rename_i n hn
      split at h
      · rename_i hc
        exact hs (by rw [Tensor.Sendable, hn, hc]; rfl)
      · cases h

end TensorPacket

theorem foldlM_checkedMul {shape : List Nat} {c n : Nat}
    (h : shape.foldlM checkedMul c = some n) : n = c * shape.prod := by
  induction shape generalizing c with
  | nil => simpa using h.symm
  | cons d ds ih =>
    simp only [List.foldlM_cons, checkedMul] at h
    split at h
    · rw [ih h, List.prod_cons, Nat.mul_assoc]
    · cases h

theorem foldlM_checkedMul_lt {shape : List Nat} {c n : Nat} (hc : c < 2 ^ 64)
    (h : shape.foldlM checkedMul c = some n) : n < 2 ^ 64 := by
  induction shape generalizing c with
  | nil =>
    obtain rfl := Option.some.inj h
    exact hc
  | cons d ds ih =>
    simp only [List.foldlM_cons, checkedMul] at h
    split at h
    · rename_i hlt
      exact ih hlt h
    · cases h

/-- A checked element count fits a `usize`. -/
theorem elementCount_lt {shape : List Nat} {n : Nat} (h : elementCount shape = .ok n) :
    n < 2 ^ 64 := by
  unfold elementCount at h
  split at h
  · rename_i m hm
    obtain rfl := Except.ok.inj h
    exact foldlM_checkedMul_lt (by decide) hm
  · cases h

/-- Shrinking dimensions cannot make the checked product overflow. -/
theorem foldlM_checkedMul_mono {shape shape' : List Nat} {c c' : Nat}
    (hs : List.Forall₂ (· ≤ ·) shape shape') (hc : c ≤ c')
    (h : (shape'.foldlM checkedMul c').isSome) : (shape.foldlM checkedMul c).isSome := by
  induction hs generalizing c c' with
  | nil => rfl
  | @cons d d' ds ds' hd _ ih =>
    simp only [List.foldlM_cons, checkedMul] at h ⊢
    have hle : c * d ≤ c' * d' := Nat.mul_le_mul hc hd
    split at h
    · rename_i hlt
      rw [if_pos (lt_of_le_of_lt hle hlt)]
      exact ih hle h
    · cases h

theorem elementCount_isSome {shape : List Nat} {n : Nat} (h : elementCount shape = .ok n) :
    (shape.foldlM checkedMul 1).isSome := by
  unfold elementCount at h
  split at h
  · rename_i hn
    simp [hn]
  · cases h

theorem elementCount_of_isSome {shape : List Nat} (h : (shape.foldlM checkedMul 1).isSome) :
    elementCount shape = .ok shape.prod := by
  obtain ⟨n, hn⟩ := Option.isSome_iff_exists.mp h
  have hp := foldlM_checkedMul hn
  rw [Nat.one_mul] at hp
  simp [elementCount, hn, hp]

namespace Tensor

variable {α : Type}

theorem Sendable.of_le {t u : Tensor α} (h : u.Sendable)
    (hs : List.Forall₂ (· ≤ ·) t.shape u.shape) : t.Sendable := by
  have := foldlM_checkedMul_mono hs le_rfl (elementCount_isSome h)
  rw [Sendable, elementCount_of_isSome this, t.size]

theorem Sendable.of_shape {t u : Tensor α} (h : u.Sendable) (hs : t.shape = u.shape) :
    t.Sendable := h.of_le (by rw [hs]; exact List.forall₂_same.mpr fun _ _ => le_rfl)

/-- One-dimensional tensors are always sendable. -/
theorem sendable_vector {t : Tensor α} {n : Nat} (h : t.shape = [n]) : t.Sendable := by
  have hn : n < 2 ^ 64 := t.usize n (by simp [h])
  have hsome : (t.shape.foldlM checkedMul 1).isSome := by
    simp only [h, List.foldlM_cons, checkedMul, Nat.one_mul, if_pos hn]
    rfl
  rw [Sendable, elementCount_of_isSome hsome, t.size]

end Tensor

end Dlir.Collectives
