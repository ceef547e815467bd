import Dlir.Framework.Always
import Dlir.Runtime.Model.CacheAppend
import Dlir.Runtime.Weights

namespace Dlir.Runtime.Model

open Dlir.Collectives Dlir.Framework

variable {α β γ : Type}

def dims2 (t : Tensor α) : Except DlirError (Nat × Nat) :=
  match t.shape with
  | [a, b] => .ok (a, b)
  | shape => .error (.tensor (.unexpectedNumberOfDims 2 shape))

def dims3 (t : Tensor α) : Except DlirError (Nat × Nat × Nat) :=
  match t.shape with
  | [a, b, c] => .ok (a, b, c)
  | shape => .error (.tensor (.unexpectedNumberOfDims 3 shape))

theorem dims2_ok {t : Tensor α} {a b : Nat} : dims2 t = .ok (a, b) ↔ t.shape = [a, b] := by
  unfold dims2
  split
  · rename_i hshape
    simp [hshape]
  · rename_i hshape
    simp only [reduceCtorEq, false_iff]
    exact hshape a b

theorem dims3_ok {t : Tensor α} {a b c : Nat} : dims3 t = .ok (a, b, c) ↔ t.shape = [a, b, c] := by
  unfold dims3
  split
  · rename_i hshape
    simp [hshape]
  · rename_i hshape
    simp only [reduceCtorEq, false_iff]
    exact hshape a b c

/-- Whether a shape can be repeated to another one, aligned at the last dimension. -/
def broadcasts (src dst : List Nat) : Bool :=
  decide (src.length ≤ dst.length) &&
    (src.reverse.zip dst.reverse).all fun (a, b) => a == b || a == 1

/-- The shape of a binary operation that repeats its operands where needed. -/
def broadcastShape (a b : List Nat) : Option (List Nat) :=
  let padded (shape : List Nat) := List.replicate (max a.length b.length - shape.length) 1 ++ shape
  ((padded a).zip (padded b)).mapM fun (x, y) =>
    if x = y then some x else if x = 1 then some y else if y = 1 then some x else none

/-- One factor for each row. -/
theorem broadcastShape_rows (b s h : Nat) : broadcastShape [b, s, h] [b, s, 1] = some [b, s, h] := by
  have hlast : (if h = 1 then some h else if h = 1 then some 1 else some h) = some h := by
    split_ifs <;> rfl
  simp [broadcastShape, hlast]

/-- The operations of a forward pass on tensors of the element type of the model, with those of
their arguments that are not such tensors. -/
inductive Op
  | linear
  | rmsNorm
  | reshape (shape : List Nat)
  | transpose (a b : Nat)
  | contiguous
  | narrow (dim start len : Nat)
  | rope
  | unsqueeze (dim : Nat)
  | expand (shape : List Nat)
  | toF32
  /-- Conversion to the element type of the weights. -/
  | toDtype
  /-- Conversion to the element type of the second argument. -/
  | toDtypeOf
  | matmul
  /-- Division by the square root of a number. -/
  | divSqrt (n : Nat)
  /-- Replacement by negative infinity where the mask is set. -/
  | whereCond (mask : Tensor Bool)
  /-- Multiplication by the mask as zeros and ones. -/
  | broadcastMul (mask : Tensor Bool)
  | softmaxLastDim
  | silu
  | cos
  | sin
  | mul
  | add
  /-- The view `t.i((.., n, ..))`. -/
  | index (n : Nat)

namespace Op

/-- The rows and columns of a rotary table for a batch. -/
def ropeTable (batch : Nat) : List Nat → Option (Nat × Nat)
  | [t, d] => some (t, d)
  | [b, t, d] => if b = batch then some (t, d) else none
  | _ => none

/-- The shape of the result, where the shapes of the arguments allow the operation. -/
def shape : Op → List (List Nat) → Option (List Nat)
  | linear, [[o, i], x] => if 2 ≤ x.length ∧ x.length ≤ 4 ∧ x.getLast? = some i then
      some (x.dropLast ++ [o]) else none
  | rmsNorm, [[h], x] => if x.getLast? = some h then some x else none
  | reshape s, [x] => if s.prod = x.prod then some s else none
  | transpose a b, [x] => if a < x.length ∧ b < x.length then
      some ((x.set a (x.getD b 0)).set b (x.getD a 0)) else none
  | contiguous, [x] => some x
  | narrow dim start len, [x] => if dim < x.length ∧ start + len ≤ x.getD dim 0 then
      some (x.set dim len) else none
  | rope, [[b, h, s, d], c, c'] => do
      let (t, e) ← ropeTable b c
      let (t', e') ← ropeTable b c'
      if e * 2 = d ∧ e' * 2 = d ∧ s ≤ t ∧ s ≤ t' then some [b, h, s, d] else none
  | unsqueeze dim, [x] => if dim ≤ x.length then some (x.insertIdx dim 1) else none
  | expand s, [x] => if broadcasts x s then some s else none
  | toF32, [x] => some x
  | toDtype, [x] => some x
  | toDtypeOf, [x, _] => some x
  | matmul, [x, y] => match x.reverse, y.reverse with
    | k :: m :: batch, n :: k' :: batch' =>
      if k = k' ∧ batch = batch' then some (batch.reverse ++ [m, n]) else none
    | _, _ => none
  | divSqrt _, [x] => some x
  | whereCond mask, [x] => if broadcasts mask.shape x then some x else none
  | broadcastMul mask, [x] => broadcastShape x mask.shape
  | softmaxLastDim, [x] => some x
  | silu, [x] => some x
  | cos, [x] => some x
  | sin, [x] => some x
  | mul, [x, y] => if x = y then some x else none
  | add, [x, y] => if x = y then some x else none
  | index n, [a :: b :: c :: rest] => if n < b then some (a :: c :: rest) else none
  | _, _ => none

end Op

/-- A tensor of token IDs. Of its element type only matters whether it is `u32`. -/
structure TokenTensor where
  ids : Tensor Nat
  isU32 : Bool

/-- What the models use of the tensor library. -/
structure Library (α : Type) extends Candle α where
  run : Op → List (Tensor α) → Except DlirError (Tensor α)
  embed : Embedding (Tensor α) → TokenTensor → Except DlirError (Tensor α)
  /-- A number as an element. -/
  ofNat : Nat → α
  /-- The angle of one pair of a head of this width at the first position. -/
  inverseFrequency : Nat → Nat → α
  /-- Whether the caches are made for the element type and the device of the weights. -/
  sameDtype : Bool
  /-- Whether a tensor lies in order in memory. A caller may hand in a view; of its own tensors a pass
  makes a copy where an operation needs one. -/
  contiguous : Tensor α → Bool

/-- Whether an operation refuses arguments whose shapes it does not allow. A normalization takes
another way for a view, and repeats it where needed. -/
def Library.checks (lib : Library α) : Op → List (Tensor α) → Bool
  | .linear, [weight, _] => weight.shape.length == 2
  | .rmsNorm, [_, x] => lib.contiguous x
  | .reshape _, _ => true
  | .narrow .., _ => true
  | .add, _ => true
  | _, _ => false

/-- Unless the process is stopped, there is a result with the property. -/
def Yields (x : Except DlirError β) (P : β → Prop) : Prop :=
  x = .error .overflow ∨ ∃ b, x = .ok b ∧ P b

namespace Yields

variable {x : Except DlirError β} {P : β → Prop}

theorem ok {b : β} (h : P b) : Yields (.ok b) P := .inr ⟨b, rfl, h⟩

theorem bind {f : β → Except DlirError γ} {R : γ → Prop} (h : Yields x P)
    (hf : ∀ b, P b → Yields (f b) R) : Yields (x >>= f) R := by
  rcases h with rfl | ⟨b, rfl, hP⟩
  · exact .inl rfl
  · exact hf b hP

end Yields

/-- Unless the process is stopped, the library refuses. -/
def Refuses (x : Except DlirError β) : Prop := ∃ e, x = .error e ∧ (e = .overflow ∨ ∃ e', e = .tensor e')

theorem Refuses.bind {x : Except DlirError β} (h : Refuses x) (f : β → Except DlirError γ) :
    Refuses (x >>= f) := by
  obtain ⟨e, rfl, he⟩ := h
  exact ⟨e, rfl, he⟩

theorem Yields.refuses {x : Except DlirError β} {P : β → Prop} {f : β → Except DlirError γ}
    (h : Yields x P) (hf : ∀ b, P b → Refuses (f b)) : Refuses (x >>= f) := by
  rcases h with rfl | ⟨b, rfl, hP⟩
  · exact ⟨.overflow, rfl, .inl rfl⟩
  · exact hf b hP

/-- How the library is documented: the shapes decide whether an operation succeeds, and give the
shape of its result. A call that cannot get its memory stops the process. -/
structure Library.Documented (lib : Library α) : Prop extends lib.toCandle.Documented where
  sliceSet_room : lib.sameDtype = true → ∀ (dst src : Tensor α) (dim offset : Nat),
    dim < dst.shape.length → src.shape = dst.shape.set dim (src.shape.getD dim 0) →
    offset + src.shape.getD dim 0 ≤ dst.shape.getD dim 0 →
    ∃ dst', lib.sliceSet dst src dim offset = .ok dst'
  sliceSet_refused : lib.sameDtype = false → ∀ (dst src : Tensor α) (dim offset : Nat),
    ∃ e, lib.sliceSet dst src dim offset = .error e
  run_yields : ∀ {op args s}, op.shape (args.map Tensor.shape) = some s →
    Yields (lib.run op args) fun t => t.shape = s
  run_refuses : ∀ {op args}, op.shape (args.map Tensor.shape) = none → lib.checks op args = true →
    Refuses (lib.run op args)
  embed_shape : ∀ {table : Embedding (Tensor α)} {tokens : TokenTensor} {t : Tensor α},
    lib.embed table tokens = .ok t → t.shape = tokens.ids.shape ++ [table.hiddenSize]

namespace Library.Documented

variable {lib : Library α} (hlib : lib.Documented) {op : Op} {args : List (Tensor α)} {t : Tensor α}

include hlib

theorem shape_of_some {s : List Nat} (hs : op.shape (args.map Tensor.shape) = some s)
    (h : lib.run op args = .ok t) : t.shape = s := by
  obtain hstop | ⟨t', ht', hshape⟩ := hlib.run_yields hs
  · rw [h] at hstop
    cases hstop
  · rw [h] at ht'
    rw [Except.ok.inj ht']
    exact hshape

/-- The shape of a result of an operation that refuses other shapes. -/
theorem shape_of_ok (hchecks : lib.checks op args = true) (h : lib.run op args = .ok t) :
    op.shape (args.map Tensor.shape) = some t.shape := by
  cases hshape : op.shape (args.map Tensor.shape) with
  | none =>
    obtain ⟨e, he, -⟩ := hlib.run_refuses hshape hchecks
    rw [h] at he
    cases he
  | some s => rw [hlib.shape_of_some hshape h]

end Library.Documented

end Dlir.Runtime.Model
