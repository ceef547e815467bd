import Dlir.Runtime.Model.Failures

namespace Dlir.Runtime.Model

open Dlir.Collectives Dlir.Framework

def Tensor.isZero (t : Tensor Nat) : Bool := t.data.all (· == 0)

/-- The operations where of the elements only is kept which ones are surely zero: these are `0`. -/
def zeroOrNot (op : Op) (args : List (Tensor Nat)) (shape : List Nat) :
    Except CandleError (Tensor Nat) :=
  match op, args with
  | .narrow dim start len, [x] => x.narrow dim start len
  | .reshape _, [x] | .contiguous, [x] | .toF32, [x] | .toDtype, [x] | .toDtypeOf, [x, _] =>
    Tensor.fromVec x.data shape
  | .softmaxLastDim, _ | .cos, _ | .whereCond _, _ => fill 1 shape
  | .add, [x, y] => fill (if Tensor.isZero x && Tensor.isZero y then 0 else 1) shape
  | .rope, x :: _ => fill (if Tensor.isZero x then 0 else 1) shape
  | _, _ => fill (if args.any Tensor.isZero then 0 else 1) shape

def zeroTracking : Library Nat where
  toCandle := LayerKvCache.reference
  run op args := match op.shape (args.map Tensor.shape) with
    | none => .error (.tensor (.shapeMismatch [] []))
    | some shape => (zeroOrNot op args shape).mapError fun _ => .overflow
  embed table tokens := (fill (if Tensor.isZero table.embeddings then 0 else 1)
    (tokens.ids.shape ++ [table.hiddenSize])).mapError fun _ => .overflow
  ofNat n := n
  inverseFrequency _ _ := 1
  sameDtype := true
  contiguous _ := true

theorem zeroOrNot_shape {op : Op} {args : List (Tensor Nat)} {shape : List Nat} {t : Tensor Nat}
    (hshape : op.shape (args.map Tensor.shape) = some shape)
    (h : zeroOrNot op args shape = .ok t) : t.shape = shape := by
  unfold zeroOrNot at h
  split at h
  · simp only [Op.shape, List.map_cons, List.map_nil] at hshape
    split_ifs at hshape with hrange
    obtain rfl := Option.some.inj hshape
    rename_i dim start len x
    have hdim : x.shape[dim]? = some (x.shape.getD dim 0) := by simp [List.getD, hrange.1]
    rw [Tensor.narrow_eq_slice hdim hrange.2] at h
    obtain rfl := Except.ok.inj h
    exact Tensor.slice_shape hdim hrange.2
  all_goals exact (Tensor.fromVec_parts h).1

theorem zeroTracking_documented : zeroTracking.Documented where
  toDocumented := LayerKvCache.reference_documented
  sliceSet_room _ dst src dim offset hdim hsource hroom :=
    Tensor.overwrite_room hdim hsource hroom
  sliceSet_refused h := by cases h
  run_yields := by
    intro op args shape hshape
    cases hresult : zeroOrNot op args shape with
    | error e =>
      refine .inl ?_
      simp only [zeroTracking, hshape, hresult]
      rfl
    | ok t =>
      refine .inr ⟨t, ?_, zeroOrNot_shape hshape hresult⟩
      simp only [zeroTracking, hshape, hresult]
      rfl
  run_refuses := by
    intro op args hshape _
    refine ⟨.tensor (.shapeMismatch [] []), ?_, .inr ⟨_, rfl⟩⟩
    simp only [zeroTracking, hshape]
  embed_shape h := by
    simp only [zeroTracking, mapError_eq_ok] at h
    exact (Tensor.fromVec_parts h).1

/-- Weights that are all zero. -/
def zeroBuilder : VarBuilder (Tensor Nat) := ⟨fun request => (fill 0 request.shape).mapError .tensor, []⟩

theorem zeroBuilder_shaped : VarBuilder.Shaped zeroBuilder := by
  intro request t h
  simp only [zeroBuilder, mapError_eq_ok] at h
  exact (Tensor.fromVec_parts h).1

end Dlir.Runtime.Model
