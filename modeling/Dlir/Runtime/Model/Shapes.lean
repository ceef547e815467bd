import Dlir.Runtime.Model.TensorParallel

namespace Dlir.Runtime.Model

open Dlir.Collectives Dlir.Framework

variable {α : Type} {lib : Library α} (hlib : lib.Documented)

include hlib

theorem linear_yields {layer : Linear (Tensor α)} {x : Tensor α} {o i b s : Nat}
    (hw : layer.weight.shape = [o, i]) (hx : x.shape = [b, s, i]) :
    Yields (Linear.forward lib layer x) fun t => t.shape = [b, s, o] :=
  hlib.run_yields (by simp [Op.shape, hw, hx])

theorem rmsNorm_yields {norm : RmsNorm (Tensor α)} {x : Tensor α} {h b s : Nat}
    (hw : norm.weight.shape = [h]) (hx : x.shape = [b, s, h]) :
    Yields (RmsNorm.forward lib norm x) fun t => t.shape = [b, s, h] :=
  hlib.run_yields (by simp [Op.shape, hw, hx])

theorem rmsNorm_refuses {norm : RmsNorm (Tensor α)} {x : Tensor α} {h b s h' : Nat}
    (hw : norm.weight.shape = [h]) (hx : x.shape = [b, s, h']) (hne : h' ≠ h)
    (horder : lib.contiguous x = true) : Refuses (RmsNorm.forward lib norm x) :=
  hlib.run_refuses (by simp [Op.shape, hw, hx, hne]) horder

theorem add_yields {x y : Tensor α} {shape : List Nat} (hx : x.shape = shape) (hy : y.shape = shape) :
    Yields (lib.run .add [x, y]) fun t => t.shape = shape :=
  hlib.run_yields (by simp [Op.shape, hx, hy])

/-- The rotary tables have one row for each position. -/
structure RotaryEmbedding.Fits (rope : RotaryEmbedding α) (rows headDim : Nat) : Prop where
  cos : ∃ e, rope.cos.shape = [rows, e] ∧ e * 2 = headDim
  sin : ∃ e, rope.sin.shape = [rows, e] ∧ e * 2 = headDim

section Rope

variable {rope : RotaryEmbedding α} {rows d : Nat} (hrope : rope.Fits rows d) {x : Tensor α}
  {b h s position : Nat} (hx : x.shape = [b, h, s, d])

include hrope hx

theorem rope_yields (hrange : position + s ≤ rows) :
    Yields (rope.apply lib x position) fun t => t.shape = [b, h, s, d] := by
  obtain ⟨e, hcos, he⟩ := hrope.cos
  obtain ⟨e', hsin, he'⟩ := hrope.sin
  have hdim : x.dim 2 = .ok s := by simp [Tensor.dim, hx]
  unfold RotaryEmbedding.apply
  rw [hdim]
  refine (hlib.run_yields (s := [s, e]) (by simp [Op.shape, hcos, hrange])).bind fun c hc => ?_
  refine (hlib.run_yields (s := [s, e']) (by simp [Op.shape, hsin, hrange])).bind fun c' hc' => ?_
  exact hlib.run_yields (by simp [Op.shape, Op.ropeTable, hx, hc, hc', he, he'])

/-- Positions outside the tables are refused. -/
theorem rope_refuses (hrange : ¬ position + s ≤ rows) : Refuses (rope.apply lib x position) := by
  obtain ⟨e, hcos, -⟩ := hrope.cos
  have hdim : x.dim 2 = .ok s := by simp [Tensor.dim, hx]
  unfold RotaryEmbedding.apply
  rw [hdim]
  exact (hlib.run_refuses (by simp [Op.shape, hcos, hrange]) rfl).bind _

end Rope

theorem repeatKv_yields {x : Tensor α} {b k s d : Nat} (hx : x.shape = [b, k, s, d]) (r : Nat) :
    Yields (repeatKv lib x r) fun t => t.shape = [b, k * r, s, d] := by
  unfold repeatKv
  split_ifs with hr
  · refine .ok ?_
    rw [hx, hr, Nat.mul_one]
  · have hdims : dims4 x = .ok (b, k, s, d) := by unfold dims4; rw [hx]
    rw [hdims]
    refine (hlib.run_yields (s := [b, k, 1, s, d]) (by simp [Op.shape, hx])).bind fun t ht => ?_
    refine (hlib.run_yields (s := [b, k, r, s, d]) ?_).bind fun t' ht' => ?_
    · simp [Op.shape, broadcasts, ht]
    · refine hlib.run_yields ?_
      have hprod : b * (k * r * (s * d)) = b * (k * (r * (s * d))) := by ring
      simp [Op.shape, ht', hprod]

theorem mask_yields {x : Tensor α} {b h s position : Nat}
    (hx : x.shape = [b, h, s, position + s]) :
    Yields (applyCausalMask lib x position s) fun t => t.shape = [b, h, s, position + s] := by
  unfold applyCausalMask
  have hmask : Yields ((Tensor.fromVec (causalMask position s) [s, position + s]).mapError
      fun _ => .overflow) fun mask => mask.shape = [s, position + s] := by
    cases hvec : Tensor.fromVec (causalMask position s) [s, position + s] with
    | error e => exact .inl rfl
    | ok mask => exact .ok (Tensor.fromVec_parts hvec).1
  refine hmask.bind fun mask hshape => ?_
  exact hlib.run_yields (by simp [Op.shape, broadcasts, hshape, hx])

/-- The weights have the shapes for a hidden state of this width. -/
structure Projections.Fits (heads : Projections α) (hidden : Nat) : Prop where
  q : heads.qProj.weight.shape = [heads.queryHeads * heads.headDim, hidden]
  k : heads.kProj.weight.shape = [heads.kvHeads * heads.headDim, hidden]
  v : heads.vProj.weight.shape = [heads.kvHeads * heads.headDim, hidden]
  dvd : heads.kvHeads ∣ heads.queryHeads

theorem heads_yields {proj : Linear (Tensor α)} {x : Tensor α} {b s h count d : Nat}
    (hw : proj.weight.shape = [count * d, h]) (hx : x.shape = [b, s, h]) :
    Yields (Projections.heads lib proj x b s count d) fun t => t.shape = [b, count, s, d] := by
  refine (linear_yields hlib hw hx).bind fun t ht => ?_
  refine (hlib.run_yields (s := [b, s, count, d]) (by simp [Op.shape, ht])).bind fun t ht => ?_
  refine (hlib.run_yields (s := [b, count, s, d]) (by simp [Op.shape, ht])).bind fun t ht => ?_
  exact hlib.run_yields (by simp [Op.shape, ht])

section Attention

variable {heads : Projections α} {hidden rows b s position : Nat} (hheads : heads.Fits hidden)
  {rope : RotaryEmbedding α} (hrope : rope.Fits rows heads.headDim) {x : Tensor α}
  (hx : x.shape = [b, s, hidden])

include hheads

section Project

include hrope hx

theorem project_yields (hrange : position + s ≤ rows) :
    Yields (heads.project lib rope x b s position) fun (q, k, v) =>
      q.shape = [b, heads.queryHeads, s, heads.headDim] ∧
      k.shape = [b, heads.kvHeads, s, heads.headDim] ∧
      v.shape = [b, heads.kvHeads, s, heads.headDim] := by
  refine (heads_yields hlib hheads.q hx).bind fun q hq => ?_
  refine (heads_yields hlib hheads.k hx).bind fun k hk => ?_
  refine (heads_yields hlib hheads.v hx).bind fun v hv => ?_
  refine (rope_yields hlib hrope hq hrange).bind fun q' hq' => ?_
  refine (rope_yields hlib hrope hk hrange).bind fun k' hk' => ?_
  exact .ok ⟨hq', hk', hv⟩

theorem project_refuses (hrange : ¬ position + s ≤ rows) :
    Refuses (heads.project lib rope x b s position) := by
  refine (heads_yields hlib hheads.q hx).refuses fun q hq => ?_
  refine (heads_yields hlib hheads.k hx).refuses fun k hk => ?_
  refine (heads_yields hlib hheads.v hx).refuses fun v hv => ?_
  exact (rope_refuses hlib hrope hq hrange).bind _

end Project

theorem attend_yields (input : Tensor α) {q k v : Tensor α}
    (hq : q.shape = [b, heads.queryHeads, s, heads.headDim])
    (hk : k.shape = [b, heads.kvHeads, position + s, heads.headDim])
    (hv : v.shape = [b, heads.kvHeads, position + s, heads.headDim]) :
    Yields (heads.attend lib input q k v b s position (heads.queryHeads * heads.headDim)) fun t =>
      t.shape = [b, s, heads.queryHeads * heads.headDim] := by
  have hcount : heads.kvHeads * (heads.queryHeads / heads.kvHeads) = heads.queryHeads :=
    Nat.mul_div_cancel' hheads.dvd
  have hk := repeatKv_yields hlib hk (heads.queryHeads / heads.kvHeads)
  have hv := repeatKv_yields hlib hv (heads.queryHeads / heads.kvHeads)
  rw [hcount] at hk hv
  refine hk.bind fun k hk => ?_
  refine hv.bind fun v hv => ?_
  refine (hlib.run_yields (s := q.shape) (by simp [Op.shape])).bind fun q' hq' => ?_
  refine (hlib.run_yields (s := k.shape) (by simp [Op.shape])).bind fun k' hk' => ?_
  refine (hlib.run_yields (s := v.shape) (by simp [Op.shape])).bind fun v' hv' => ?_
  rw [hq] at hq'
  rw [hk] at hk'
  rw [hv] at hv'
  refine (hlib.run_yields (s := [b, heads.queryHeads, heads.headDim, position + s])
    (by simp [Op.shape, hk'])).bind fun kt hkt => ?_
  refine (hlib.run_yields (s := [b, heads.queryHeads, s, position + s])
    (by simp [Op.shape, hq', hkt])).bind fun t ht => ?_
  refine (hlib.run_yields (s := t.shape) (by simp [Op.shape])).bind fun scores hscores => ?_
  rw [ht] at hscores
  have hmasked : Yields (visibleScores lib scores position s)
      fun t => t.shape = [b, heads.queryHeads, s, position + s] := by
    unfold visibleScores
    split_ifs
    · exact mask_yields hlib hscores
    · exact .ok hscores
  refine hmasked.bind fun scores hscores => ?_
  refine (hlib.run_yields (s := scores.shape) (by simp [Op.shape])).bind fun p hp => ?_
  rw [hscores] at hp
  refine (hlib.run_yields (s := v'.shape) (by simp [Op.shape])).bind fun vc hvc => ?_
  rw [hv'] at hvc
  refine (hlib.run_yields (s := [b, heads.queryHeads, s, heads.headDim])
    (by simp [Op.shape, hp, hvc])).bind fun t ht => ?_
  refine (hlib.run_yields (s := t.shape) (by simp [Op.shape])).bind fun t' ht' => ?_
  rw [ht] at ht'
  refine (hlib.run_yields (s := [b, s, heads.queryHeads, heads.headDim])
    (by simp [Op.shape, ht'])).bind fun t ht => ?_
  exact hlib.run_yields (by simp [Op.shape, ht])

end Attention

theorem gatedProduct_yields {gate up : Linear (Tensor α)} {x : Tensor α} {i h b s : Nat}
    (hgate : gate.weight.shape = [i, h]) (hup : up.weight.shape = [i, h])
    (hx : x.shape = [b, s, h]) :
    Yields (gatedProduct lib gate up x) fun t => t.shape = [b, s, i] := by
  refine (linear_yields hlib hgate hx).bind fun g hg => ?_
  refine (hlib.run_yields (s := g.shape) (by simp [Op.shape])).bind fun g' hg' => ?_
  refine (linear_yields hlib hup hx).bind fun u hu => ?_
  rw [hg] at hg'
  exact hlib.run_yields (by simp [Op.shape, hg', hu])

theorem lastPosition_yields {norm : RmsNorm (Tensor α)} {x : Tensor α} {h s : Nat}
    (hw : norm.weight.shape = [h]) (hx : x.shape = [1, s, h]) (hs : 0 < s) :
    Yields (lastPosition lib norm x s) fun t => t.shape = [1, h] := by
  refine (rmsNorm_yields hlib hw hx).bind fun t ht => ?_
  refine (hlib.run_yields (s := [1, h]) (by simp [Op.shape, ht, hs])).bind fun t ht => ?_
  exact hlib.run_yields (by simp [Op.shape, ht])

theorem lastLinear_yields {layer : Linear (Tensor α)} {x : Tensor α} {o i : Nat}
    (hw : layer.weight.shape = [o, i]) (hx : x.shape = [1, i]) :
    Yields (Linear.forward lib layer x) fun t => t.shape = [1, o] :=
  hlib.run_yields (by simp [Op.shape, hw, hx])

theorem lastLogits_yields {norm : RmsNorm (Tensor α)} {head : Linear (Tensor α)} {x : Tensor α}
    {h v s : Nat} (hw : norm.weight.shape = [h]) (hhead : head.weight.shape = [v, h])
    (hx : x.shape = [1, s, h]) (hs : 0 < s) :
    Yields (lastLogits lib norm head x s) fun t => t.shape = [1, v] := by
  refine (lastPosition_yields hlib hw hx hs).bind fun t ht => ?_
  refine (lastLinear_yields hlib hhead ht).bind fun t ht => ?_
  exact hlib.run_yields (by simp [Op.shape, ht])

end Dlir.Runtime.Model
