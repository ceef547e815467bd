import Dlir.Collectives.Star
import Dlir.Math.Cyclic
import Dlir.Math.Lists

namespace Dlir.Collectives

open Dlir.Framework Dlir.Math

variable {world : Nat} {α ω β : Type}

theorem nth_map_range {f : Nat → β} {i : Nat} (h : i < world) :
    nth ((List.range world).map f) i = .ok (f i) := by
  simp [nth, h]

theorem Tensor.bytes_vector {t : Tensor α} {width : Nat} (h : t.shape = [width]) :
    t.bytes = width * 4 := by
  simp [Tensor.bytes, Tensor.elemCount, t.size, h]

namespace Ring

section State

variable [NeZero world] [Add α] (x : Rank world → Nat → Tensor α) (width : Nat)

/-- The sum of chunk `c` over the ranks `c, …, c + d`. -/
def partialSum (c d : Nat) : Tensor α := ringFold Tensor.plus (fun q => x q c) c d

/-- What chunk `c` of a rank holds after `s` reduce steps. -/
def reduceChunk (s : Nat) (r : Rank world) (c : Nat) : Tensor α :=
  if gap world r c ≤ s then partialSum x c (gap world r c) else x r c

/-- What chunk `c` of a rank holds after `s` gather steps. -/
def gatherChunk (s : Nat) (r : Rank world) (c : Nat) : Tensor α :=
  if gap world r c < s then partialSum x c (world - 1) else partialSum x c (gap world r c)

def reduceState (s : Nat) (r : Rank world) : Endpoint.RingState α :=
  ((List.range world).map (reduceChunk x s r), s * (width * 4), s * (width * 4))

def gatherState (s : Nat) (r : Rank world) : Endpoint.RingState α :=
  ((List.range world).map (gatherChunk x s r), (world - 1 + s) * (width * 4),
    (world - 1 + s) * (width * 4))

end State

section Steps

variable [NeZero world] [Add α] {x : Rank world → Nat → Tensor α} {width : Nat}
  (hx : ∀ r, ∀ c < world, (x r c).shape = [width])

include hx

theorem partialSum_shape {c : Nat} (hc : c < world) (d : Nat) :
    (partialSum x c d).shape = [width] :=
  Tensor.ringFold_shape (fun r => hx r c hc) c d

theorem reduceChunk_shape (s : Nat) (r : Rank world) {c : Nat} (hc : c < world) :
    (reduceChunk x s r c).shape = [width] := by
  unfold reduceChunk
  split_ifs
  · exact partialSum_shape hx hc _
  · exact hx r c hc

theorem gatherChunk_shape (s : Nat) (r : Rank world) {c : Nat} (hc : c < world) :
    (gatherChunk x s r c).shape = [width] := by
  unfold gatherChunk
  split_ifs <;> exact partialSum_shape hx hc _

omit hx in
/-- The chunk on its way at step `s` has been summed over `s + 1` ranks. -/
theorem reduceChunk_sent {s : Nat} (r : Rank world) (hs : s < world) :
    reduceChunk x s r (behind world r s) = partialSum x (behind world r s) s := by
  simp [reduceChunk, gap_behind r.isLt hs]

omit hx in
theorem reduceChunk_own {s : Nat} (r : Rank world) (hs : s + 1 < world) :
    reduceChunk x s r (behind world r (s + 1)) = x r (behind world r (s + 1)) := by
  simp [reduceChunk, gap_behind r.isLt hs]

omit hx in
theorem reduceChunk_succ {s : Nat} (r : Rank world) (hs : s + 1 < world) {c : Nat}
    (hc : c < world) : reduceChunk x (s + 1) r c =
      Function.update (reduceChunk x s r) (behind world r (s + 1))
        ((x r (behind world r (s + 1))).plus (partialSum x (behind world r (s + 1)) s)) c := by
  by_cases hcb : c = behind world r (s + 1)
  · subst hcb
    have hr : Fin.ofNat world (behind world r (s + 1) + (s + 1)) = r :=
      Fin.ext (behind_add_mod r.isLt hs)
    rw [Function.update_self, reduceChunk, gap_behind r.isLt hs, if_pos le_rfl, partialSum,
      ringFold, hr, partialSum]
  · have hgap : gap world r c ≠ s + 1 := fun h => hcb ((eq_behind_iff r.isLt hc hs).mpr h)
    rw [Function.update_of_ne hcb, reduceChunk, reduceChunk]
    by_cases hle : gap world r c ≤ s
    · rw [if_pos hle, if_pos (by omega)]
    · rw [if_neg hle, if_neg (by omega)]

omit hx in
/-- The chunk on its way at gather step `s` is complete. -/
theorem gatherChunk_sent {s : Nat} (r : Rank world) (hs : s < world) :
    gatherChunk x s r ((r.val + 1 + world - s) % world) =
      partialSum x ((r.val + 1 + world - s) % world) (world - 1) := by
  rw [gatherChunk, gap_succ_behind r.isLt hs]
  by_cases h0 : s = 0
  · simp [h0]
  · rw [if_neg h0, if_pos (by omega)]

omit hx in
theorem gatherChunk_succ {s : Nat} (r : Rank world) (hs : s < world) {c : Nat} (hc : c < world) :
    gatherChunk x (s + 1) r c = Function.update (gatherChunk x s r) (behind world r s)
      (partialSum x (behind world r s) (world - 1)) c := by
  by_cases hcb : c = behind world r s
  · subst hcb
    rw [Function.update_self, gatherChunk, gap_behind r.isLt hs, if_pos (Nat.lt_succ_self s)]
  · have hgap : gap world r c ≠ s := fun h => hcb ((eq_behind_iff r.isLt hc hs).mpr h)
    rw [Function.update_of_ne hcb, gatherChunk, gatherChunk]
    by_cases hlt : gap world r c < s
    · rw [if_pos hlt, if_pos (by omega)]
    · rw [if_neg hlt, if_neg (by omega)]

omit hx in
/-- The first phase ends where the second one starts. -/
theorem reduceChunk_last (r : Rank world) {c : Nat} (hc : c < world) :
    reduceChunk x (world - 1) r c = gatherChunk x 0 r c := by
  have hgap := gap_lt r.isLt hc
  rw [reduceChunk, if_pos (by omega), gatherChunk, if_neg (Nat.not_lt_zero _)]

omit hx in
/-- After the second phase every rank holds every chunk summed over all ranks. -/
theorem gatherChunk_last (r : Rank world) {c : Nat} (hc : c < world) :
    gatherChunk x (world - 1) r c = partialSum x c (world - 1) := by
  have hgap := gap_lt r.isLt hc
  rw [gatherChunk]
  split_ifs with h
  · rfl
  · rw [show gap world r c = world - 1 by omega]

variable {g : Group world ω} {sequence : Nat} (hseq : sequence < 2 ^ 44) (hcap : world ≤ 257)

include hseq hcap

theorem reduceStep_together {s : Nat} (hs : s + 1 < world) :
    TogetherOk (fun r => (g.endpoint r).ringReduceStep sequence (reduceState x width s r) s)
      (fun _ => []) (reduceState x width (s + 1)) := by
  have h1 : 1 < world := by omega
  have hlt : ∀ (r : Rank world) k, behind world r k < world := fun r k => behind_lt r.isLt k
  have hshape : ∀ (r : Rank world) k, (reduceChunk x s r (behind world r k)).shape = [width] :=
    fun r k => reduceChunk_shape hx s r (hlt r k)
  -- the left neighbour sends the chunk that is `s` behind it and `s + 1` behind us
  have hin : ∀ r : Rank world, reduceChunk x s (back 1 r) (behind world (back 1 r).val s) =
      partialSum x (behind world r (s + 1)) s := by
    intro r
    rw [reduceChunk_sent _ (by omega)]
    simp only [back]
    rw [show behind world r.val 1 = (r.val + world - 1) % world from rfl,
      behind_pred r.isLt hs]
  have hown : ∀ r : Rank world, (reduceChunk x s r (behind world r (s + 1))).shape =
      (reduceChunk x s (back 1 r) (behind world (back 1 r).val s)).shape :=
    fun r => (hshape r _).trans (hshape _ s).symm
  refine (togetherOk_liftExcept fun _ => collectiveTag_ok hseq (by omega) (by omega)).andThen ?_
  refine (togetherOk_liftExcept fun r => nth_map_range (hlt r s)).andThen ?_
  refine (Group.exchange_together (back_ahead h1) (ahead_back h1)
    (ahead_ne Nat.one_pos h1) fun r => Tensor.sendable_vector (hshape r s)).andThen ?_
  refine (togetherOk_liftExcept fun r => nth_map_range (hlt r (s + 1))).andThen ?_
  refine (togetherOk_liftExcept fun r => requireSameShape_ok (hown r)).andThen ?_
  refine (togetherOk_liftExcept fun r => Tensor.add_eq_plus (hown r)).andThen ?_
  have hstate : reduceState x width (s + 1) = fun r => (((List.range world).map
      (reduceChunk x s r)).set (behind world r (s + 1)) ((reduceChunk x s r (behind world r
        (s + 1))).plus (reduceChunk x s (back 1 r) (behind world (back 1 r).val s))),
      s * (width * 4) + (reduceChunk x s r (behind world r s)).bytes,
      s * (width * 4) + (reduceChunk x s (back 1 r) (behind world (back 1 r).val s)).bytes) := by
    funext r
    rw [Tensor.bytes_vector (hshape r s), Tensor.bytes_vector (hshape (back 1 r) s), hin,
      reduceChunk_own r hs, set_map_range, reduceState, Nat.succ_mul]
    congr 1
    refine List.map_congr_left fun c hc => ?_
    exact reduceChunk_succ r hs (List.mem_range.mp hc)
  rw [hstate]
  exact TogetherOk.pure _

theorem gatherStep_together {s : Nat} (hs : s + 1 < world) :
    TogetherOk (fun r => (g.endpoint r).ringGatherStep sequence (gatherState x width s r) s)
      (fun _ => []) (gatherState x width (s + 1)) := by
  have h1 : 1 < world := by omega
  have hpos : 0 < world := by omega
  have hout : ∀ r : Rank world, (r.val + 1 + world - s) % world < world :=
    fun r => Nat.mod_lt _ hpos
  have hlt : ∀ r : Rank world, behind world r s < world := fun r => behind_lt r.isLt s
  have hshape : ∀ (r : Rank world) c, c < world → (gatherChunk x s r c).shape = [width] :=
    fun r c hc => gatherChunk_shape hx s r hc
  have hin : ∀ r : Rank world,
      gatherChunk x s (back 1 r) (((back 1 r).val + 1 + world - s) % world) =
        partialSum x (behind world r s) (world - 1) := by
    intro r
    rw [gatherChunk_sent _ (by omega)]
    simp only [back]
    rw [show behind world r.val 1 = (r.val + world - 1) % world from rfl,
      succ_behind_pred r.isLt (by omega)]
  have hown : ∀ r : Rank world, (gatherChunk x s r (behind world r s)).shape =
      (gatherChunk x s (back 1 r) (((back 1 r).val + 1 + world - s) % world)).shape :=
    fun r => (hshape r _ (hlt r)).trans (hshape _ _ (hout _)).symm
  refine (togetherOk_liftExcept fun _ => collectiveTag_ok hseq (by omega) (by omega)).andThen ?_
  refine (togetherOk_liftExcept fun r => nth_map_range (hout r)).andThen ?_
  refine (Group.exchange_together (back_ahead h1) (ahead_back h1)
    (ahead_ne Nat.one_pos h1) fun r => Tensor.sendable_vector (hshape r _ (hout r))).andThen ?_
  refine (togetherOk_liftExcept fun r => nth_map_range (hlt r)).andThen ?_
  refine (togetherOk_liftExcept fun r => requireSameShape_ok (hown r)).andThen ?_
  have hstate : gatherState x width (s + 1) = fun r => (((List.range world).map
      (gatherChunk x s r)).set (behind world r s)
        (gatherChunk x s (back 1 r) (((back 1 r).val + 1 + world - s) % world)),
      (world - 1 + s) * (width * 4) +
        (gatherChunk x s r ((r.val + 1 + world - s) % world)).bytes,
      (world - 1 + s) * (width * 4) + (gatherChunk x s (back 1 r)
        (((back 1 r).val + 1 + world - s) % world)).bytes) := by
    funext r
    rw [Tensor.bytes_vector (hshape r _ (hout r)),
      Tensor.bytes_vector (hshape (back 1 r) _ (hout _)), hin, set_map_range, gatherState,
      ← Nat.add_assoc, Nat.succ_mul]
    congr 1
    refine List.map_congr_left fun c hc => ?_
    exact gatherChunk_succ r (by omega) (List.mem_range.mp hc)
  rw [hstate]
  exact TogetherOk.pure _

theorem reduceLoop_together : TogetherOk (fun r => (List.range (world - 1)).foldlM
      ((g.endpoint r).ringReduceStep sequence) (reduceState x width 0 r)) (fun _ => [])
    (reduceState x width (world - 1)) := by
  rw [List.range_eq_range']
  refine TogetherOk.foldlM_range' 0 (world - 1) fun s hs => ?_
  rw [Nat.zero_add]
  exact reduceStep_together hx hseq hcap (by omega)

theorem gatherLoop_together : TogetherOk (fun r => (List.range (world - 1)).foldlM
      ((g.endpoint r).ringGatherStep sequence) (gatherState x width 0 r)) (fun _ => [])
    (gatherState x width (world - 1)) := by
  rw [List.range_eq_range']
  refine TogetherOk.foldlM_range' 0 (world - 1) fun s hs => ?_
  rw [Nat.zero_add]
  exact gatherStep_together hx hseq hcap (by omega)

end Steps

section Phases

variable [NeZero world] [Add α] (x : Rank world → Nat → Tensor α) (width : Nat)

theorem reduceState_zero (r : Rank world) :
    reduceState x width 0 r = ((List.range world).map (x r), 0, 0) := by
  rw [reduceState, Nat.zero_mul]
  congr 1
  refine List.map_congr_left fun c hc => ?_
  rw [reduceChunk]
  split_ifs with h
  · have hzero : gap world r c = 0 := Nat.le_zero.mp h
    have hcr : c = r.val := by
      have hb := behind_gap r.isLt (List.mem_range.mp hc)
      rw [hzero, behind, Nat.sub_zero, Nat.add_mod_right, Nat.mod_eq_of_lt r.isLt] at hb
      exact hb.symm
    have hrank : Fin.ofNat world c = r := by
      ext
      simp [hcr]
    rw [hzero, partialSum, ringFold, hrank]
  · rfl

theorem gatherState_zero : gatherState x width 0 = reduceState x width (world - 1) := by
  funext r
  rw [gatherState, reduceState, Nat.add_zero]
  congr 1
  exact List.map_congr_left fun c hc => (reduceChunk_last r (List.mem_range.mp hc)).symm

theorem gatherState_last (r : Rank world) : gatherState x width (world - 1) r =
    ((List.range world).map fun c => partialSum x c (world - 1),
      (world - 1 + (world - 1)) * (width * 4), (world - 1 + (world - 1)) * (width * 4)) := by
  rw [gatherState]
  congr 1
  exact List.map_congr_left fun c hc => gatherChunk_last r (List.mem_range.mp hc)

end Phases

end Ring

end Dlir.Collectives
