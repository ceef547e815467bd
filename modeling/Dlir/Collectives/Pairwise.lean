import Dlir.Collectives.Calls

namespace Dlir.Collectives

open Dlir.Framework Dlir.Math

variable {world : Nat} {α ω : Type}

namespace Group

/-- What an all-to-all gives rank `r`: its shard of every rank's tensor, in source order. -/
def transposed (x : Rank world → Tensor α) (axis : Nat) (r : Rank world) : Tensor α :=
  (Tensor.cat ((List.finRange world).map fun q => shard (x q) axis r) axis).toOption.getD (x r)

section State

variable [NeZero world] (x : Rank world → Tensor α) (axis : Nat)

/-- What a rank has received from source `q` after `n` rounds. -/
def received (n : Nat) (r : Rank world) (q : Nat) : Option (Tensor α) :=
  if gap world r q ≤ n then some (shard (x (Fin.ofNat world q)) axis r) else none

def pairwiseState (bytes n : Nat) (r : Rank world) : Endpoint.PairwiseState α :=
  ((List.range world).map (received x axis n r), n * bytes, n * bytes)

theorem received_succ {n : Nat} (r : Rank world) (hn : n + 1 < world) {q : Nat} (hq : q < world) :
    received x axis (n + 1) r q = Function.update (received x axis n r) (behind world r (n + 1))
      (some (shard (x (back (n + 1) r)) axis r)) q := by
  by_cases hqb : q = behind world r (n + 1)
  · subst hqb
    have hrank : Fin.ofNat world (behind world r (n + 1)) = back (n + 1) r :=
      Fin.ext (Nat.mod_eq_of_lt hq)
    rw [Function.update_self, received, gap_behind r.isLt hn, if_pos le_rfl, hrank]
  · have hgap : gap world r q ≠ n + 1 := fun h => hqb ((eq_behind_iff r.isLt hq hn).mpr h)
    rw [Function.update_of_ne hqb, received, received]
    by_cases hle : gap world r q ≤ n
    · rw [if_pos hle, if_pos (by omega)]
    · rw [if_neg hle, if_neg (by omega)]

theorem received_zero (r : Rank world) : (List.range world).map (received x axis 0 r) =
    (List.replicate world none).set r.val (some (shard (x r) axis r)) := by
  have hreplicate : List.replicate world (none : Option (Tensor α)) =
      (List.range world).map fun _ => none := by simp
  rw [hreplicate, set_map_range]
  refine List.map_congr_left fun q hq => ?_
  have hbehind : behind world r 0 = r.val := by
    rw [behind, Nat.sub_zero, Nat.add_mod_right, Nat.mod_eq_of_lt r.isLt]
  have hiff := eq_behind_iff r.isLt (List.mem_range.mp hq) (Nat.pos_of_neZero world)
  rw [hbehind] at hiff
  by_cases hqr : q = r.val
  · have hrank : Fin.ofNat world r.val = r := Fin.ext (Nat.mod_eq_of_lt r.isLt)
    rw [received, if_pos (hiff.mp hqr).le, hqr, Function.update_self, hrank]
  · have hgap : ¬ gap world r q ≤ 0 := fun h => hqr (hiff.mpr (Nat.le_zero.mp h))
    rw [received, if_neg hgap, Function.update_of_ne hqr]

theorem received_last (r : Rank world) : (List.range world).map (received x axis (world - 1) r) =
    (List.finRange world).map fun q => some (shard (x q) axis r) := by
  rw [← map_val_finRange, List.map_map]
  refine List.map_congr_left fun q _ => ?_
  have hgap := gap_lt r.isLt q.isLt
  have hrank : Fin.ofNat world q.val = q := Fin.ext (Nat.mod_eq_of_lt q.isLt)
  rw [Function.comp_apply, received, if_pos (by omega), hrank]

end State

section Rounds

variable [NeZero world] {g : Group world ω} {x : Rank world → Tensor α} {shape : List Nat}
  {axis width sequence : Nat} (hx : ∀ r, (x r).shape = shape)
  (hwidth : shape[axis]? = some width) (hdiv : width % world = 0)

include hx hwidth hdiv

omit [NeZero world] in
theorem shards_shape (q r : Rank world) :
    (shard (x q) axis r).shape = shape.set axis (width / world) := by
  rw [shard_shape (by rw [hx q, hwidth]) hdiv r, hx q]

theorem shards_ok (r : Rank world) : ((List.range world).mapM fun destination =>
    (x r).narrow axis (destination * (width / world)) (width / world)) =
      .ok ((List.range world).map fun q => shard (x r) axis (Fin.ofNat world q)) := by
  refine mapM_eq_map fun q hq => ?_
  have hrank : (⟨q, List.mem_range.mp hq⟩ : Rank world) = Fin.ofNat world q :=
    Fin.ext (Nat.mod_eq_of_lt (List.mem_range.mp hq)).symm
  rw [← hrank]
  exact narrow_eq_shard (by rw [hx r, hwidth]) hdiv ⟨q, List.mem_range.mp hq⟩

theorem pairwiseStep_together (hs : ∀ r, (x r).Sendable) (hseq : sequence < 2 ^ 44)
    (hcap : world ≤ 257) {n : Nat} (hn : n + 1 < world) :
    TogetherOk (fun r => (g.endpoint r).pairwiseStep sequence axis
        ((List.range world).map fun q => shard (x r) axis (Fin.ofNat world q))
        (pairwiseState x axis ((shape.set axis (width / world)).prod * 4) n r) (1 + n))
      (fun _ => []) (pairwiseState x axis ((shape.set axis (width / world)).prod * 4) (n + 1)) := by
  have hpos : 0 < world := by omega
  rw [Nat.add_comm 1 n]
  have hsend : ∀ q r : Rank world, (shard (x q) axis r).Sendable := fun q r =>
    shard_sendable (by rw [hx q, hwidth]) hdiv (hs q) r
  have hbytes : ∀ q r : Rank world,
      (shard (x q) axis r).bytes = (shape.set axis (width / world)).prod * 4 := fun q r => by
    rw [Tensor.bytes_eq, shards_shape hx hwidth hdiv]
  have hdest : ∀ r : Rank world, Fin.ofNat world ((r.val + (n + 1)) % world) = ahead (n + 1) r :=
    fun r => Fin.ext (Nat.mod_mod _ _)
  have hout : ∀ r : Rank world, nth ((List.range world).map fun q =>
      shard (x r) axis (Fin.ofNat world q)) ((r.val + (n + 1)) % world) =
        .ok (shard (x r) axis (ahead (n + 1) r)) := fun r => by
    rw [nth_map_range (Nat.mod_lt _ hpos), hdest]
  have hgather : ∀ r : Rank world, requireGatherShape (shard (x r) axis (ahead (n + 1) r))
      (shard (x (back (n + 1) r)) axis (ahead (n + 1) (back (n + 1) r))) axis = .ok () := by
    intro r
    simp [requireGatherShape, shards_shape hx hwidth hdiv, Tensor.sameExcept_self]
  refine (togetherOk_liftExcept fun _ => collectiveTag_ok hseq (by omega) (by omega)).andThen ?_
  refine (togetherOk_liftExcept hout).andThen ?_
  refine (exchange_together (back_ahead hn) (ahead_back hn) (ahead_ne (Nat.succ_pos n) hn)
    fun r => hsend r (ahead (n + 1) r)).andThen ?_
  refine (togetherOk_liftExcept hgather).andThen ?_
  have hstate : pairwiseState x axis ((shape.set axis (width / world)).prod * 4) (n + 1) =
      fun r => (((List.range world).map (received x axis n r)).set (behind world r (n + 1))
          (some (shard (x (back (n + 1) r)) axis (ahead (n + 1) (back (n + 1) r)))),
        n * ((shape.set axis (width / world)).prod * 4) +
          (shard (x r) axis (ahead (n + 1) r)).bytes,
        n * ((shape.set axis (width / world)).prod * 4) +
          (shard (x (back (n + 1) r)) axis (ahead (n + 1) (back (n + 1) r))).bytes) := by
    funext r
    rw [hbytes, hbytes, ahead_back hn, set_map_range, pairwiseState, Nat.succ_mul]
    congr 1
    refine List.map_congr_left fun q hq => ?_
    exact received_succ x axis r hn (List.mem_range.mp hq)
  rw [hstate]
  exact TogetherOk.pure _

omit hx hwidth in
/-- Parts that split a shape evenly can be concatenated. -/
theorem cat_parts {y : Rank world → Tensor α} {t : Tensor α} (hd : t.shape[axis]? = some width)
    (hy : ∀ q, (y q).shape = t.shape.set axis (width / world)) :
    ∃ u, Tensor.cat ((List.finRange world).map y) axis = .ok u ∧ u.shape = t.shape ∧
      u.data = (List.range (Tensor.outer t.shape axis)).flatMap fun o =>
        ((List.finRange world).map y).flatMap fun v => v.block axis o := by
  have hpos : 0 < world := Nat.pos_of_neZero world
  obtain ⟨hlt, hget⟩ := List.getElem?_eq_some_iff.mp hd
  have hmul : world * (width / world) = width :=
    Nat.mul_div_cancel' (Nat.dvd_of_mod_eq_zero hdiv)
  have hfits : t.shape.prod < 2 ^ 61 := by
    have hf := t.fits
    rwa [t.size] at hf
  have husize : width < 2 ^ 64 := t.usize width (List.mem_of_getElem? hd)
  have hall : ∀ u ∈ (List.finRange world).map y, u.shape = t.shape.set axis (width / world) := by
    intro u hu
    obtain ⟨q, -, rfl⟩ := List.mem_map.mp hu
    exact hy q
  have houter : Tensor.outer (t.shape.set axis (width / world)) axis = Tensor.outer t.shape axis := by
    rw [Tensor.outer, Tensor.outer, List.take_set_of_le le_rfl]
  have hinner : Tensor.inner (t.shape.set axis (width / world)) axis = Tensor.inner t.shape axis := by
    rw [Tensor.inner, Tensor.inner, List.drop_set_of_lt (Nat.lt_succ_self axis)]
  obtain ⟨u, hu, hshape, hdata⟩ := Tensor.cat_ok (d := width / world) axis (by simpa using hpos.ne')
    hall (by simp [hlt]) (by simpa [hmul] using husize)
    (by simpa [hmul, houter, hinner, ← Tensor.prod_split hd] using hfits)
  refine ⟨u, hu, ?_, by rwa [houter] at hdata⟩
  rw [hshape, List.length_map, List.length_finRange, hmul, List.set_set, ← hget,
    List.set_getElem_self]

theorem cat_transposed (r : Rank world) :
    Tensor.cat ((List.finRange world).map fun q => shard (x q) axis r) axis =
      .ok (transposed x axis r) := by
  have hd : (x r).shape[axis]? = some width := by rw [hx r, hwidth]
  have hy : ∀ q, (shard (x q) axis r).shape = (x r).shape.set axis (width / world) := fun q => by
    rw [shards_shape hx hwidth hdiv q r, hx r]
  obtain ⟨u, hu, -⟩ := cat_parts hdiv hd hy
  rw [transposed, hu]
  rfl

theorem exchangeShards_together (hs : ∀ r, (x r).Sendable) (hcap : world ≤ 257)
    {d : CollectiveDescriptor} (hseq : d.sequence < 2 ^ 44) : ∃ sent received : Rank world → Nat,
      TogetherOk (fun r => (g.endpoint r).exchangeShards (x r) axis width d) (fun _ => [])
        fun r => (transposed x axis r, sent r, received r) := by
  refine ⟨fun _ => (world - 1) * ((shape.set axis (width / world)).prod * 4),
    fun _ => (world - 1) * ((shape.set axis (width / world)).prod * 4), ?_⟩
  have hown : ∀ r : Rank world, nth ((List.range world).map fun q =>
      shard (x r) axis (Fin.ofNat world q)) r.val = .ok (shard (x r) axis r) := fun r => by
    have hrank : Fin.ofNat world r.val = r := Fin.ext (Nat.mod_eq_of_lt r.isLt)
    rw [nth_map_range r.isLt, hrank]
  refine (togetherOk_liftExcept fun r => shards_ok hx hwidth hdiv r).andThen ?_
  refine (togetherOk_liftExcept hown).andThen ?_
  have hstart : ∀ r, pairwiseState x axis ((shape.set axis (width / world)).prod * 4) 0 r =
      ((List.replicate world none).set r.val (some (shard (x r) axis r)), 0, 0) := fun r => by
    rw [pairwiseState, received_zero, Nat.zero_mul]
  simp only [endpoint_rank, Rank.globalRank, ← hstart]
  refine (TogetherOk.foldlM_range' 1 (world - 1) fun n hn =>
    pairwiseStep_together hx hwidth hdiv hs hseq hcap (by omega)).andThen ?_
  simp only [pairwiseState, received_last]
  refine (togetherOk_liftExcept (b := fun r => (List.finRange world).map fun q =>
    shard (x q) axis r) fun r => ?_).andThen ?_
  · rw [List.mapM_map]
    exact mapM_eq_map fun q _ => rfl
  refine (togetherOk_liftExcept fun r => cat_transposed hx hwidth hdiv r).andThen ?_
  exact TogetherOk.pure _

/-- Every rank receives its shard of every tensor, concatenated in source order. -/
theorem allToAll_completes (hcap : world ≤ 257) {state : Rank world → NativeCollectives}
    {next following : Nat} {d : CollectiveDescriptor}
    (hstate : ∀ r, (state r).nextSequence = next)
    (h : Plan.accept ⟨.allToAll, .pairwise, none, some axis⟩ world next shape =
      (.ok d, following)) :
    g.Completes (fun r => (g.endpoint r).allToAll (x r) axis) state d some
      (transposed x axis) := by
  obtain ⟨hcount, hseq, -, -, -, hd⟩ := Plan.accept_ok h
  have hs : ∀ r, (x r).Sendable := fun r =>
    (Tensor.sendable_iff _).mpr (by rw [hx r]; exact hcount)
  refine completes_of_core (fun r => (g.endpoint r).exchangeShards (x r) axis width d) hx hstate h
    (fun r s => ?_)
    (exchangeShards_together hx hwidth hdiv hs hcap (by rw [hd]; exact hseq))
  have hdim : (x r).dim axis = .ok width := dim_ok (by rw [hx r, hwidth])
  simp only [hdim, Native.run_liftExcept_ok, hdiv, ne_eq, not_true_eq_false, if_false]

end Rounds

end Group

end Dlir.Collectives
