import Dlir.Collectives.Admission
import Dlir.Collectives.AllReduce

namespace Dlir.Collectives

open Dlir.Framework Dlir.Math

variable {world : Nat} {α ω : Type}

namespace Group

/-- What an all-reduce computes, for an addition about which nothing is assumed. -/
def allReduced [NeZero world] [Add α] (x : Rank world → Tensor α) :
    AllReduceAlgorithm → Tensor α
  | .centralized => rootFold Tensor.plus 0 x
  | .ring => (Tensor.fromVec (ringData x (x 0).shape) (x 0).shape).toOption.getD (x 0)

theorem allReduced_ring [NeZero world] [Add α] {x : Rank world → Tensor α} {shape : List Nat}
    (hx : ∀ r, (x r).shape = shape) {t : Tensor α} (hs : t.shape = shape)
    (hd : t.data = ringData x shape) : allReduced x .ring = t := by
  rw [allReduced, hx 0, ← hd, ← hs, Tensor.fromVec_self]
  rfl

variable {g : Group world ω} {x : Rank world → Tensor α} {state : Rank world → NativeCollectives}
  {next following : Nat} {shape : List Nat} {d : CollectiveDescriptor}
  (hx : ∀ r, (x r).shape = shape) (hstate : ∀ r, (state r).nextSequence = next)

include hx hstate

/-- Every rank receives the root's tensor. -/
theorem broadcast_completes (root : Rank world)
    (h : Plan.accept ⟨.broadcast, .direct, some root.val, none⟩ world next shape =
      (.ok d, following)) :
    g.Completes (fun r => (g.endpoint r).broadcast (x r) root.val) state d some
      fun _ => x root := by
  obtain ⟨hcount, hseq, -, -, -, rfl⟩ := Plan.accept_ok h
  have hs : (x root).Sendable := (Tensor.sendable_iff _).mpr (by rw [hx root]; exact hcount)
  refine completes_of_core _ hx hstate h (fun r s => rfl)
    ⟨fun r => if r = root then ((others root).map fun _ => (x root).bytes).sum else 0,
      fun r => if r = root then 0 else (x root).bytes, ?_⟩
  refine (togetherOk_liftExcept fun _ => collectiveTag_ok hseq (by omega) (by omega)).andThen ?_
  refine Together.scatter (nodup_others root) (fun i => mem_others)
    (fun i => tensorFrame root i (tagOf next .broadcast 0 0) (x root)) ?_ fun i hi => ?_
  · simp only [endpoint_rank, Rank.globalRank, if_true, foldlM_skip]
    exact (sendLoop_plays (fun _ _ => rfl) fun _ _ => hs).andLast (.pure _)
  · have hne : i.val ≠ root.val := fun hv => hi (Fin.ext hv)
    simp only [endpoint_rank, Rank.globalRank, if_neg hne, if_neg hi]
    exact (Endpoint.recv_plays (g.endpoint i) (Ne.symm hi) hs).andLast (.pure _)

/-- The root adds up all tensors; the others get nothing back. -/
theorem reduce_completes [Add α] (root : Rank world)
    (h : Plan.accept ⟨.reduce, .centralized, some root.val, none⟩ world next shape =
      (.ok d, following)) :
    g.Completes (fun r => (g.endpoint r).reduce (x r) root.val) state d id
      fun r => if r = root then some (rootFold Tensor.plus root x) else none := by
  obtain ⟨hcount, hseq, -, -, -, rfl⟩ := Plan.accept_ok h
  have hs : ∀ r, (x r).Sendable := fun r =>
    (Tensor.sendable_iff _).mpr (by rw [hx r]; exact hcount)
  refine completes_of_core _ hx hstate h (fun r s => rfl)
    ⟨fun r => if r = root then 0 else (x r).bytes,
      fun r => if r = root then ((others root).map fun s => (x s).bytes).sum else 0, ?_⟩
  refine (togetherOk_liftExcept fun _ => collectiveTag_ok hseq (by omega) (by omega)).andThen ?_
  refine Together.gather (nodup_others root) (fun i => mem_others)
    (fun i => tensorFrame i root (tagOf next .reduce 0 0) (x i)) ?_ fun i hi => ?_
  · simp only [endpoint_rank, Rank.globalRank, if_true, foldlM_skip]
    exact (accumulateLoop_plays hx hs).andLast (.pure _)
  · have hne : i.val ≠ root.val := fun hv => hi (Fin.ext hv)
    simp only [endpoint_rank, Rank.globalRank, if_neg hne, if_neg hi]
    exact (Endpoint.send_plays (g.endpoint i) (Ne.symm hi) (hs i)).andLast (.pure _)

omit hstate in
/-- Rank 0 collects the shards in rank order. -/
theorem collectLoop_plays [NeZero world] {tag : MessageTag} (axis : Nat)
    (hs : ∀ r, (x r).Sendable) :
    PlaysOk ((others 0).map fun s => .get s (tensorFrame s 0 tag (x s)))
      ((others (0 : Rank world)).foldlM (fun acc s =>
        (g.endpoint 0).collectShard tag (x 0) axis acc s.val) ([x 0], 0)) ([] : List ω)
      ((List.finRange world).map x, ((others 0).map fun s => (x s).bytes).sum) := by
  have hstep : ∀ acc : List (Tensor α) × Nat, ∀ s ∈ others (0 : Rank world),
      PlaysOk [.get s (tensorFrame s 0 tag (x s))]
        ((g.endpoint 0).collectShard tag (x 0) axis acc s.val) ([] : List ω)
        (acc.1 ++ [x s], acc.2 + (x s).bytes) := by
    intro acc s hmem
    have hshape : requireGatherShape (x 0) (x s) axis = .ok () := by
      simp [requireGatherShape, hx, Tensor.sameExcept_self]
    refine (Endpoint.recv_plays (g.endpoint 0) (mem_others.mp hmem) (hs s)).andLast ?_
    exact (playsOk_liftExcept hshape).andThen (.pure _)
  have hloop := PlaysOk.foldlM (ω := ω) _ _ (fun _ => True)
    (fun acc _ s hmem => ⟨hstep acc s hmem, trivial⟩) (b := ([x 0], 0)) trivial
  have hcount := foldl_count (fun acc s => acc ++ [x s]) (fun s => (x s).bytes)
    (others (0 : Rank world)) [x 0] 0
  have hlist : ∀ (is : List (Rank world)) (acc : List (Tensor α)),
      is.foldl (fun acc s => acc ++ [x s]) acc = acc ++ is.map x := by
    intro is
    induction is with
    | nil => simp
    | cons i is ih => intro acc; simp [ih]
  rw [hcount, hlist, Nat.zero_add, List.singleton_append, ← List.map_cons, cons_others_zero] at hloop
  exact hloop

/-- Every rank receives the concatenation in rank order. -/
theorem allGather_completes [NeZero world] (axis : Nat) {gathered : Tensor α}
    (hcat : Tensor.cat ((List.finRange world).map x) axis = .ok gathered)
    (hsend : gathered.Sendable)
    (h : Plan.accept ⟨.allGather, .centralized, some 0, some axis⟩ world next shape =
      (.ok d, following)) :
    g.Completes (fun r => (g.endpoint r).allGather (x r) axis) state d some
      fun _ => gathered := by
  obtain ⟨hcount, hseq, -, -, -, rfl⟩ := Plan.accept_ok h
  have hs : ∀ r, (x r).Sendable := fun r =>
    (Tensor.sendable_iff _).mpr (by rw [hx r]; exact hcount)
  refine completes_of_core _ hx hstate h (fun r s => rfl)
    ⟨fun r => if r = 0 then ((others (0 : Rank world)).map fun _ => gathered.bytes).sum
        else (x r).bytes,
      fun r => if r = 0 then ((others 0).map fun s => (x s).bytes).sum else gathered.bytes, ?_⟩
  refine (togetherOk_liftExcept fun _ => collectiveTag_ok hseq (by omega) (by omega)).andThen ?_
  refine (togetherOk_liftExcept fun _ => collectiveTag_ok hseq (by omega) (by omega)).andThen ?_
  refine Together.star (nodup_others 0) (fun i => mem_others)
    (fun i => tensorFrame i 0 (tagOf next .allGather 1 0) (x i))
    (fun i => tensorFrame 0 i (tagOf next .allGather 2 0) gathered) ?_ fun i hi => ?_
  · simp only [endpoint_rank, Rank.globalRank_eq_zero, if_true, foldlM_peers]
    refine (collectLoop_plays hx axis hs).append ?_
    refine (playsOk_liftExcept hcat).andThen ?_
    exact (sendLoop_plays (fun _ _ => rfl) fun _ _ => hsend).andLast (.pure _)
  · simp only [endpoint_rank, Rank.globalRank_eq_zero, if_neg hi]
    refine (Endpoint.send_plays (g.endpoint i) (Ne.symm hi) (hs i)).append ?_
    exact (Endpoint.recv_plays (g.endpoint i) (Ne.symm hi) hsend).andLast (.pure _)

theorem centralized_completes [NeZero world] [Add α]
    (h : Plan.accept ⟨.allReduce, .centralized, some 0, none⟩ world next shape =
      (.ok d, following)) :
    g.Completes (fun r => (g.endpoint r).allReduce (x r) .centralized) state d some
      fun _ => allReduced x .centralized := by
  obtain ⟨hcount, hseq, -, -, -, rfl⟩ := Plan.accept_ok h
  have hs : ∀ r, (x r).Sendable := fun r =>
    (Tensor.sendable_iff _).mpr (by rw [hx r]; exact hcount)
  exact completes_of_core _ hx hstate h (fun r s => rfl)
    (centralizedAllReduce_together hseq hx hs)

theorem ring_completes [NeZero world] [Add α] (hcap : world ≤ 257) (hdiv : world ∣ shape.prod)
    (h : Plan.accept ⟨.allReduce, .ring, none, none⟩ world next shape = (.ok d, following)) :
    g.Completes (fun r => (g.endpoint r).allReduce (x r) .ring) state d some
      fun _ => allReduced x .ring := by
  obtain ⟨-, hseq, -, -, -, rfl⟩ := Plan.accept_ok h
  obtain ⟨result, hshape, hdata, bytes, hring⟩ := ringAllReduce_together (g := g) hseq hcap hx hdiv
  rw [allReduced_ring hx hshape hdata]
  exact completes_of_core _ hx hstate h (fun r s => rfl) ⟨fun _ => bytes, fun _ => bytes, hring⟩

/-- The piece of a tensor that belongs to rank `r` when `axis` is split evenly. -/
def shard (t : Tensor α) (axis : Nat) (r : Rank world) : Tensor α :=
  t.slice axis (r.val * (t.shape.getD axis 0 / world)) (t.shape.getD axis 0 / world)

section Shard

variable {t : Tensor α} {axis width : Nat} (hd : t.shape[axis]? = some width)
  (hdiv : width % world = 0)

omit hx hstate

include hd hdiv

omit hd in
theorem shard_bound (r : Rank world) : r.val * (width / world) + width / world ≤ width := by
  calc r.val * (width / world) + width / world = (r.val + 1) * (width / world) := by
        rw [Nat.succ_mul]
    _ ≤ world * (width / world) := Nat.mul_le_mul_right _ r.isLt
    _ = width := Nat.mul_div_cancel' (Nat.dvd_of_mod_eq_zero hdiv)

theorem narrow_eq_shard (r : Rank world) :
    t.narrow axis (r.val * (width / world)) (width / world) = .ok (shard t axis r) := by
  rw [Tensor.narrow_eq_slice hd (shard_bound hdiv r), shard]
  simp [List.getD, hd]

theorem shard_shape (r : Rank world) :
    (shard t axis r).shape = t.shape.set axis (width / world) := by
  have hget : t.shape.getD axis 0 = width := by simp [List.getD, hd]
  rw [shard, hget]
  exact Tensor.slice_shape hd (shard_bound hdiv r)

theorem shard_sendable (hs : t.Sendable) (r : Rank world) : (shard t axis r).Sendable := by
  refine hs.of_le ?_
  obtain ⟨hlt, hget⟩ := List.getElem?_eq_some_iff.mp hd
  rw [shard_shape hd hdiv r, List.forall₂_iff_get]
  refine ⟨by simp, fun i h1 h2 => ?_⟩
  simp only [List.get_eq_getElem, List.getElem_set]
  split_ifs with hi
  · subst hi
    rw [hget]
    exact Nat.div_le_self width world
  · exact le_rfl

end Shard

omit hx hstate in
theorem dim_ok {t : Tensor α} {axis width : Nat} (hd : t.shape[axis]? = some width) :
    t.dim axis = .ok width := by
  simp [Tensor.dim, hd]

/-- Every rank receives its slice of the sum. -/
theorem reduceScatter_completes [NeZero world] [Add α] {axis width : Nat}
    (hwidth : shape[axis]? = some width) (hdiv : width % world = 0)
    (h : Plan.accept ⟨.reduceScatter, .centralized, some 0, some axis⟩ world next shape =
      (.ok d, following)) :
    g.Completes (fun r => (g.endpoint r).reduceScatter (x r) axis) state d some
      fun r => shard (rootFold Tensor.plus 0 x) axis r := by
  obtain ⟨hcount, hseq, -, -, -, hd⟩ := Plan.accept_ok h
  have hs : ∀ r, (x r).Sendable := fun r =>
    (Tensor.sendable_iff _).mpr (by rw [hx r]; exact hcount)
  have hsum : (rootFold Tensor.plus 0 x).shape = shape := Tensor.rootFold_shape hx 0
  have hsumwidth : (rootFold Tensor.plus 0 x).shape[axis]? = some width := by rw [hsum, hwidth]
  have hsend : ∀ r, (shard (rootFold Tensor.plus 0 x) axis r : Tensor α).Sendable := fun r =>
    shard_sendable hsumwidth hdiv ((hs 0).of_shape (hsum.trans (hx 0).symm)) r
  have hlocal := narrow_eq_shard hsumwidth hdiv (0 : Rank world)
  rw [show (0 : Rank world).val = 0 from rfl, Nat.zero_mul] at hlocal
  refine completes_of_core (fun r => (g.endpoint r).scatterReduced (x r) axis d) hx hstate h
    (fun r s => ?_)
    ⟨fun r => if r = 0 then
        ((others (0 : Rank world)).map fun q => (shard (rootFold Tensor.plus 0 x) axis q).bytes).sum
        else (x r).bytes,
      fun r => if r = 0 then ((others 0).map fun s => (x s).bytes).sum
        else (shard (rootFold Tensor.plus 0 x) axis r).bytes, ?_⟩
  · have hdim : (x r).dim axis = .ok width := dim_ok (by rw [hx r, hwidth])
    simp only [hdim, Native.run_liftExcept_ok, hdiv, ne_eq, not_true_eq_false, if_false]
  subst hd
  refine (togetherOk_liftExcept fun _ => collectiveTag_ok hseq (by omega) (by omega)).andThen ?_
  refine (togetherOk_liftExcept fun _ => collectiveTag_ok hseq (by omega) (by omega)).andThen ?_
  refine Together.star (nodup_others 0) (fun i => mem_others)
    (fun i => tensorFrame i 0 (tagOf next .reduceScatter 1 0) (x i))
    (fun i => tensorFrame 0 i (tagOf next .reduceScatter 2 0)
      (shard (rootFold Tensor.plus 0 x) axis i)) ?_ fun i hi => ?_
  · simp only [endpoint_rank, Rank.globalRank_eq_zero, if_true, foldlM_peers]
    refine (accumulateLoop_plays hx hs).append ?_
    refine (playsOk_liftExcept (dim_ok hsumwidth)).andThen ?_
    refine (playsOk_liftExcept hlocal).andThen ?_
    exact (sendLoop_plays (fun q _ => narrow_eq_shard hsumwidth hdiv q)
      fun q _ => hsend q).andLast (.pure _)
  · simp only [endpoint_rank, Rank.globalRank_eq_zero, if_neg hi]
    refine (Endpoint.send_plays (g.endpoint i) (Ne.symm hi) (hs i)).append ?_
    exact (Endpoint.recv_plays (g.endpoint i) (Ne.symm hi) (hsend i)).andLast (.pure _)

end Group

end Dlir.Collectives
