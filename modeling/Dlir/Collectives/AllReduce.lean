import Dlir.Collectives.Ring
import Dlir.Framework.Results

namespace Dlir.Collectives

open Dlir.Framework Dlir.Math

variable {world : Nat} {α ω : Type}

theorem Rank.globalRank_eq_zero [NeZero world] {r : Rank world} : r.globalRank = 0 ↔ r = 0 := by
  rw [Rank.globalRank, Fin.ext_iff]
  rfl

namespace Group

variable {g : Group world ω} {sequence : Nat} {x : Rank world → Tensor α} {shape : List Nat}

section Centralized

variable [NeZero world] [Add α] (hseq : sequence < 2 ^ 44) (hx : ∀ r, (x r).shape = shape)
  (hs : ∀ r, (x r).Sendable)

include hseq hx hs

/-- The centralized algorithm leaves the sum in rank order on every rank. -/
theorem centralizedAllReduce_together : ∃ sent received : Rank world → Nat,
    TogetherOk (fun r => (g.endpoint r).centralizedAllReduce (x r) sequence) (fun _ => [])
      fun r => (rootFold Tensor.plus 0 x, sent r, received r) := by
  have hsum : (rootFold Tensor.plus 0 x).shape = shape := Tensor.rootFold_shape hx 0
  have hsend : (rootFold Tensor.plus 0 x).Sendable := (hs 0).of_shape (hsum.trans (hx 0).symm)
  refine ⟨fun r => if r = 0 then
      ((others 0).map fun _ : Rank world => (rootFold Tensor.plus 0 x).bytes).sum
      else (x r).bytes,
    fun r => if r = 0 then ((others 0).map fun s => (x s).bytes).sum
      else (rootFold Tensor.plus 0 x).bytes, ?_⟩
  refine (togetherOk_liftExcept fun _ => collectiveTag_ok hseq (by omega) (by omega)).andThen ?_
  refine (togetherOk_liftExcept fun _ => collectiveTag_ok hseq (by omega) (by omega)).andThen ?_
  refine Together.star (nodup_others 0) (fun i => mem_others)
    (fun i => tensorFrame i 0 (tagOf sequence .allReduce 1 0) (x i))
    (fun i => tensorFrame 0 i (tagOf sequence .allReduce 2 0) (rootFold Tensor.plus 0 x))
    ?_ fun i hi => ?_
  · simp only [endpoint_rank, Rank.globalRank_eq_zero, if_true, foldlM_peers]
    refine (accumulateLoop_plays hx hs).append ?_
    exact (sendLoop_plays (fun _ _ => rfl) fun _ _ => hsend).andLast (.pure _)
  · simp only [endpoint_rank, Rank.globalRank_eq_zero, if_neg hi]
    refine (Endpoint.send_plays (g.endpoint i) (Ne.symm hi) (hs i)).append ?_
    refine (Endpoint.recv_plays (g.endpoint i) (Ne.symm hi) hsend).andLast ?_
    refine (playsOk_liftExcept (requireSameShape_ok ((hx i).trans hsum.symm))).andThen ?_
    exact .pure _

end Centralized

section Ring

variable [NeZero world] [Add α] (hseq : sequence < 2 ^ 44) (hcap : world ≤ 257)
  (hx : ∀ r, (x r).shape = shape) (hdiv : world ∣ shape.prod)

/-- Chunk `c` of every rank when the elements are split evenly. -/
def chunks (x : Rank world → Tensor α) (shape : List Nat) (r : Rank world) (c : Nat) : Tensor α :=
  (x r).chunk (shape.prod / world) c

/-- The values the ring algorithm computes: every chunk is summed going round from its owner. -/
def ringData (x : Rank world → Tensor α) (shape : List Nat) : List α :=
  (List.range world).flatMap fun c => (Ring.partialSum (chunks x shape) c (world - 1)).data

include hx hdiv

omit [NeZero world] [Add α] in
theorem chunk_bound (r : Rank world) {c : Nat} (hc : c < world) :
    (c + 1) * (shape.prod / world) ≤ (x r).elemCount := by
  rw [Tensor.elemCount, (x r).size, hx r]
  calc (c + 1) * (shape.prod / world) ≤ world * (shape.prod / world) :=
        Nat.mul_le_mul_right _ hc
    _ = shape.prod := Nat.mul_div_cancel' hdiv

omit [NeZero world] [Add α] in
theorem chunks_shape (r : Rank world) (c : Nat) (hc : c < world) :
    (chunks x shape r c).shape = [shape.prod / world] :=
  Tensor.chunk_shape (chunk_bound hx hdiv r hc)

theorem ringData_length : (ringData x shape).length = shape.prod := by
  rw [ringData, Tensor.length_flatMap_range fun c hc => ?_]
  · exact Nat.mul_div_cancel' hdiv
  · have hshape := Ring.partialSum_shape (chunks_shape hx hdiv) hc (world - 1)
    rw [(Ring.partialSum (chunks x shape) c (world - 1)).size, hshape, List.prod_singleton]

/-- The last two operations of the ring algorithm put the chunks together again. -/
theorem ring_assemble : ∃ flat result : Tensor α,
    Tensor.cat ((List.range world).map fun c =>
      Ring.partialSum (chunks x shape) c (world - 1)) 0 = .ok flat ∧
    flat.reshape shape = .ok result ∧ result.shape = shape ∧
    result.data = ringData x shape := by
  have hpos : 0 < world := Nat.pos_of_neZero world
  have hlen : shape.prod < 2 ^ 61 := by
    have hfits := (x 0).fits
    rwa [(x 0).size, hx 0] at hfits
  have hmul : world * (shape.prod / world) = shape.prod := Nat.mul_div_cancel' hdiv
  have hall : ∀ u ∈ (List.range world).map fun c =>
      Ring.partialSum (chunks x shape) c (world - 1), u.shape = [shape.prod / world] := by
    intro u hu
    obtain ⟨c, hc, rfl⟩ := List.mem_map.mp hu
    exact Ring.partialSum_shape (chunks_shape hx hdiv) (List.mem_range.mp hc) _
  obtain ⟨flat, hcat, -, hdata⟩ := Tensor.cat_ok (d := shape.prod / world) 0
    (by simpa using hpos.ne') hall rfl (by simp [hmul]; omega)
    (by simpa [Tensor.outer, Tensor.inner, hmul] using hlen)
  have hflat : flat.data = ringData x shape := by
    rw [hdata, ringData]
    simp only [Tensor.outer, List.take_zero, List.prod_nil, List.range_one, List.flatMap_singleton,
      List.flatMap_map]
    refine List.flatMap_congr fun c hc => ?_
    have hshape := Ring.partialSum_shape (chunks_shape hx hdiv) (List.mem_range.mp hc) (world - 1)
    have hd : (Ring.partialSum (chunks x shape) c (world - 1)).shape[0]? =
        some (shape.prod / world) := by rw [hshape]; rfl
    have hb := Tensor.flatMap_block hd
    simpa [Tensor.outer] using hb
  obtain ⟨result, hres, hshape, hrd⟩ := Tensor.reshape_ok (t := flat) shape
    (by rw [Tensor.elemCount, hflat, ringData_length hx hdiv])
    (fun d hd => (x 0).usize d (by rwa [hx 0]))
  exact ⟨flat, result, hcat, hres, hshape, hrd.trans hflat⟩

include hseq hcap

/-- The ring algorithm leaves one result on every rank, whatever the addition. -/
theorem ringAllReduce_together : ∃ result : Tensor α, result.shape = shape ∧
    result.data = ringData x shape ∧ ∃ bytes : Nat,
      TogetherOk (fun r => (g.endpoint r).ringAllReduce (x r) sequence) (fun _ => [])
        fun _ => (result, bytes, bytes) := by
  by_cases h1 : world = 1
  · subst h1
    have hr : ∀ r : Rank 1, r = 0 := fun r => Subsingleton.elim r 0
    refine ⟨x 0, hx 0, ?_, 0, ?_⟩
    · have hd := Tensor.chunk_data (chunk_bound hx hdiv 0 Nat.one_pos)
      have hlen : (x 0).data.length = shape.prod := by rw [(x 0).size, hx 0]
      simpa [ringData, Ring.partialSum, ringFold, chunks, ← hlen] using hd.symm
    · have hone : (fun r => (g.endpoint r).ringAllReduce (x r) sequence) =
          fun r => (pure (x 0, 0, 0) : Comm 1 α ω _) := by
        funext r
        simp [Endpoint.ringAllReduce, hr r]
      rw [hone]
      exact TogetherOk.pure _
  · obtain ⟨flat, result, hcat, hres, hshape, hdata⟩ := ring_assemble hx hdiv
    refine ⟨result, hshape, hdata, (world - 1 + (world - 1)) * (shape.prod / world * 4), ?_⟩
    have hcount : ∀ r, (x r).flattenAll.elemCount = shape.prod := fun r => by
      rw [Tensor.elemCount, Tensor.flattenAll, (x r).size, hx r]
    have hmod : shape.prod % world = 0 := Nat.mod_eq_zero_of_dvd hdiv
    simp only [Endpoint.ringAllReduce, if_neg h1, hcount, hmod, ne_eq, not_true_eq_false, if_false]
    refine (togetherOk_liftExcept (b := fun r => (List.range world).map (chunks x shape r))
      fun r => mapM_eq_map fun c hc => ?_).andThen ?_
    · exact Tensor.narrow_eq_chunk (chunk_bound hx hdiv r (List.mem_range.mp hc))
    simp only [← Ring.reduceState_zero (chunks x shape) (shape.prod / world)]
    refine (Ring.reduceLoop_together (chunks_shape hx hdiv) hseq hcap).andThen ?_
    simp only [← Ring.gatherState_zero]
    refine (Ring.gatherLoop_together (chunks_shape hx hdiv) hseq hcap).andThen ?_
    simp only [Ring.gatherState_last, hx]
    refine (togetherOk_liftExcept fun _ => hcat).andThen ?_
    refine (togetherOk_liftExcept fun _ => hres).andThen ?_
    exact TogetherOk.pure _

end Ring

section Commutative

variable [NeZero world] [AddCommSemigroup α] (hx : ∀ r, (x r).shape = shape)
  (hdiv : world ∣ shape.prod)

include hx hdiv

theorem partialSum_data {c : Nat} (hc : c < world) :
    (Ring.partialSum (chunks x shape) c (world - 1)).data =
      ((rootFold (List.zipWith (· + ·)) 0 fun r => (x r).data).drop
        (c * (shape.prod / world))).take (shape.prod / world) := by
  have hdata : ∀ r, (chunks x shape r c).data =
      ((x r).data.drop (c * (shape.prod / world))).take (shape.prod / world) :=
    fun r => Tensor.chunk_data (chunk_bound hx hdiv r hc)
  have hcut := (map_rootFold (List.zipWith (· + ·)) (List.zipWith (· + ·)) (x := fun r => (x r).data)
    (fun l => (l.drop (c * (shape.prod / world))).take (shape.prod / world)) (fun _ => True)
    (fun _ _ _ _ => trivial) (fun a b _ _ => by simp [List.drop_zipWith, List.take_zipWith])
    (fun _ => trivial) (0 : Rank world)).2
  rw [Ring.partialSum, Tensor.ringFold_data (fun r => chunks_shape hx hdiv r c hc),
    ringFold_zipWith _ c 0, hcut]
  simp only [hdata]

omit hdiv in
theorem length_sum :
    (rootFold (List.zipWith (· + ·)) 0 fun r => (x r).data).length = shape.prod :=
  (map_rootFold _ (fun _ _ => ()) (fun _ : List α => ()) (fun l => l.length = shape.prod) (fun a b ha hb => by simp [ha, hb])
    (fun _ _ _ _ => rfl) (fun r => by rw [(x r).size, hx r]) (0 : Rank world)).1

/-- With a commutative addition the ring computes the sum in rank order. -/
theorem ringData_eq :
    ringData x shape = rootFold (List.zipWith (· + ·)) 0 fun r => (x r).data := by
  rw [ringData]
  calc _ = (List.range world).flatMap fun c =>
        ((rootFold (List.zipWith (· + ·)) 0 fun r => (x r).data).drop
          (c * (shape.prod / world))).take (shape.prod / world) :=
        List.flatMap_congr fun c hc => partialSum_data hx hdiv (List.mem_range.mp hc)
    _ = _ := Tensor.flatMap_pieces (by
        rw [length_sum hx, Nat.mul_div_cancel' hdiv])

end Commutative

end Group

theorem sendable_of_ensureF32Cpu {t : Tensor α} (h : ensureF32Cpu t = .ok ()) : t.Sendable := by
  unfold ensureF32Cpu TensorPacket.fromTensor TensorPacket.new at h
  split at h
  · cases h
  · rename_i n hn
    split at h
    · rename_i hc
      rw [Tensor.Sendable, hn, hc]
      rfl
    · cases h

theorem Group.settles_of_together {β : Type} (g : Group world ω)
    {program : Rank world → Comm world α ω β} {result : Rank world → β}
    {observed : Rank world → List ω} (h : TogetherOk program observed result) (cap : ℕ∞) :
    Settles (Step cap) (g.initial fun r => (program r).run)
      (g.final (fun r => .ok (result r)) observed) :=
  Together.settles h _ cap

/-- For every schedule and channel capacity the ring all-reduce ends with one result on all
ranks, also when the addition is neither associative nor commutative; if it is both, the result
is the elementwise sum, which the centralized all-reduce returns as well. -/
theorem ringAllReduce_correct [Add α] (g : Group world ω) (hpos : 1 ≤ world) (hcap : world ≤ 257)
    {sequence : Nat} {tag : MessageTag} (hseq : collectiveTag sequence .allReduce 0 0 = .ok tag)
    (x : Rank world → Tensor α) (shape : List Nat) (hx : ∀ r, (x r).shape = shape)
    (hdiv : world ∣ shape.prod) (cap : ℕ∞) :
    ∃ result : Tensor α, result.shape = shape ∧
      (∃ bytes : Nat, Settles (Step cap)
        (g.initial fun r => ((g.endpoint r).ringAllReduce (x r) sequence).run)
        (g.final (fun _ => .ok (result, bytes, bytes)) fun _ => [])) ∧
      ((∀ a b c : α, a + b + c = a + (b + c)) → (∀ a b : α, a + b = b + a) →
        result.data = rootFold (List.zipWith (· + ·)) ⟨0, hpos⟩ (fun r => (x r).data) ∧
        ((∀ r, ensureF32Cpu (x r) = .ok ()) → ∃ sent received : Rank world → Nat,
          Settles (Step cap)
            (g.initial fun r => ((g.endpoint r).centralizedAllReduce (x r) sequence).run)
            (g.final (fun r => .ok (result, sent r, received r)) fun _ => []))) := by
  have : NeZero world := ⟨by omega⟩
  have hlt := sequence_lt_of_tag hseq
  obtain ⟨result, hshape, hdata, bytes, htog⟩ := Group.ringAllReduce_together (g := g) hlt hcap hx hdiv
  refine ⟨result, hshape, ⟨bytes, g.settles_of_together htog cap⟩, fun hassoc hcomm => ?_⟩
  let _ : AddCommSemigroup α := { add_assoc := hassoc, add_comm := hcomm }
  have hsum : result.data = rootFold (List.zipWith (· + ·)) (0 : Rank world) fun r => (x r).data :=
    hdata.trans (Group.ringData_eq hx hdiv)
  refine ⟨hsum, fun hsend => ?_⟩
  obtain ⟨sent, received, hcent⟩ := Group.centralizedAllReduce_together (g := g) hlt hx
    fun r => sendable_of_ensureF32Cpu (hsend r)
  have hresult : rootFold Tensor.plus 0 x = result := by
    ext1
    · rw [Tensor.rootFold_shape hx, hshape]
    · rw [Tensor.rootFold_data hx, hsum]
  rw [hresult] at hcent
  exact ⟨sent, received, g.settles_of_together hcent cap⟩

theorem ringAllReduce_correct_pair : ∃ result : Tensor Nat, result.data = [1, 3, 5, 7] ∧
    ∃ bytes : Nat, Settles (Step ⊤)
      ((⟨.tcp, fun _ => id⟩ : Group 2 CollectiveEvent).initial fun r =>
        ((⟨.tcp, r, id⟩ : Endpoint 2 CollectiveEvent).ringAllReduce
          ⟨[2, 2], [r.val, r.val + 1, r.val + 2, r.val + 3], rfl, by simp, by simp⟩ 0).run)
      ((⟨.tcp, fun _ => id⟩ : Group 2 CollectiveEvent).final
        (fun _ => .ok (result, bytes, bytes)) fun _ => []) := by
  obtain ⟨result, -, hsettles, hsum⟩ := ringAllReduce_correct
    (⟨.tcp, fun _ => id⟩ : Group 2 CollectiveEvent) (by decide) (by decide)
    (collectiveTag_ok (show 0 < 2 ^ 44 by decide) (by decide) (by decide))
    (fun r => (⟨[2, 2], [r.val, r.val + 1, r.val + 2, r.val + 3], rfl, by simp, by simp⟩ :
      Tensor Nat)) [2, 2] (fun _ => rfl) (by decide) ⊤
  exact ⟨result, (hsum Nat.add_assoc Nat.add_comm).1, hsettles⟩

end Dlir.Collectives
