import Dlir.Collectives.Program
import Dlir.Collectives.Splitting

namespace Dlir.Collectives

open Dlir.Framework Dlir.Math

variable {world : Nat} {α ω : Type}

/-- When `begin` accepts a call. -/
theorem Plan.accept_of (plan : Plan) (world : Nat) {next : Nat} {shape : List Nat}
    (hcount : (elementCount shape).isOk = true) (hnext : next < 2 ^ 44)
    (hroot : ∀ root, plan.root = some root → root < world)
    (haxis : ∀ axis, plan.axis = some axis → axis < shape.length) :
    plan.accept world next shape =
      (.ok ⟨next, plan.kind, plan.algorithm, plan.root, plan.axis, shape, shape.prod * 4⟩,
        next + 1) := by
  have htag : collectiveTag next plan.kind 0 0 = .ok (tagOf next plan.kind 0 0) :=
    collectiveTag_ok hnext (by omega) (by omega)
  have hcheckRoot : Plan.checkRoot world plan.root = .ok () := by
    cases hr : plan.root with
    | none => rfl
    | some root => rw [Plan.checkRoot, if_neg (by have := hroot root hr; omega)]
  have hcheckAxis : Plan.checkAxis shape plan.axis = .ok () := by
    cases ha : plan.axis with
    | none => rfl
    | some axis => rw [Plan.checkAxis, if_neg (by have := haxis axis ha; omega)]
  cases hc : elementCount shape with
  | error e =>
    rw [hc] at hcount
    cases hcount
  | ok n =>
    have hadd : checkedAdd next 1 = some (next + 1) := by
      rw [checkedAdd, if_pos (by omega)]
    rw [Plan.accept, hc]
    simp only [hadd, Plan.describe, htag, hcheckRoot, hcheckAxis]
    rfl

namespace Group

/-- In every schedule all ranks return these values, and no message is left. -/
def Returns {β : Type} (g : Group world ω) (cap : ℕ∞) (state : Rank world → NativeCollectives)
    (call : Rank world → Native world α ω β) (result : Rank world → β) : Prop :=
  ∃ (last : Rank world → NativeCollectives) (log : Rank world → List ω),
    Settles (Step cap) (g.initial fun r => (call r).run.run (state r))
      (g.final (fun r => (.ok (result r), last r)) log)

theorem returns_of_together {β : Type} {g : Group world ω} {state last : Rank world → NativeCollectives}
    {call : Rank world → Native world α ω β} {result : Rank world → β} {os : Rank world → List ω}
    (h : TogetherSt call state os (fun r => .ok (result r)) last) (cap : ℕ∞) :
    g.Returns cap state call result :=
  ⟨last, os, Together.settles h _ cap⟩

section Laws

variable [NeZero world] {g : Group world ω} {x : Rank world → Tensor α}
  {state : Rank world → NativeCollectives} {next axis width : Nat} {shape : List Nat}

theorem zero_root {root : Nat} (h : some 0 = some root) : root < world := by
  cases h
  exact Nat.pos_of_neZero world

/-- The state in which the ranks start their next call. -/
def resumed (next : Nat) (traces : Rank world → List CollectiveTrace) (r : Rank world) :
    NativeCollectives := ⟨next, traces r⟩

omit [NeZero world] in
theorem resumed_sequence (next : Nat) (traces : Rank world → List CollectiveTrace)
    (r : Rank world) : (resumed next traces r).nextSequence = next := rfl

variable (hx : ∀ r, (x r).shape = shape) (hcount : (elementCount shape).isOk = true)
  (hstate : ∀ r, (state r).nextSequence = next)

include hx hcount hstate

theorem allReduce_together [Add α] (hnext : next < 2 ^ 44) :
    ∃ (os : Rank world → List ω) (traces : Rank world → List CollectiveTrace),
      TogetherSt (fun r => (g.endpoint r).allReduce (x r) .centralized) state os
        (fun _ => .ok (rootFold Tensor.plus 0 x)) (resumed (next + 1) traces) := by
  have haccept := Plan.accept_of ⟨.allReduce, .centralized, some 0, none⟩ world hcount hnext
    (fun _ h => zero_root h) (fun _ h => by cases h)
  exact (centralized_completes hx hstate haccept).result rfl

theorem reduce_together [Add α] (hnext : next < 2 ^ 44) :
    ∃ (os : Rank world → List ω) (traces : Rank world → List CollectiveTrace),
      TogetherSt (fun r => (g.endpoint r).reduce (x r) 0) state os
        (fun r => .ok (if r = 0 then some (rootFold Tensor.plus 0 x) else none))
        (resumed (next + 1) traces) := by
  have haccept := Plan.accept_of ⟨.reduce, .centralized, some 0, none⟩ world hcount hnext
    (fun _ h => zero_root h) (fun _ h => by cases h)
  exact (reduce_completes hx hstate 0 haccept).result rfl

theorem broadcast_together (hnext : next < 2 ^ 44) :
    ∃ (os : Rank world → List ω) (traces : Rank world → List CollectiveTrace),
      TogetherSt (fun r => (g.endpoint r).broadcast (x r) 0) state os
        (fun _ => .ok (x 0)) (resumed (next + 1) traces) := by
  have haccept := Plan.accept_of ⟨.broadcast, .direct, some 0, none⟩ world hcount hnext
    (fun _ h => zero_root h) (fun _ h => by cases h)
  exact (broadcast_completes hx hstate 0 haccept).result rfl

theorem allGather_together (hnext : next < 2 ^ 44) (haxis : axis < shape.length)
    {gathered : Tensor α} (hcat : Tensor.cat ((List.finRange world).map x) axis = .ok gathered)
    (hsend : gathered.Sendable) :
    ∃ (os : Rank world → List ω) (traces : Rank world → List CollectiveTrace),
      TogetherSt (fun r => (g.endpoint r).allGather (x r) axis) state os
        (fun _ => .ok gathered) (resumed (next + 1) traces) := by
  have haccept := Plan.accept_of ⟨.allGather, .centralized, some 0, some axis⟩ world hcount
    hnext (fun _ h => zero_root h) (fun _ h => by cases h; exact haxis)
  exact (allGather_completes hx hstate axis hcat hsend haccept).result rfl

variable (hwidth : shape[axis]? = some width) (hdiv : width % world = 0)

include hwidth hdiv

theorem reduceScatter_together [Add α] (hnext : next < 2 ^ 44) :
    ∃ (os : Rank world → List ω) (traces : Rank world → List CollectiveTrace),
      TogetherSt (fun r => (g.endpoint r).reduceScatter (x r) axis) state os
        (fun r => .ok (shard (rootFold Tensor.plus 0 x) axis r)) (resumed (next + 1) traces) := by
  obtain ⟨haxis, -⟩ := List.getElem?_eq_some_iff.mp hwidth
  have haccept := Plan.accept_of ⟨.reduceScatter, .centralized, some 0, some axis⟩ world hcount
    hnext (fun _ h => zero_root h) (fun _ h => by cases h; exact haxis)
  exact (reduceScatter_completes hx hstate hwidth hdiv haccept).result rfl

theorem allToAll_together (hcap : world ≤ 257) (hnext : next < 2 ^ 44) :
    ∃ (os : Rank world → List ω) (traces : Rank world → List CollectiveTrace),
      TogetherSt (fun r => (g.endpoint r).allToAll (x r) axis) state os
        (fun r => .ok (transposed x axis r)) (resumed (next + 1) traces) := by
  obtain ⟨haxis, -⟩ := List.getElem?_eq_some_iff.mp hwidth
  have haccept := Plan.accept_of ⟨.allToAll, .pairwise, none, some axis⟩ world hcount
    hnext (fun _ h => by cases h) (fun _ h => by cases h; exact haxis)
  exact (allToAll_completes hx hwidth hdiv hcap hstate haccept).result rfl

/-- Reduce-scatter followed by all-gather is the centralized all-reduce. -/
theorem gathered_together [Add α] (hnext : next + 1 < 2 ^ 44) :
    ∃ (os : Rank world → List ω) (last : Rank world → NativeCollectives),
      TogetherSt (fun r => do
        let y ← (g.endpoint r).reduceScatter (x r) axis
        (g.endpoint r).allGather y axis) state os
        (fun _ => .ok (rootFold Tensor.plus 0 x)) last := by
  obtain ⟨haxis, -⟩ := List.getElem?_eq_some_iff.mp hwidth
  have hsum : (rootFold Tensor.plus 0 x).shape = shape := Tensor.rootFold_shape hx 0
  have hsumwidth : (rootFold Tensor.plus 0 x).shape[axis]? = some width := by rw [hsum, hwidth]
  have hsend : (rootFold Tensor.plus 0 x).Sendable :=
    (Tensor.sendable_iff _).mpr (by rw [hsum]; exact hcount)
  have hshard : ∀ r : Rank world, (shard (rootFold Tensor.plus 0 x) axis r).shape =
      shape.set axis (width / world) := fun r => by rw [shard_shape hsumwidth hdiv r, hsum]
  have hcountShard : (elementCount (shape.set axis (width / world))).isOk = true := by
    have hsent := shard_sendable hsumwidth hdiv hsend (0 : Rank world)
    rwa [Tensor.sendable_iff, hshard] at hsent
  obtain ⟨os, traces, hscatter⟩ :=
    reduceScatter_together (g := g) hx hcount hstate hwidth hdiv (by omega)
  obtain ⟨os', traces', hgather⟩ := allGather_together (g := g) hshard hcountShard
    (resumed_sequence (next + 1) traces) hnext (by simpa using haxis) (cat_shards hdiv hsumwidth)
    hsend
  exact ⟨_, _, hscatter.bind hgather⟩

omit hwidth hdiv in
/-- Broadcasting what rank 0 has reduced is the centralized all-reduce. -/
theorem rebroadcast_together [Add α] (hnext : next + 1 < 2 ^ 44) (w : Rank world → Tensor α)
    (hw : ∀ r, (w r).shape = shape) :
    ∃ (os : Rank world → List ω) (last : Rank world → NativeCollectives),
      TogetherSt (fun r => do
        let y ← (g.endpoint r).reduce (x r) 0
        (g.endpoint r).broadcast (y.getD (w r)) 0) state os
        (fun _ => .ok (rootFold Tensor.plus 0 x)) last := by
  have hy : ∀ r, ((if r = 0 then some (rootFold Tensor.plus 0 x) else none).getD (w r)).shape =
      shape := by
    intro r
    by_cases hr : r = 0
    · rw [if_pos hr]
      exact Tensor.rootFold_shape hx 0
    · rw [if_neg hr]
      exact hw r
  obtain ⟨os, traces, hreduce⟩ := reduce_together (g := g) hx hcount hstate (by omega)
  obtain ⟨os', traces', hbroadcast⟩ := broadcast_together (g := g) hy hcount
    (resumed_sequence (next + 1) traces) hnext
  exact ⟨_, _, hreduce.bind hbroadcast⟩

theorem exchanged_together (hcap : world ≤ 257) (hnext : next + 1 < 2 ^ 44) :
    ∃ (os : Rank world → List ω) (last : Rank world → NativeCollectives),
      TogetherSt (fun r => do
        let y ← (g.endpoint r).allToAll (x r) axis
        (g.endpoint r).allToAll y axis) state os (fun r => .ok (x r)) last := by
  obtain ⟨os, traces, hfirst⟩ :=
    allToAll_together (g := g) hx hcount hstate hwidth hdiv hcap (by omega)
  obtain ⟨os', traces', hsecond⟩ := allToAll_together (g := g) (transposed_shape hdiv hx hwidth)
    hcount (resumed_sequence (next + 1) traces) hwidth hdiv hcap hnext
  simp only [transposed_transposed hdiv hx hwidth] at hsecond
  exact ⟨_, _, hfirst.bind hsecond⟩

end Laws

end Group

/-- How the collectives compose, whatever the addition: in every schedule no check fails, the
reduce-scatter shards make up the centralized all-reduce, all-gather puts them back together,
broadcasting a reduction gives it as well, and an all-to-all transposes blocks, so that a second
one undoes it. -/
theorem collective_laws [Add α] (g : Group world ω) (hpos : 1 ≤ world) (hcap : world ≤ 257)
    {next axis width : Nat} {shape : List Nat} (x : Rank world → Tensor α)
    (hx : ∀ r, (x r).shape = shape) (hwidth : shape[axis]? = some width)
    (hdiv : width % world = 0) (hsend : ∀ r, ensureF32Cpu (x r) = .ok ())
    (state : Rank world → NativeCollectives) (hstate : ∀ r, (state r).nextSequence = next)
    (hnext : next + 1 < 2 ^ 44) (cap : ℕ∞) :
    ∃ sum : Tensor α, sum.shape = shape ∧
      g.Returns cap state (fun r => (g.endpoint r).allReduce (x r) .centralized) (fun _ => sum) ∧
      (∃ y : Rank world → Tensor α,
        g.Returns cap state (fun r => (g.endpoint r).reduceScatter (x r) axis) y ∧
        Tensor.cat ((List.finRange world).map y) axis = .ok sum) ∧
      g.Returns cap state (fun r => do
        let y ← (g.endpoint r).reduceScatter (x r) axis
        (g.endpoint r).allGather y axis) (fun _ => sum) ∧
      (∀ w : Rank world → Tensor α, (∀ r, (w r).shape = shape) →
        g.Returns cap state (fun r => do
          let y ← (g.endpoint r).reduce (x r) 0
          (g.endpoint r).broadcast (y.getD (w r)) 0) (fun _ => sum)) ∧
      (∃ z : Rank world → Tensor α,
        g.Returns cap state (fun r => (g.endpoint r).allToAll (x r) axis) z ∧
        ∀ r s : Rank world, (z r).shape = shape ∧ ∃ block : Tensor α,
          (z r).narrow axis (s.val * (width / world)) (width / world) = .ok block ∧
          (x s).narrow axis (r.val * (width / world)) (width / world) = .ok block) ∧
      g.Returns cap state (fun r => do
        let y ← (g.endpoint r).allToAll (x r) axis
        (g.endpoint r).allToAll y axis) x := by
  have : NeZero world := ⟨by omega⟩
  have hcount : (elementCount shape).isOk = true := by
    have hs := sendable_of_ensureF32Cpu (hsend 0)
    rwa [Tensor.sendable_iff, hx 0] at hs
  have hsum : (rootFold Tensor.plus 0 x).shape = shape := Tensor.rootFold_shape hx 0
  have htransposed := Group.transposed_shape hdiv hx hwidth
  refine ⟨rootFold Tensor.plus 0 x, hsum, ?_,
    ⟨fun r => Group.shard (rootFold Tensor.plus 0 x) axis r, ?_, ?_⟩, ?_, fun w hw => ?_,
    ⟨Group.transposed x axis, ?_, fun r s => ?_⟩, ?_⟩
  · obtain ⟨os, traces, h⟩ := Group.allReduce_together (g := g) hx hcount hstate (by omega)
    exact Group.returns_of_together h cap
  · obtain ⟨os, traces, h⟩ :=
      Group.reduceScatter_together (g := g) hx hcount hstate hwidth hdiv (by omega)
    exact Group.returns_of_together h cap
  · exact Group.cat_shards hdiv (by rw [hsum, hwidth])
  · obtain ⟨os, last, h⟩ := Group.gathered_together (g := g) hx hcount hstate hwidth hdiv hnext
    exact Group.returns_of_together h cap
  · obtain ⟨os, last, h⟩ := Group.rebroadcast_together (g := g) hx hcount hstate hnext w hw
    exact Group.returns_of_together h cap
  · obtain ⟨os, traces, h⟩ :=
      Group.allToAll_together (g := g) hx hcount hstate hwidth hdiv hcap (by omega)
    exact Group.returns_of_together h cap
  · refine ⟨htransposed r, Group.shard (x s) axis r, ?_, ?_⟩
    · rw [Group.narrow_eq_shard (by rw [htransposed r, hwidth]) hdiv s,
        Group.shard_transposed hdiv hx hwidth]
    · exact Group.narrow_eq_shard (by rw [hx s, hwidth]) hdiv r
  · obtain ⟨os, last, h⟩ := Group.exchanged_together (g := g) hx hcount hstate hwidth hdiv hcap hnext
    exact Group.returns_of_together h cap

theorem collective_laws_pair : ∃ sum : Tensor Nat, sum.shape = [2, 2] ∧
    ∃ y : Rank 2 → Tensor Nat,
      (⟨.tcp, fun _ => id⟩ : Group 2 CollectiveEvent).Returns ⊤ (fun _ => .new)
        (fun r => (⟨.tcp, r, id⟩ : Endpoint 2 CollectiveEvent).reduceScatter
          ⟨[2, 2], [r.val, r.val + 1, r.val + 2, r.val + 3], rfl, by simp, by simp⟩ 1) y ∧
      Tensor.cat ((List.finRange 2).map y) 1 = .ok sum := by
  have hcount : elementCount [2, 2] = .ok 4 := by decide +kernel
  have hcpu : ∀ r : Rank 2, ensureF32Cpu (⟨[2, 2], [r.val, r.val + 1, r.val + 2, r.val + 3], rfl,
      by simp, by simp⟩ : Tensor Nat) = .ok () := fun r => by
    rw [ensureF32Cpu_eq, hcount]
    rfl
  obtain ⟨sum, hshape, -, hscatter, -⟩ := collective_laws
    (⟨.tcp, fun _ => id⟩ : Group 2 CollectiveEvent) (by decide) (by decide)
    (fun r => (⟨[2, 2], [r.val, r.val + 1, r.val + 2, r.val + 3], rfl, by simp, by simp⟩ :
      Tensor Nat)) (fun _ => rfl) (show [2, 2][1]? = some 2 from rfl) (by decide)
    (fun _ => hcpu _) (fun _ => .new) (fun _ => rfl) (by decide) ⊤
  exact ⟨sum, hshape, hscatter⟩

end Dlir.Collectives
