import Dlir.Runtime.Manifest

namespace Dlir.Tensor

open Dlir.Collectives Dlir.Framework Dlir.Math Dlir.Runtime

/-- Failure at a plan, artifact, transport, model, or serialization boundary. -/
inductive TensorParallelError
  | invalidRequest (message : String)
  | placementFailed (rank requiredBytes budgetBytes : Nat)
  | runtime (error : DlirError)
  | collectives (error : CollectivesError)
  | tensor (error : CandleError)
  | json
  | tokenizer (message : String)
  deriving DecidableEq, Repr

/-- Rank-local tensor ranges and logical persistent-state accounting. -/
structure TensorParallelMemoryPlan where
  rank : Nat
  shard : TensorShardPlan
  dtype : PlanDType
  contextCapacity : Nat
  localWeightBytes : Nat
  kvCacheCapacityBytes : Nat
  persistentBytes : Nat
  budgetBytes : Option Nat
  placement : PlacementVerdict
  deriving DecidableEq, Repr

/-- Complete equal tensor partition for one model. -/
structure TensorParallelPartition where
  model : SupportedModelId
  tensorParallel : Nat
  ranks : List TensorParallelMemoryPlan
  architecturalParameters : Nat
  aggregateMaterializedParameters : Nat
  duplicatedParameters : Nat
  deriving DecidableEq, Repr

namespace TensorParallelPartition

/-- The plan of one rank. -/
def planRank (spec : ModelSpec) (tp contextCapacity : Nat) (perRankBudget : Option Nat)
    (headDim rank : Nat) : Except TensorParallelError TensorParallelMemoryPlan := do
  let context ← (ParallelContext.tensorParallel rank tp).mapError .runtime
  let shard ← (planTensorShard spec.config context).mapError .runtime
  let localWeightBytes ← okOr (.invalidRequest "local weight byte overflow")
    (checkedMul shard.localParameters 4)
  let kvCacheCapacityBytes ← okOr (.invalidRequest "KV byte overflow")
    (kvCacheBytes spec.config.numHiddenLayers contextCapacity (spec.config.numKeyValueHeads / tp)
      headDim .f32)
  let persistentBytes ← okOr (.invalidRequest "persistent byte overflow")
    (checkedAdd localWeightBytes kvCacheCapacityBytes)
  pure {
    rank, shard
    dtype := .f32
    contextCapacity, localWeightBytes, kvCacheCapacityBytes, persistentBytes
    budgetBytes := perRankBudget
    placement := match perRankBudget with
      | some budget => if persistentBytes ≤ budget then .fitsPersistentEstimate else .doesNotFit
      | none => .notEvaluated }

/-- The partition of a model by its registry entry. -/
def planSpec (spec : ModelSpec) (tp contextCapacity : Nat) (perRankBudget : Option Nat) :
    Except TensorParallelError TensorParallelPartition := do
  refuse (¬ (2 ≤ tp ∧ tp ≤ 64)) <| .invalidRequest s!"TP must be in 2..=64, got {tp}"
  refuse (contextCapacity = 0 ∨ contextCapacity > spec.config.maxPositionEmbeddings) <|
    .invalidRequest
      s!"context capacity {contextCapacity} is outside 1..={spec.config.maxPositionEmbeddings}"
  let headDim ← spec.config.headDim.mapError .runtime
  let ranks ← (List.range tp).mapM (planRank spec tp contextCapacity perRankBudget headDim)
  -- there are at least two ranks
  let architecturalParameters := (ranks.map (·.shard.architecturalParameters)).headD 0
  let aggregateMaterializedParameters ←
    (u64 (ranks.map (·.shard.localParameters)).sum).mapError .runtime
  refuse (aggregateMaterializedParameters < architecturalParameters) (.runtime .overflow)
  pure {
    model := spec.id
    tensorParallel := tp
    ranks, architecturalParameters, aggregateMaterializedParameters
    duplicatedParameters := aggregateMaterializedParameters - architecturalParameters }

/-- Creates a strict equal F32 partition and optionally compares every rank with one budget. -/
def plan (model : SupportedModelId) (tp contextCapacity : Nat) (perRankBudget : Option Nat) :
    Except TensorParallelError TensorParallelPartition :=
  planSpec model.spec tp contextCapacity perRankBudget

/-- Requires every rank to pass its placement check. -/
def requirePlacement (self : TensorParallelPartition) : Except TensorParallelError Unit :=
  match self.ranks.find? (·.placement = .doesNotFit) with
  -- a failed placement has a budget
  | some rank => .error (.placementFailed rank.rank rank.persistentBytes (rank.budgetBytes.getD 0))
  | none => .ok ()

end TensorParallelPartition

theorem tensorParallel_eq_ok {rank tp : Nat} {context : ParallelContext} :
    ParallelContext.tensorParallel rank tp = .ok context ↔
      rank < tp ∧ context = ⟨rank, tp, 0, 1, 0, 1⟩ := by
  simp only [ParallelContext.tensorParallel, bind_eq_ok, ParallelContext.validate_eq_ok, pure_eq_ok,
    exists_const]
  simp

/-- An accepted context only shards tensors. -/
theorem parallel_eq {config : ModelConfig} {parallel : ParallelContext} {plan : TensorShardPlan}
    (h : planTensorShard config parallel = .ok plan) :
    parallel = ⟨parallel.tpRank, parallel.tpSize, 0, 1, 0, 1⟩ := by
  simp only [planTensorShard, bind_eq_ok, refuse_eq_ok, ParallelContext.validate_eq_ok] at h
  obtain ⟨-, ⟨-, hpp, hep⟩, -, hone, -⟩ := h
  obtain ⟨tpRank, tpSize, ppRank, ppSize, epRank, epSize⟩ := parallel
  simp only [ParallelContext.mk.injEq, true_and]
  dsimp only at hpp hep hone
  omega

section Ranks

variable {spec : ModelSpec} {tp contextCapacity headDim rank : Nat} {perRankBudget : Option Nat}

theorem planRank_ok {memory : TensorParallelMemoryPlan}
    (h : TensorParallelPartition.planRank spec tp contextCapacity perRankBudget headDim rank =
      .ok memory) :
    planTensorShard spec.config ⟨rank, tp, 0, 1, 0, 1⟩ = .ok memory.shard ∧
      kvCacheBytes spec.config.numHiddenLayers contextCapacity (spec.config.numKeyValueHeads / tp)
        headDim .f32 = some memory.kvCacheCapacityBytes := by
  simp only [TensorParallelPartition.planRank, bind_eq_ok, mapError_eq_ok, tensorParallel_eq_ok,
    okOr_eq_ok, pure_eq_ok] at h
  obtain ⟨context, ⟨-, rfl⟩, shard, hshard, weights, -, cache, hcache, persistent, -, rfl⟩ := h
  exact ⟨hshard, hcache⟩

theorem ranks_of_planSpec {partition : TensorParallelPartition}
    (h : TensorParallelPartition.planSpec spec tp contextCapacity perRankBudget = .ok partition) :
    2 ≤ tp ∧ ∃ headDim, spec.config.Heads headDim ∧
      (List.range tp).mapM (TensorParallelPartition.planRank spec tp contextCapacity perRankBudget headDim) =
        .ok partition.ranks := by
  simp only [TensorParallelPartition.planSpec, bind_eq_ok, refuse_eq_ok, mapError_eq_ok,
    ModelConfig.headDim_eq_ok, pure_eq_ok, exists_const, not_not] at h
  obtain ⟨⟨hworld, -⟩, -, headDim, hheads, ranks, hranks, -, -, -, rfl⟩ := h
  exact ⟨hworld, headDim, hheads, hranks⟩

/-- The caches of the ranks make up the cache of a model on one rank. -/
theorem sum_kvCacheCapacityBytes {ranks : List TensorParallelMemoryPlan}
    (hranks : (List.range tp).mapM (TensorParallelPartition.planRank spec tp contextCapacity
      perRankBudget headDim) = .ok ranks) (hdvd : tp ∣ spec.config.numKeyValueHeads) {bytes : Nat}
    (hbytes : kvCacheBytes spec.config.numHiddenLayers contextCapacity spec.config.numKeyValueHeads
      headDim .f32 = some bytes) :
    (ranks.map (·.kvCacheCapacityBytes)).sum = bytes := by
  have hmap := map_eq_of_forall₂ (forall₂_of_mapM hranks) (f := (·.kvCacheCapacityBytes))
    (g := fun _ => 2 * spec.config.numHiddenLayers * contextCapacity *
      (spec.config.numKeyValueHeads / tp) * headDim * PlanDType.f32.bytes) (by
      intro rank memory hmemory
      obtain ⟨-, -, -, -, -, hcache⟩ := kvCacheBytes_eq_some.mp (planRank_ok hmemory).2
      exact hcache)
  obtain ⟨-, -, -, -, -, rfl⟩ := kvCacheBytes_eq_some.mp hbytes
  obtain ⟨k, hk⟩ := hdvd
  rw [hmap, List.map_const', List.sum_replicate_nat, List.length_range, hk]
  rcases Nat.eq_zero_or_pos tp with rfl | hpos
  · simp
  · rw [Nat.mul_div_cancel_left _ hpos]
    ring

end Ranks

section Shards

variable {config : ModelConfig} {parallel : ParallelContext} {plan : TensorShardPlan}

/-- The plans of all ranks, in rank order. -/
def RankPlans (config : ModelConfig) (parallel : ParallelContext) (plans : List TensorShardPlan) :
    Prop :=
  List.Forall₂ (fun rank plan => planTensorShard config { parallel with tpRank := rank } = .ok plan)
    (List.range parallel.tpSize) plans

theorem exists_rankPlans (h : planTensorShard config parallel = .ok plan) :
    ∃ plans, RankPlans config parallel plans := by
  have heach : ∀ rank ∈ List.range parallel.tpSize, ∃ plan',
      planTensorShard config { parallel with tpRank := rank } = .ok plan' :=
    fun rank hrank => planTensorShard_rank h (List.mem_range.mp hrank)
  obtain ⟨plans, hplans⟩ := mapM_ok heach
  exact ⟨plans, forall₂_of_mapM hplans⟩

variable {plans : List TensorShardPlan} {d : Nat}

/-- What the plan of a rank holds, when the heads are known. -/
theorem planned_of_ok (hd : config.Heads d) (h : planTensorShard config parallel = .ok plan) :
    Sharded config parallel d ∧ plan.Planned config parallel d := by
  obtain ⟨d', hsharded, hplanned⟩ := planTensorShard_ok h
  obtain rfl := hd.unique hsharded.heads
  exact ⟨hsharded, hplanned⟩

theorem RankPlans.map_range (hplans : RankPlans config parallel plans)
    {field : TensorShardPlan → ShardRange} {n : Nat}
    (hfield : ∀ {context : ParallelContext} {d : Nat} {plan : TensorShardPlan},
      plan.Planned config context d → field plan = context.range n) :
    plans.map field = (List.range parallel.tpSize).map fun rank =>
      { parallel with tpRank := rank }.range n := by
  apply map_eq_of_forall₂ hplans
  intro rank plan hplan
  obtain ⟨d, -, hplanned⟩ := planTensorShard_ok hplan
  exact hfield hplanned

theorem RankPlans.sum_local (hplans : RankPlans config parallel plans)
    (h : planTensorShard config parallel = .ok plan) :
    (plans.map (·.localParameters)).sum = parallel.tpSize * plan.localParameters := by
  obtain ⟨d, hsharded, hplanned⟩ := planTensorShard_ok h
  have hmap := map_eq_of_forall₂ hplans (f := (·.localParameters))
    (g := fun _ => plan.localParameters) (by
      intro rank plan' hplan'
      rw [(planned_of_ok hsharded.heads hplan').2.rankLocal, hplanned.rankLocal])
  rw [hmap, List.map_const', List.sum_replicate_nat, List.length_range]

/-- The KV head of every query head of a rank. -/
theorem kvHead_mem (h : planTensorShard config parallel = .ok plan) {j : Nat}
    (hj : j < plan.queryHeads.len) :
    plan.kvHeads.start ≤ (plan.queryHeads.start + j) /
        (config.numAttentionHeads / config.numKeyValueHeads) ∧
      (plan.queryHeads.start + j) / (config.numAttentionHeads / config.numKeyValueHeads) <
        plan.kvHeads.stop ∧
      (plan.queryHeads.start + j) / (config.numAttentionHeads / config.numKeyValueHeads) =
        plan.kvHeads.start + j / (plan.queryHeads.len / plan.kvHeads.len) := by
  obtain ⟨d, hsharded, hplanned⟩ := planTensorShard_ok h
  have hlen : ∀ n, (parallel.range n).len = n / parallel.tpSize := by
    intro n
    show (parallel.tpRank + 1) * (n / parallel.tpSize) - parallel.tpRank * (n / parallel.tpSize) = _
    rw [← Nat.sub_mul, Nat.add_sub_cancel_left, Nat.one_mul]
  rw [hplanned.queryHeads, hlen] at hj
  rw [hplanned.queryHeads, hplanned.kvHeads, hlen, hlen, hsharded.group_eq, hsharded.kvHead_eq]
  have hstop : (parallel.range config.numKeyValueHeads).stop =
      (parallel.range config.numKeyValueHeads).start + config.numKeyValueHeads / parallel.tpSize := by
    show (parallel.tpRank + 1) * (config.numKeyValueHeads / parallel.tpSize) =
      parallel.tpRank * (config.numKeyValueHeads / parallel.tpSize) + _
    rw [Nat.add_mul, Nat.one_mul]
  -- the local query heads fill the groups of the local KV heads
  have hgroup : j / (config.numAttentionHeads / config.numKeyValueHeads) <
      config.numKeyValueHeads / parallel.tpSize := by
    apply Nat.div_lt_of_lt_mul
    obtain ⟨g, hg⟩ := hsharded.heads.keys_dvd
    obtain ⟨k, hk⟩ := hsharded.keys_dvd
    rw [hg, Nat.mul_div_cancel_left _ hsharded.heads.keys_pos]
    rw [hg, hk, Nat.mul_assoc, Nat.mul_div_cancel_left _ hsharded.tp_pos] at hj
    rw [hk, Nat.mul_div_cancel_left _ hsharded.tp_pos, Nat.mul_comm]
    exact hj
  rw [hstop]
  exact ⟨Nat.le_add_right _ _, Nat.add_lt_add_left hgroup _, rfl⟩

/-- The plans that a partition is made of. -/
theorem rankPlans_of_mapM {spec : ModelSpec} {tp contextCapacity headDim : Nat}
    {perRankBudget : Option Nat} {ranks : List TensorParallelMemoryPlan} (tpRank : Nat)
    (h : (List.range tp).mapM (TensorParallelPartition.planRank spec tp contextCapacity
      perRankBudget headDim) = .ok ranks) :
    RankPlans spec.config ⟨tpRank, tp, 0, 1, 0, 1⟩ (ranks.map (·.shard)) := by
  apply List.forall₂_map_right_iff.mpr
  exact (forall₂_of_mapM h).imp fun rank memory hmemory => (planRank_ok hmemory).1

/-- The ranks of a tensor-parallel group share out a model: ranges, heads, caches and parameters. -/
theorem tensor_shards_partition (config : ModelConfig) (parallel : ParallelContext)
    (plan : TensorShardPlan) (h : planTensorShard config parallel = .ok plan) :
    ∃ plans, RankPlans config parallel plans ∧
      Partitions config.vocabSize parallel.tpSize (plans.map (·.vocabulary)) ∧
      Partitions config.numAttentionHeads parallel.tpSize (plans.map (·.queryHeads)) ∧
      Partitions config.numKeyValueHeads parallel.tpSize (plans.map (·.kvHeads)) ∧
      Partitions config.intermediateSize parallel.tpSize (plans.map (·.intermediate)) ∧
      (∀ p ∈ plans, ∀ j < p.queryHeads.len,
        p.kvHeads.start ≤ (p.queryHeads.start + j) /
            (config.numAttentionHeads / config.numKeyValueHeads) ∧
          (p.queryHeads.start + j) / (config.numAttentionHeads / config.numKeyValueHeads) <
            p.kvHeads.stop ∧
          (p.queryHeads.start + j) / (config.numAttentionHeads / config.numKeyValueHeads) =
            p.kvHeads.start + j / (p.queryHeads.len / p.kvHeads.len)) ∧
      (KvCache.localConfig config parallel.tpSize).headDim = config.headDim ∧
      (∀ capacity elementBytes cache, KvCache.new config capacity elementBytes = .ok cache →
        ∃ cache', KvCache.newTensorParallel config parallel.tpSize capacity elementBytes =
          .ok cache') ∧
      parallel.tpSize ∣ plan.architecturalParameters - plan.replicatedParameters ∧
      (∀ p ∈ plans, ∃ requests : List Request,
        (requests.map (·.elements parallel.tpSize)).sum = p.localParameters ∧
        ∀ (τ κ : Type) (rotary : ModelConfig → Nat → Except DlirError κ) (source : WeightSource τ)
          (capacity : Nat) (algorithm : AllReduceAlgorithm),
          (TensorParallelLlama.loadFrom rotary source config p.parallel capacity algorithm).Asks
            requests ∧
          (0 < config.vocabSize → source.Answers p.parallel →
            (∃ rope, rotary config capacity = .ok rope) →
            (TensorParallelLlama.loadFrom rotary source config p.parallel capacity
              algorithm).Succeeds fun _ => True)) ∧
      (plans.map (·.localParameters)).sum =
        plan.architecturalParameters + (parallel.tpSize - 1) * plan.replicatedParameters ∧
      (plans.map (·.localParameters)).sum = plan.aggregateMaterializedParameters ∧
      ∀ (spec : ModelSpec) (contextCapacity headDim : Nat) (perRankBudget : Option Nat)
        (ranks : List TensorParallelMemoryPlan), spec.config = config →
        (List.range parallel.tpSize).mapM (TensorParallelPartition.planRank spec parallel.tpSize
          contextCapacity perRankBudget headDim) = .ok ranks →
        (ranks.map (·.shard.architecturalParameters)).headD 0 ≤
          (ranks.map (·.shard.localParameters)).sum ∧
        ∀ budget single, config.headDim = .ok headDim →
          RankMemoryPlan.forModel spec .f32 contextCapacity budget = .ok single →
          (ranks.map (·.kvCacheCapacityBytes)).sum = single.kvCacheCapacityBytes := by
  obtain ⟨d, hsharded, hplanned⟩ := planTensorShard_ok h
  obtain ⟨plans, hplans⟩ := exists_rankPlans h
  have hpos := hsharded.tp_pos
  have htotal := hsharded.sum_local hplanned
  refine ⟨plans, hplans, ?_, ?_, ?_, ?_, ?_, ?_, ?_, ?_, ?_, ?_, ?_, ?_⟩
  · rw [hplans.map_range fun hp => hp.vocabulary]
    exact partitions_range parallel hpos hsharded.vocabulary_dvd
  · rw [hplans.map_range fun hp => hp.queryHeads]
    exact partitions_range parallel hpos hsharded.queries_dvd
  · rw [hplans.map_range fun hp => hp.kvHeads]
    exact partitions_range parallel hpos hsharded.keys_dvd
  · rw [hplans.map_range fun hp => hp.intermediate]
    exact partitions_range parallel hpos hsharded.intermediate_dvd
  · intro p hp j hj
    obtain ⟨rank, -, hrank⟩ := exists_of_forall₂_right hplans hp
    exact kvHead_mem hrank hj
  · rw [ModelConfig.headDim_eq_ok.mpr hsharded.localHeads,
      ModelConfig.headDim_eq_ok.mpr hsharded.heads]
  · intro capacity elementBytes cache hcache
    exact hsharded.cache_ok hcache
  · rw [hplanned.architectural, hplanned.replicated, ModelConfig.parameters_eq, Nat.add_sub_cancel]
    exact hsharded.sharded_dvd
  · intro p hp
    obtain ⟨rank, -, hrank⟩ := exists_of_forall₂_right hplans hp
    obtain ⟨hsharded', hplanned'⟩ := planned_of_ok hsharded.heads hrank
    refine ⟨(shardedWeights config).map (Weight.shardRequest config d), ?_, ?_⟩
    · rw [List.map_map]
      exact sum_shardedWeights hsharded' hplanned'
    · intro τ κ rotary source capacity algorithm
      rw [hplanned'.parallel_eq]
      refine ⟨asks_sharded source rotary hrank hsharded.heads capacity, ?_⟩
      rintro hvocab hsource ⟨rope, hrope⟩
      exact succeeds_sharded hrank hvocab hsource hrope
  · rw [hplans.sum_local h, htotal]
  · rw [hplans.sum_local h, hplanned.aggregate, Nat.mul_comm]
  · rintro spec contextCapacity headDim perRankBudget ranks rfl hranks
    constructor
    · have hall : RankPlans spec.config parallel (ranks.map (·.shard)) := by
        rw [parallel_eq h]
        exact rankPlans_of_mapM parallel.tpRank hranks
      have hsum := hall.sum_local h
      rw [List.map_map, htotal] at hsum
      have hfirst : ∀ memory ∈ ranks,
          memory.shard.architecturalParameters = plan.architecturalParameters := by
        intro memory hmemory
        obtain ⟨rank, -, hrank⟩ := exists_of_forall₂_right hall (List.mem_map_of_mem hmemory)
        rw [(planned_of_ok hsharded.heads hrank).2.architectural, hplanned.architectural]
      show _ ≤ (ranks.map ((·.localParameters) ∘ (·.shard))).sum
      rw [hsum]
      cases ranks with
      | nil => exact Nat.zero_le _
      | cons memory ranks =>
        rw [List.map_cons, List.headD_cons, hfirst memory List.mem_cons_self]
        exact Nat.le_add_right _ _
    · intro budget single hheads hsingle
      obtain ⟨d', hplan'⟩ := RankMemoryPlan.accepted_of_forModel hsingle
      have hheads' := ModelConfig.headDim_eq_ok.mp hheads
      obtain rfl := hheads'.unique hplan'.heads
      exact sum_kvCacheCapacityBytes hranks hsharded.keys_dvd hplan'.cache

theorem tensor_shards_partition_smol : ∃ plan plans,
    planTensorShard SupportedModelId.smolLm2_135MInstruct.spec.config ⟨1, 3, 0, 1, 0, 1⟩ = .ok plan ∧
    RankPlans SupportedModelId.smolLm2_135MInstruct.spec.config ⟨1, 3, 0, 1, 0, 1⟩ plans ∧
    (plans.map (·.localParameters)).sum =
      plan.architecturalParameters + 2 * plan.replicatedParameters := by
  have haccepted : ∃ plan, planTensorShard SupportedModelId.smolLm2_135MInstruct.spec.config
      ⟨1, 3, 0, 1, 0, 1⟩ = .ok plan := ok_of_toBool (by decide +kernel)
  obtain ⟨plan, hplan⟩ := haccepted
  obtain ⟨plans, hplans, -, -, -, -, -, -, -, -, -, hsum, -⟩ := tensor_shards_partition _ _ plan hplan
  exact ⟨plan, plans, hplan, hplans, hsum⟩

end Shards

end Dlir.Tensor
