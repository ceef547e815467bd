import Dlir.Math.Intervals
import Dlir.Runtime.Memory

namespace Dlir.Runtime

open Dlir.Framework Dlir.Math

/-- Coordinates of one rank in the tensor, pipeline and expert dimensions. -/
structure ParallelContext where
  tpRank : Nat
  tpSize : Nat
  ppRank : Nat
  ppSize : Nat
  epRank : Nat
  epSize : Nat
  deriving DecidableEq, Repr

namespace ParallelContext

/-- Validates nonzero group sizes and rank bounds. -/
def validate (self : ParallelContext) : Except DlirError Unit :=
  [("tensor", self.tpRank, self.tpSize), ("pipeline", self.ppRank, self.ppSize),
    ("expert", self.epRank, self.epSize)].forM fun (name, rank, size) =>
    refuse (size = 0 ∨ rank ≥ size) <| .invalidConfig
      s!"{name} rank {rank} is outside group size {size}"

/-- The context of a rank that only shards tensors. -/
def tensorParallel (tpRank tpSize : Nat) : Except DlirError ParallelContext := do
  let context : ParallelContext := ⟨tpRank, tpSize, 0, 1, 0, 1⟩
  context.validate
  pure context

end ParallelContext

/-- Half-open equal shard range within one global tensor dimension. -/
structure ShardRange where
  start : Nat
  stop : Nat
  deriving DecidableEq, Repr

def ShardRange.len (self : ShardRange) : Nat := self.stop - self.start

/-- Exact model-dimension shard assignment for one tensor rank. -/
structure TensorShardPlan where
  parallel : ParallelContext
  vocabulary : ShardRange
  queryHeads : ShardRange
  kvHeads : ShardRange
  intermediate : ShardRange
  architecturalParameters : Nat
  localParameters : Nat
  replicatedParameters : Nat
  aggregateMaterializedParameters : Nat
  deriving DecidableEq, Repr

/-- The share of a dimension that a rank has. -/
def ParallelContext.range (self : ParallelContext) (length : Nat) : ShardRange where
  start := self.tpRank * (length / self.tpSize)
  stop := (self.tpRank + 1) * (length / self.tpSize)

/-- Validates strict equal sharding and constructs one rank's exact ranges and parameter plan. -/
def planTensorShard (config : ModelConfig) (parallel : ParallelContext) :
    Except DlirError TensorShardPlan := do
  parallel.validate
  refuse (parallel.ppSize ≠ 1 ∨ parallel.epSize ≠ 1) <| .invalidConfig "v0.5 requires PP=1 and EP=1"
  let tp := parallel.tpSize
  [("vocabulary size", config.vocabSize), ("hidden width", config.hiddenSize),
    ("intermediate width", config.intermediateSize), ("query heads", config.numAttentionHeads),
    ("KV heads", config.numKeyValueHeads)].forM fun (name, value) =>
    refuse (value % tp ≠ 0) <| .invalidConfig s!"{name} {value} is not divisible by TP={tp}"
  let d ← config.headDim
  let h := config.hiddenSize
  let i := config.intermediateSize
  let v := config.vocabSize
  let k := config.numKeyValueHeads
  let l := config.numHiddenLayers
  let embeddings ← u64 (v * h)
  let attention ← u64 (h * h + (← u64 (2 * k)) * d * h + h * h)
  let mlp ← u64 (3 * h * i)
  let replicatedParameters ← u64 ((← u64 (2 * l)) * h + h)
  let lmHead ← u64 (if config.tieWordEmbeddings then 0 else v * h)
  let architecturalParameters ←
    u64 (embeddings + l * (← u64 (attention + mlp + 2 * h)) + h + lmHead)
  -- the replicated norms are part of the total
  let shardedParameters := architecturalParameters - replicatedParameters
  let localParameters ← u64 (shardedParameters / tp + replicatedParameters)
  let aggregateMaterializedParameters ← u64 (localParameters * tp)
  pure {
    parallel
    vocabulary := parallel.range v
    queryHeads := parallel.range config.numAttentionHeads
    kvHeads := parallel.range k
    intermediate := parallel.range i
    architecturalParameters, localParameters, replicatedParameters,
    aggregateMaterializedParameters }

/-- Key and value storage of one layer. Of the zero-filled tensors the shape is kept. -/
structure LayerKvCache where
  keys : List Nat
  values : List Nat
  length : Nat
  capacity : Nat
  deriving DecidableEq, Repr

/-- A zero-filled tensor; its bytes have to be addressable. -/
def zeros (shape : List Nat) (elementBytes : Nat) : Except DlirError (List Nat) := do
  let _ ← u64 (shape.prod * elementBytes)
  pure shape

def LayerKvCache.new (config : ModelConfig) (capacity elementBytes : Nat) :
    Except DlirError LayerKvCache := do
  let shape := [1, config.numKeyValueHeads, capacity, ← config.headDim]
  let keys ← zeros shape elementBytes
  let values ← zeros shape elementBytes
  pure ⟨keys, values, 0, capacity⟩

/-- Preallocated per-layer key and value state for one autoregressive sequence. -/
structure KvCache where
  layers : List LayerKvCache
  capacity : Nat
  deriving DecidableEq, Repr

namespace KvCache

/-- Allocates cache storage for only `layerCount` transformer layers. -/
def newForLayers (config : ModelConfig) (layerCount capacity elementBytes : Nat) :
    Except DlirError KvCache := do
  refuse (layerCount = 0 ∨ layerCount > config.numHiddenLayers) <| .invalidConfig
    s!"cache layer count must be between 1 and {config.numHiddenLayers}, got {layerCount}"
  refuse (capacity = 0 ∨ capacity > config.maxPositionEmbeddings) <| .invalidConfig
    s!"cache capacity {capacity} is outside model context 1..={config.maxPositionEmbeddings}"
  let layers ← (List.range layerCount).mapM fun _ => LayerKvCache.new config capacity elementBytes
  pure ⟨layers, capacity⟩

/-- Allocates zero-filled key and value tensors for every registered transformer layer. -/
def new (config : ModelConfig) (capacity elementBytes : Nat) : Except DlirError KvCache := do
  refuse (capacity = 0 ∨ capacity > config.maxPositionEmbeddings) <| .invalidConfig
    s!"cache capacity {capacity} is outside model context 1..={config.maxPositionEmbeddings}"
  newForLayers config config.numHiddenLayers capacity elementBytes

/-- The widths of a rank's share. -/
def localConfig (config : ModelConfig) (tpSize : Nat) : ModelConfig :=
  { config with
    hiddenSize := config.hiddenSize / tpSize
    numAttentionHeads := config.numAttentionHeads / tpSize
    numKeyValueHeads := config.numKeyValueHeads / tpSize }

/-- Allocates every transformer layer while storing only this rank's compact KV heads. -/
def newTensorParallel (config : ModelConfig) (tpSize capacity elementBytes : Nat) :
    Except DlirError KvCache := do
  refuse (tpSize = 0 ∨ config.numKeyValueHeads % tpSize ≠ 0) <| .invalidConfig
    s!"{config.numKeyValueHeads} KV heads cannot be divided across TP={tpSize}"
  new (localConfig config tpSize) capacity elementBytes

end KvCache

theorem ParallelContext.validate_eq_ok {parallel : ParallelContext} {u : Unit} :
    parallel.validate = .ok u ↔ parallel.tpRank < parallel.tpSize ∧
      parallel.ppRank < parallel.ppSize ∧ parallel.epRank < parallel.epSize := by
  simp only [validate, forM_eq_ok, refuse_eq_ok, List.forall_mem_cons, List.not_mem_nil]
  simp only [false_imp_iff, implies_true, and_true]
  omega

/-- What a rank's context and a model have to satisfy to be sharded. -/
structure Sharded (config : ModelConfig) (parallel : ParallelContext) (d : Nat) : Prop where
  rank_lt : parallel.tpRank < parallel.tpSize
  vocabulary_dvd : parallel.tpSize ∣ config.vocabSize
  hidden_dvd : parallel.tpSize ∣ config.hiddenSize
  intermediate_dvd : parallel.tpSize ∣ config.intermediateSize
  queries_dvd : parallel.tpSize ∣ config.numAttentionHeads
  keys_dvd : parallel.tpSize ∣ config.numKeyValueHeads
  heads : config.Heads d

/-- RMSNorm parameters, of which every rank has a copy. -/
def ModelConfig.replicated (config : ModelConfig) : Nat :=
  2 * config.numHiddenLayers * config.hiddenSize + config.hiddenSize

/-- What a shard plan holds. -/
structure TensorShardPlan.Planned (config : ModelConfig) (parallel : ParallelContext) (d : Nat)
    (plan : TensorShardPlan) : Prop where
  parallel_eq : plan.parallel = parallel
  vocabulary : plan.vocabulary = parallel.range config.vocabSize
  queryHeads : plan.queryHeads = parallel.range config.numAttentionHeads
  kvHeads : plan.kvHeads = parallel.range config.numKeyValueHeads
  intermediate : plan.intermediate = parallel.range config.intermediateSize
  architectural : plan.architecturalParameters = config.parameters d
  replicated : plan.replicatedParameters = config.replicated
  rankLocal : plan.localParameters =
    (config.parameters d - config.replicated) / parallel.tpSize + config.replicated
  aggregate : plan.aggregateMaterializedParameters = plan.localParameters * parallel.tpSize

theorem planTensorShard_ok {config : ModelConfig} {parallel : ParallelContext}
    {plan : TensorShardPlan} (h : planTensorShard config parallel = .ok plan) :
    ∃ d, Sharded config parallel d ∧ plan.Planned config parallel d := by
  simp only [planTensorShard, forM_eq_ok, bind_eq_ok, refuse_eq_ok, pure_eq_ok, List.forall_mem_cons,
    ParallelContext.validate_eq_ok, ModelConfig.headDim_eq_ok, u64_eq_ok, exists_const, not_not] at h
  obtain ⟨⟨hrank, -, -⟩, -, ⟨hvocab, hhidden, hinter, hquery, hkey, -⟩, d, hd, e, ⟨-, rfl⟩, k,
    ⟨-, rfl⟩, a, ⟨-, rfl⟩, m, ⟨-, rfl⟩, l, ⟨-, rfl⟩, n, ⟨-, rfl⟩, head, ⟨-, rfl⟩, block, ⟨-, rfl⟩,
    total, ⟨-, rfl⟩, own, ⟨-, rfl⟩, all, ⟨-, rfl⟩, rfl⟩ := h
  have htotal : config.parameters d = config.vocabSize * config.hiddenSize +
      config.numHiddenLayers * (config.hiddenSize * config.hiddenSize +
        2 * config.numKeyValueHeads * d * config.hiddenSize +
        config.hiddenSize * config.hiddenSize + 3 * config.hiddenSize * config.intermediateSize +
        2 * config.hiddenSize) + config.hiddenSize +
      if config.tieWordEmbeddings then 0 else config.vocabSize * config.hiddenSize := by
    unfold ModelConfig.parameters ModelConfig.perBlock
    ring
  refine ⟨d, ⟨hrank, Nat.dvd_of_mod_eq_zero hvocab, Nat.dvd_of_mod_eq_zero hhidden,
    Nat.dvd_of_mod_eq_zero hinter, Nat.dvd_of_mod_eq_zero hquery, Nat.dvd_of_mod_eq_zero hkey, hd⟩,
    rfl, rfl, rfl, rfl, rfl, htotal.symm, rfl, ?_, rfl⟩
  rw [htotal]
  rfl

/-- The contexts that are accepted with one are those of the other ranks. -/
theorem planTensorShard_rank {config : ModelConfig} {parallel : ParallelContext}
    {plan : TensorShardPlan} (h : planTensorShard config parallel = .ok plan) {rank : Nat}
    (hrank : rank < parallel.tpSize) :
    ∃ plan', planTensorShard config { parallel with tpRank := rank } = .ok plan' := by
  simp only [planTensorShard, forM_eq_ok, bind_eq_ok, refuse_eq_ok, pure_eq_ok,
    ParallelContext.validate_eq_ok, exists_const] at h ⊢
  obtain ⟨⟨-, hpp, hep⟩, hone, hdvd, d, hd, e, he, k, hk, a, ha, m, hm, l, hl, n, hn, head, hhead,
    block, hblock, total, htotal, own, hown, all, hall, -⟩ := h
  exact ⟨_, ⟨hrank, hpp, hep⟩, hone, hdvd, d, hd, e, he, k, hk, a, ha, m, hm, l, hl, n, hn, head, hhead,
    block, hblock, total, htotal, own, hown, all, hall, rfl⟩

section Ranges

variable {n tp : Nat}

/-- Equal consecutive ranges, one for each rank, that take every index of a dimension once. -/
structure Partitions (n tp : Nat) (ranges : List ShardRange) : Prop where
  count : ranges.length = tp
  equal : ∀ range ∈ ranges, range.start + n / tp = range.stop
  first : ∀ range, ranges[0]? = some range → range.start = 0
  contiguous : ∀ (rank : Nat) range next, ranges[rank]? = some range →
    ranges[rank + 1]? = some next → next.start = range.stop
  last : ∀ range, ranges[tp - 1]? = some range → range.stop = n
  once : ∀ index < n, ∃! rank : Nat, ∃ range, ranges[rank]? = some range ∧ range.start ≤ index ∧
    index < range.stop

theorem partitions_range (parallel : ParallelContext) (htp : 0 < parallel.tpSize)
    (hdvd : parallel.tpSize ∣ n) :
    Partitions n parallel.tpSize ((List.range parallel.tpSize).map fun rank =>
      { parallel with tpRank := rank }.range n) := by
  have hget : ∀ {rank : Nat} {range : ShardRange}, ((List.range parallel.tpSize).map fun rank =>
      { parallel with tpRank := rank }.range n)[rank]? = some range ↔ rank < parallel.tpSize ∧
        range = ⟨rank * (n / parallel.tpSize), (rank + 1) * (n / parallel.tpSize)⟩ := by
    intro rank range
    by_cases hlt : rank < parallel.tpSize
    · simp [ParallelContext.range, hlt, eq_comm]
    · simp [hlt]
  have hend : parallel.tpSize * (n / parallel.tpSize) = n := Nat.mul_div_cancel' hdvd
  refine ⟨by simp, ?_, ?_, ?_, ?_, ?_⟩
  · intro range hrange
    obtain ⟨rank, -, rfl⟩ := List.mem_map.mp hrange
    show rank * (n / parallel.tpSize) + n / parallel.tpSize = (rank + 1) * (n / parallel.tpSize)
    rw [Nat.add_mul, Nat.one_mul]
  · intro range hrange
    obtain ⟨-, rfl⟩ := hget.mp hrange
    exact Nat.zero_mul _
  · intro rank range next hrange hnext
    obtain ⟨-, rfl⟩ := hget.mp hrange
    obtain ⟨-, rfl⟩ := hget.mp hnext
    rfl
  · intro range hrange
    obtain ⟨-, rfl⟩ := hget.mp hrange
    show (parallel.tpSize - 1 + 1) * (n / parallel.tpSize) = n
    rw [Nat.sub_add_cancel htp, hend]
  · intro index hindex
    have hmono : Monotone fun rank => rank * (n / parallel.tpSize) :=
      fun _ _ hle => Nat.mul_le_mul_right _ hle
    obtain ⟨rank, ⟨hrank, hblock⟩, hunique⟩ :=
      existsUnique_block hmono (Nat.zero_mul _) hend hindex
    refine ⟨rank, ⟨_, hget.mpr ⟨hrank, rfl⟩, hblock⟩, ?_⟩
    rintro rank' ⟨range, hrange, hblock'⟩
    obtain ⟨hrank', rfl⟩ := hget.mp hrange
    exact hunique rank' ⟨hrank', hblock'⟩

end Ranges

namespace Sharded

variable {config : ModelConfig} {parallel : ParallelContext} {d : Nat}

theorem tp_pos (h : Sharded config parallel d) : 0 < parallel.tpSize :=
  Nat.lt_of_le_of_lt (Nat.zero_le _) h.rank_lt

/-- The ranks have the heads of the local configuration, in groups as large as before. -/
theorem group_eq (h : Sharded config parallel d) :
    config.numAttentionHeads / parallel.tpSize / (config.numKeyValueHeads / parallel.tpSize) =
      config.numAttentionHeads / config.numKeyValueHeads := by
  obtain ⟨q, hq⟩ := h.queries_dvd
  obtain ⟨k, hk⟩ := h.keys_dvd
  rw [hq, hk, Nat.mul_div_cancel_left _ h.tp_pos, Nat.mul_div_cancel_left _ h.tp_pos,
    Nat.mul_div_mul_left _ _ h.tp_pos]

/-- The KV head of a rank's query head is on the same rank. -/
theorem kvHead_eq (h : Sharded config parallel d) (j : Nat) :
    ((parallel.range config.numAttentionHeads).start + j) /
        (config.numAttentionHeads / config.numKeyValueHeads) =
      (parallel.range config.numKeyValueHeads).start +
        j / (config.numAttentionHeads / config.numKeyValueHeads) := by
  have hgroup := h.group_eq
  obtain ⟨q, hq⟩ := h.queries_dvd
  obtain ⟨k, hk⟩ := h.keys_dvd
  obtain ⟨g, hg⟩ := h.heads.keys_dvd
  have hkeys := h.heads.keys_pos
  have hg' : config.numAttentionHeads / config.numKeyValueHeads = g := by
    rw [hg, Nat.mul_div_cancel_left _ hkeys]
  have hgpos : 0 < g := by
    rcases Nat.eq_zero_or_pos g with rfl | hpos
    · have := h.heads.queries_pos
      rw [hg, Nat.mul_zero] at this
      exact absurd this (Nat.lt_irrefl 0)
    · exact hpos
  have hq' : config.numAttentionHeads / parallel.tpSize =
      config.numKeyValueHeads / parallel.tpSize * g := by
    rw [hg, hk, Nat.mul_assoc, Nat.mul_div_cancel_left _ h.tp_pos,
      Nat.mul_div_cancel_left _ h.tp_pos]
  show (parallel.tpRank * (config.numAttentionHeads / parallel.tpSize) + j) / _ =
    parallel.tpRank * (config.numKeyValueHeads / parallel.tpSize) + _
  rw [hg', hq', ← Nat.mul_assoc, Nat.add_comm, Nat.add_mul_div_right _ _ hgpos, Nat.add_comm]

/-- The local widths have heads of the same width. -/
theorem localHeads (h : Sharded config parallel d) :
    (KvCache.localConfig config parallel.tpSize).Heads d := by
  obtain ⟨q, hq⟩ := h.queries_dvd
  obtain ⟨k, hk⟩ := h.keys_dvd
  have hqueries := h.heads.queries_pos
  have hkeys := h.heads.keys_pos
  have hhidden := h.heads.hidden_eq
  have hdvd := h.heads.keys_dvd
  rw [hq] at hqueries hhidden hdvd
  rw [hk] at hkeys hdvd
  refine ⟨?_, ?_, ?_, ?_⟩
  · show 0 < config.numAttentionHeads / parallel.tpSize
    rw [hq, Nat.mul_div_cancel_left _ h.tp_pos]
    exact Nat.pos_of_mul_pos_left hqueries
  · show 0 < config.numKeyValueHeads / parallel.tpSize
    rw [hk, Nat.mul_div_cancel_left _ h.tp_pos]
    exact Nat.pos_of_mul_pos_left hkeys
  · show config.hiddenSize / parallel.tpSize = config.numAttentionHeads / parallel.tpSize * d
    rw [hhidden, hq, Nat.mul_assoc, Nat.mul_div_cancel_left _ h.tp_pos,
      Nat.mul_div_cancel_left _ h.tp_pos]
  · show config.numKeyValueHeads / parallel.tpSize ∣ config.numAttentionHeads / parallel.tpSize
    rw [hq, hk, Nat.mul_div_cancel_left _ h.tp_pos, Nat.mul_div_cancel_left _ h.tp_pos]
    exact Nat.dvd_of_mul_dvd_mul_left h.tp_pos hdvd

end Sharded

/-- Parameters of which every rank has its share only. -/
def ModelConfig.sharded (config : ModelConfig) (d : Nat) : Nat :=
  config.vocabSize * config.hiddenSize +
    config.numHiddenLayers * (2 * config.hiddenSize * config.hiddenSize +
      2 * config.hiddenSize * (config.numKeyValueHeads * d) +
      3 * config.hiddenSize * config.intermediateSize) +
    if config.tieWordEmbeddings then 0 else config.vocabSize * config.hiddenSize

theorem ModelConfig.parameters_eq (config : ModelConfig) (d : Nat) :
    config.parameters d = config.sharded d + config.replicated := by
  unfold parameters perBlock sharded replicated
  ring

namespace Sharded

variable {config : ModelConfig} {parallel : ParallelContext} {d : Nat}

theorem sharded_dvd (h : Sharded config parallel d) : parallel.tpSize ∣ config.sharded d := by
  have hvocab := h.vocabulary_dvd.mul_right config.hiddenSize
  have hhidden := h.hidden_dvd
  unfold ModelConfig.sharded
  refine Nat.dvd_add (Nat.dvd_add hvocab (Dvd.dvd.mul_left ?_ _)) ?_
  · refine Nat.dvd_add (Nat.dvd_add ?_ ?_) ?_
    · exact hhidden.mul_left _
    · exact (hhidden.mul_left 2).mul_right _
    · exact (hhidden.mul_left 3).mul_right _
  · split_ifs
    · exact Nat.dvd_zero _
    · exact hvocab

/-- What the ranks hold together. -/
theorem sum_local (h : Sharded config parallel d) {plan : TensorShardPlan}
    (hplan : plan.Planned config parallel d) :
    parallel.tpSize * plan.localParameters =
      plan.architecturalParameters + (parallel.tpSize - 1) * plan.replicatedParameters := by
  have hpos := h.tp_pos
  rw [hplan.rankLocal, hplan.architectural, hplan.replicated, ModelConfig.parameters_eq,
    Nat.add_sub_cancel, Nat.mul_add, Nat.mul_div_cancel' h.sharded_dvd, Nat.add_assoc, Nat.sub_mul,
    Nat.one_mul, Nat.add_sub_cancel' (Nat.le_mul_of_pos_left _ hpos)]

theorem layerCache_ok (h : Sharded config parallel d) {capacity elementBytes : Nat}
    {layer : LayerKvCache} (hlayer : LayerKvCache.new config capacity elementBytes = .ok layer) :
    ∃ layer', LayerKvCache.new (KvCache.localConfig config parallel.tpSize) capacity elementBytes =
      .ok layer' := by
  simp only [LayerKvCache.new, zeros, bind_eq_ok, u64_eq_ok, pure_eq_ok, ModelConfig.headDim_eq_ok]
    at hlayer ⊢
  obtain ⟨d', hd', keys, ⟨bytes, ⟨hfits, -⟩, -⟩, -⟩ := hlayer
  obtain rfl := h.heads.unique hd'
  have hless : [1, (KvCache.localConfig config parallel.tpSize).numKeyValueHeads, capacity, d].prod *
      elementBytes < 2 ^ 64 := by
    refine lt_of_le_of_lt (Nat.mul_le_mul_right _ ?_) hfits
    simp only [List.prod_cons, List.prod_nil, Nat.mul_one, Nat.one_mul]
    exact Nat.mul_le_mul_right _ (Nat.div_le_self _ _)
  exact ⟨_, d, h.localHeads, _, ⟨_, ⟨hless, rfl⟩, rfl⟩, _, ⟨_, ⟨hless, rfl⟩, rfl⟩, rfl⟩

/-- A rank's share of the cache has room where the whole cache has. -/
theorem cache_ok (h : Sharded config parallel d) {capacity elementBytes : Nat} {cache : KvCache}
    (hcache : KvCache.new config capacity elementBytes = .ok cache) :
    ∃ cache', KvCache.newTensorParallel config parallel.tpSize capacity elementBytes =
      .ok cache' := by
  have hkeys : config.numKeyValueHeads % parallel.tpSize = 0 := Nat.mod_eq_zero_of_dvd h.keys_dvd
  simp only [KvCache.newTensorParallel, KvCache.new, KvCache.newForLayers, bind_eq_ok, refuse_eq_ok,
    pure_eq_ok, exists_const] at hcache ⊢
  obtain ⟨hcapacity, hcount, -, layers, hlayers, -⟩ := hcache
  have hpos := h.tp_pos
  have heach : ∀ index ∈ List.range config.numHiddenLayers, ∃ layer', LayerKvCache.new
      (KvCache.localConfig config parallel.tpSize) capacity elementBytes = .ok layer' := by
    intro index hindex
    obtain ⟨layer, -, hlayer⟩ := exists_of_forall₂_left (forall₂_of_mapM hlayers) hindex
    exact h.layerCache_ok hlayer
  obtain ⟨layers', hlayers'⟩ := mapM_ok heach
  exact ⟨_, by omega, hcapacity, hcount, hcapacity, layers', hlayers', rfl⟩

end Sharded

end Dlir.Runtime
