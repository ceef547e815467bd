import Dlir.Math.Intervals
import Dlir.Pipeline.Protocol
import Dlir.Runtime.Memory
import Mathlib.Algebra.BigOperators.Ring.Finset

namespace Dlir.Pipeline

open Dlir.Framework Dlir.Math Dlir.Runtime

/-- One rank's contiguous pipeline-stage assignment, of layers `layerStart` up to `layerEnd`. -/
structure StageAssignment where
  rank : Nat
  worldSize : Nat
  layerStart : Nat
  layerEnd : Nat
  ownsEmbeddings : Bool
  ownsLmHead : Bool
  duplicatesTiedEmbeddings : Bool
  deriving DecidableEq, Repr

def StageAssignment.layerCount (self : StageAssignment) : Nat := self.layerEnd - self.layerStart

/-- Complete ordered stage assignment for one model and pipeline world. -/
structure PipelinePartition where
  totalLayers : Nat
  stages : List StageAssignment
  deriving DecidableEq, Repr

namespace PipelinePartition

/-- The closure that `balanced` maps over the ranks. Its state is the next free layer. -/
def assign (spec : ModelSpec) (worldSize base remainder rank : Nat) : StateM Nat StageAssignment := do
  let count := base + (decide (rank < remainder)).toNat
  let layerStart ← get
  let layerEnd := layerStart + count
  set layerEnd
  pure {
    rank, worldSize, layerStart, layerEnd
    ownsEmbeddings := rank == 0
    ownsLmHead := rank + 1 == worldSize
    duplicatesTiedEmbeddings := rank + 1 == worldSize && spec.config.tieWordEmbeddings }

/-- Balances contiguous layers, assigning remainders to the lowest ranks. -/
def balanced (spec : ModelSpec) (worldSize : Nat) : Except PipelineError PipelinePartition := do
  refuse (¬ (2 ≤ worldSize ∧ worldSize ≤ 64)) <| .invalidTopology
    s!"world size must be between 2 and 64, got {worldSize}"
  let layers := spec.config.numHiddenLayers
  refuse (worldSize > layers) <| .invalidTopology
    s!"world size {worldSize} exceeds {layers} transformer layers"
  let base := layers / worldSize
  let remainder := layers % worldSize
  let stages := ((List.range worldSize).mapM (assign spec worldSize base remainder)).run 0
  pure ⟨layers, stages.1⟩

def stage (self : PipelinePartition) (rank : Nat) : Except PipelineError StageAssignment :=
  okOr (.invalidTopology s!"partition has no rank {rank}") self.stages[rank]?

end PipelinePartition

/-- Logical persistent-state plan for one pipeline rank. -/
structure StageMemoryPlan where
  rank : Nat
  layerStart : Nat
  layerEnd : Nat
  blockParameters : Nat
  embeddingParameters : Nat
  finalNormParameters : Nat
  lmHeadParameters : Nat
  materializedParameters : Nat
  weightBytes : Nat
  kvCacheCapacityBytes : Nat
  persistentBytes : Nat
  budgetBytes : Nat
  placement : PlacementVerdict
  duplicatesTiedEmbeddings : Bool
  deriving DecidableEq, Repr

/-- Builds a rank-local plan from one assignment and enforced memory limit. -/
def StageMemoryPlan.forStage (spec : ModelSpec) (assignment : StageAssignment) (dtype : PlanDType)
    (contextLength budgetBytes : Nat) : Except PipelineError StageMemoryPlan := do
  refuse (contextLength = 0 ∨ contextLength > spec.config.maxPositionEmbeddings) <| .invalidTopology
    s!"context length {contextLength} is outside model maximum {spec.config.maxPositionEmbeddings}"
  let cfg := spec.config
  let h := cfg.hiddenSize
  let i := cfg.intermediateSize
  let headDim ← cfg.headDim.mapError .runtime
  let kv ← (u64 (cfg.numKeyValueHeads * headDim)).mapError .runtime
  let perBlock ← (u64 (2 * h * h + 2 * h * kv + 3 * h * i + 2 * h)).mapError .runtime
  let blockParameters ← okOr (.invalidTopology "stage parameter overflow")
    (checkedMul perBlock assignment.layerCount)
  let embeddingParameters ←
    (u64 (if assignment.ownsEmbeddings then cfg.vocabSize * h else 0)).mapError .runtime
  let finalNormParameters := assignment.ownsLmHead.toNat * h
  let lmHeadParameters ←
    (u64 (if assignment.ownsLmHead then cfg.vocabSize * h else 0)).mapError .runtime
  let materializedParameters ← okOr (.invalidTopology "stage parameter overflow") <|
    (checkedAdd blockParameters embeddingParameters).bind fun v =>
      (checkedAdd v finalNormParameters).bind fun v => checkedAdd v lmHeadParameters
  let weightBytes ← okOr (.invalidTopology "stage weight overflow")
    (checkedMul materializedParameters dtype.bytes)
  let kvCacheCapacityBytes ← okOr (.invalidTopology "stage KV byte overflow")
    (kvCacheBytes assignment.layerCount contextLength cfg.numKeyValueHeads headDim dtype)
  let persistentBytes ← okOr (.invalidTopology "stage memory overflow")
    (checkedAdd weightBytes kvCacheCapacityBytes)
  pure {
    rank := assignment.rank
    layerStart := assignment.layerStart
    layerEnd := assignment.layerEnd
    blockParameters, embeddingParameters, finalNormParameters, lmHeadParameters,
    materializedParameters, weightBytes, kvCacheCapacityBytes, persistentBytes, budgetBytes
    placement := if persistentBytes ≤ budgetBytes then .fitsPersistentEstimate else .doesNotFit
    duplicatesTiedEmbeddings := assignment.duplicatesTiedEmbeddings }

section Balanced

variable (spec : ModelSpec) (worldSize : Nat)

/-- Where the layers of a stage start. -/
def layerBound (rank : Nat) : Nat :=
  evenBound (spec.config.numHiddenLayers / worldSize) (spec.config.numHiddenLayers % worldSize) rank

/-- The stage of a rank, without the running counter. -/
def stageOf (rank : Nat) : StageAssignment where
  rank := rank
  worldSize := worldSize
  layerStart := layerBound spec worldSize rank
  layerEnd := layerBound spec worldSize (rank + 1)
  ownsEmbeddings := rank == 0
  ownsLmHead := rank + 1 == worldSize
  duplicatesTiedEmbeddings := rank + 1 == worldSize && spec.config.tieWordEmbeddings

variable {spec worldSize}

theorem layerBound_monotone : Monotone (layerBound spec worldSize) := evenBound_monotone _ _

theorem layerBound_zero : layerBound spec worldSize 0 = 0 := by simp [layerBound, evenBound]

theorem layerBound_end (hworld : 0 < worldSize) :
    layerBound spec worldSize worldSize = spec.config.numHiddenLayers := evenBound_end hworld

theorem assign_run (rank : Nat) :
    (PipelinePartition.assign spec worldSize (spec.config.numHiddenLayers / worldSize)
      (spec.config.numHiddenLayers % worldSize) rank).run (layerBound spec worldSize rank) =
      (stageOf spec worldSize rank, layerBound spec worldSize (rank + 1)) := by
  have hend : layerBound spec worldSize (rank + 1) = layerBound spec worldSize rank +
      (spec.config.numHiddenLayers / worldSize +
        (decide (rank < spec.config.numHiddenLayers % worldSize)).toNat) := by
    rw [layerBound, evenBound_succ]
    split_ifs with hr <;> simp [hr, layerBound]
  rw [stageOf, hend]
  rfl

/-- The counter is at the start of the next stage all along. -/
theorem mapM_assign_run (n : Nat) :
    ((List.range n).mapM (PipelinePartition.assign spec worldSize
      (spec.config.numHiddenLayers / worldSize)
      (spec.config.numHiddenLayers % worldSize))).run 0 =
      ((List.range n).map (stageOf spec worldSize), layerBound spec worldSize n) := by
  induction n with
  | zero => rw [layerBound_zero]; rfl
  | succ n ih =>
    rw [List.range_succ, List.mapM_append, List.map_append, StateT.run_bind, ih]
    simp only [List.mapM_cons, List.mapM_nil, StateT.run_bind, StateT.run_pure, pure_bind]
    exact congrArg (fun p : StageAssignment × Nat =>
      ((List.range n).map (stageOf spec worldSize) ++ [p.1], p.2)) (assign_run n)

theorem balanced_eq_ok {partition : PipelinePartition} :
    PipelinePartition.balanced spec worldSize = .ok partition ↔
      (2 ≤ worldSize ∧ worldSize ≤ 64) ∧ worldSize ≤ spec.config.numHiddenLayers ∧
      partition = ⟨spec.config.numHiddenLayers, (List.range worldSize).map (stageOf spec worldSize)⟩ := by
  simp only [PipelinePartition.balanced, bind_eq_ok, refuse_eq_ok, pure_eq_ok, mapM_assign_run,
    not_not, not_lt, exists_const]

theorem layerCount_stageOf (spec : ModelSpec) (worldSize rank : Nat) :
    (stageOf spec worldSize rank).layerCount = spec.config.numHiddenLayers / worldSize +
      if rank < spec.config.numHiddenLayers % worldSize then 1 else 0 := by
  show layerBound spec worldSize (rank + 1) - layerBound spec worldSize rank = _
  rw [layerBound, evenBound_succ]
  exact Nat.add_sub_cancel_left _ _

end Balanced

/-- The stages take consecutive layers, from the first to the last, and none takes two layers more
than another. -/
structure Covers (layers worldSize : Nat) (stages : List StageAssignment) : Prop where
  count : stages.length = worldSize
  nonempty : ∀ stage ∈ stages, stage.layerStart < stage.layerEnd
  first : ∀ stage, stages[0]? = some stage → stage.layerStart = 0
  contiguous : ∀ (rank : Nat) stage next, stages[rank]? = some stage →
    stages[rank + 1]? = some next → next.layerStart = stage.layerEnd
  last : ∀ stage, stages[worldSize - 1]? = some stage → stage.layerEnd = layers
  once : ∀ layer < layers, ∃! rank : Nat, ∃ stage, stages[rank]? = some stage ∧
    stage.layerStart ≤ layer ∧ layer < stage.layerEnd
  nonincreasing : ∀ (rank rank' : Nat) stage stage', rank ≤ rank' → stages[rank]? = some stage →
    stages[rank']? = some stage' → stage'.layerCount ≤ stage.layerCount
  even : ∀ stage ∈ stages, ∀ stage' ∈ stages, stage.layerCount ≤ stage'.layerCount + 1

theorem getElem?_stages {spec : ModelSpec} {worldSize rank : Nat} {stage : StageAssignment} :
    ((List.range worldSize).map (stageOf spec worldSize))[rank]? = some stage ↔
      rank < worldSize ∧ stage = stageOf spec worldSize rank := by
  rw [List.getElem?_map, Option.map_eq_some_iff]
  constructor
  · rintro ⟨r, hr, rfl⟩
    obtain ⟨hlt, rfl⟩ := List.getElem?_eq_some_iff.mp hr
    rw [List.getElem_range]
    exact ⟨by simpa using hlt, rfl⟩
  · rintro ⟨hlt, rfl⟩
    exact ⟨rank, by simp [hlt], rfl⟩

theorem covers_stages {spec : ModelSpec} {worldSize : Nat} (hworld : 2 ≤ worldSize)
    (hlayers : worldSize ≤ spec.config.numHiddenLayers) :
    Covers spec.config.numHiddenLayers worldSize
      ((List.range worldSize).map (stageOf spec worldSize)) := by
  have hbase : 0 < spec.config.numHiddenLayers / worldSize := Nat.div_pos hlayers (by omega)
  refine ⟨by simp, ?_, ?_, ?_, ?_, ?_, ?_, ?_⟩
  · intro stage hstage
    obtain ⟨rank, -, rfl⟩ := List.mem_map.mp hstage
    have hcount := layerCount_stageOf spec worldSize rank
    unfold StageAssignment.layerCount at hcount
    omega
  · intro stage hstage
    obtain ⟨-, rfl⟩ := getElem?_stages.mp hstage
    exact layerBound_zero
  · intro rank stage next hstage hnext
    obtain ⟨-, rfl⟩ := getElem?_stages.mp hstage
    obtain ⟨-, rfl⟩ := getElem?_stages.mp hnext
    rfl
  · intro stage hstage
    obtain ⟨-, rfl⟩ := getElem?_stages.mp hstage
    show layerBound spec worldSize (worldSize - 1 + 1) = _
    rw [Nat.sub_add_cancel (by omega)]
    exact layerBound_end (by omega)
  · intro layer hlayer
    have hend : layerBound spec worldSize worldSize = _ := layerBound_end (by omega)
    obtain ⟨rank, ⟨hrank, hblock⟩, hunique⟩ := existsUnique_block layerBound_monotone
      layerBound_zero hend hlayer
    refine ⟨rank, ⟨_, getElem?_stages.mpr ⟨hrank, rfl⟩, hblock⟩, ?_⟩
    rintro rank' ⟨stage, hstage, hblock'⟩
    obtain ⟨hrank', rfl⟩ := getElem?_stages.mp hstage
    exact hunique rank' ⟨hrank', hblock'⟩
  · intro rank rank' stage stage' hle hstage hstage'
    obtain ⟨-, rfl⟩ := getElem?_stages.mp hstage
    obtain ⟨-, rfl⟩ := getElem?_stages.mp hstage'
    rw [layerCount_stageOf, layerCount_stageOf]
    split_ifs <;> omega
  · intro stage hstage stage' hstage'
    obtain ⟨rank, -, rfl⟩ := List.mem_map.mp hstage
    obtain ⟨rank', -, rfl⟩ := List.mem_map.mp hstage'
    rw [layerCount_stageOf, layerCount_stageOf]
    split_ifs <;> omega

namespace StageMemoryPlan

/-- Parameters of a stage with heads of width `d`. -/
def parameters (cfg : ModelConfig) (d : Nat) (assignment : StageAssignment) : Nat :=
  cfg.perBlock d * assignment.layerCount +
    (if assignment.ownsEmbeddings then cfg.vocabSize * cfg.hiddenSize else 0) +
    assignment.ownsLmHead.toNat * cfg.hiddenSize +
    if assignment.ownsLmHead then cfg.vocabSize * cfg.hiddenSize else 0

variable {spec : ModelSpec} {assignment : StageAssignment} {dtype : PlanDType}
  {contextLength budgetBytes d : Nat} {plan : StageMemoryPlan}

/-- What a stage's plan holds. -/
structure Planned (spec : ModelSpec) (assignment : StageAssignment) (dtype : PlanDType)
    (contextLength d : Nat) (plan : StageMemoryPlan) : Prop where
  materialized : plan.materializedParameters = parameters spec.config d assignment
  cache : kvCacheBytes assignment.layerCount contextLength spec.config.numKeyValueHeads d dtype =
    some plan.kvCacheCapacityBytes
  persistent : plan.persistentBytes =
    plan.materializedParameters * dtype.bytes + plan.kvCacheCapacityBytes

theorem planned_of_forStage (hd : spec.config.Heads d)
    (h : forStage spec assignment dtype contextLength budgetBytes = .ok plan) :
    Planned spec assignment dtype contextLength d plan := by
  simp only [forStage, bind_eq_ok, refuse_eq_ok, okOr_eq_ok, mapError_eq_ok, u64_eq_ok,
    ModelConfig.headDim_eq_ok, Option.bind_eq_some_iff, checkedMul_eq_some, checkedAdd_eq_some,
    pure_eq_ok] at h
  obtain ⟨-, -, d', hd', kv, ⟨-, rfl⟩, block, ⟨-, rfl⟩, blocks, ⟨-, rfl⟩, embeddings, ⟨-, rfl⟩,
    head, ⟨-, rfl⟩, total, ⟨v, ⟨-, rfl⟩, v', ⟨-, rfl⟩, -, rfl⟩, weights, ⟨-, rfl⟩, cache, hcache,
    persistent, ⟨-, rfl⟩, rfl⟩ := h
  obtain rfl := hd.unique hd'
  exact ⟨rfl, hcache, rfl⟩

/-- A stage whose share fits has a plan. -/
theorem forStage_ok {cache : Nat} (hpos : 0 < contextLength)
    (hle : contextLength ≤ spec.config.maxPositionEmbeddings) (hd : spec.config.Heads d)
    (hblock : spec.config.perBlock d < 2 ^ 64)
    (hvocab : spec.config.vocabSize * spec.config.hiddenSize < 2 ^ 64)
    (hcache : kvCacheBytes assignment.layerCount contextLength spec.config.numKeyValueHeads d dtype =
      some cache)
    (hfits : parameters spec.config d assignment * dtype.bytes + cache < 2 ^ 64) :
    ∃ plan, forStage spec assignment dtype contextLength budgetBytes = .ok plan := by
  have hbytes : 0 < dtype.bytes := by cases dtype <;> decide
  have hkv : spec.config.numKeyValueHeads * d < 2 ^ 64 := by
    have hkv := hd.kvSize_le
    unfold ModelConfig.perBlock at hblock
    omega
  have htotal : parameters spec.config d assignment < 2 ^ 64 := by
    have := Nat.le_mul_of_pos_right (parameters spec.config d assignment) hbytes
    omega
  unfold parameters ModelConfig.perBlock at htotal hfits
  unfold ModelConfig.perBlock at hblock
  simp only [forStage, bind_eq_ok, refuse_eq_ok, okOr_eq_ok, mapError_eq_ok, u64_eq_ok,
    ModelConfig.headDim_eq_ok, Option.bind_eq_some_iff, checkedMul_eq_some, checkedAdd_eq_some,
    pure_eq_ok]
  refine ⟨_, (), by omega, d, hd, _, ⟨hkv, rfl⟩, _, ⟨hblock, rfl⟩, _, ⟨by omega, rfl⟩, _, ⟨?_, rfl⟩,
    _, ⟨?_, rfl⟩, _, ⟨_, ⟨by omega, rfl⟩, _, ⟨by omega, rfl⟩, by omega, rfl⟩, _, ⟨by omega, rfl⟩, _,
    hcache, _, ⟨hfits, rfl⟩, rfl⟩
  · split_ifs <;> omega
  · split_ifs <;> omega

end StageMemoryPlan

section Conservation

variable {spec : ModelSpec} {worldSize : Nat}

theorem sum_layerCount (hworld : 0 < worldSize) :
    ∑ rank ∈ Finset.range worldSize, (stageOf spec worldSize rank).layerCount =
      spec.config.numHiddenLayers := by
  calc ∑ rank ∈ Finset.range worldSize, (stageOf spec worldSize rank).layerCount
      = layerBound spec worldSize worldSize - layerBound spec worldSize 0 :=
        Finset.sum_range_tsub layerBound_monotone worldSize
    _ = spec.config.numHiddenLayers := by
        rw [layerBound_end hworld, layerBound_zero, Nat.sub_zero]

/-- The stages hold the parameters of the model, and a tied table of embeddings twice. -/
theorem sum_parameters (hworld : 0 < worldSize) (d : Nat) :
    (((List.range worldSize).map (stageOf spec worldSize)).map
      (StageMemoryPlan.parameters spec.config d)).sum = spec.config.parameters d +
      if spec.config.tieWordEmbeddings then spec.config.vocabSize * spec.config.hiddenSize else 0 := by
  have hfirst : ∀ x, ∑ rank ∈ Finset.range worldSize,
      (if (stageOf spec worldSize rank).ownsEmbeddings then x else 0) = x := by
    intro x
    simp [stageOf, hworld]
  have hlast : ∀ x, ∑ rank ∈ Finset.range worldSize,
      (if (stageOf spec worldSize rank).ownsLmHead then x else 0) = x := by
    intro x
    obtain ⟨n, rfl⟩ := Nat.exists_eq_succ_of_ne_zero hworld.ne'
    simp [stageOf]
  have hnorm : ∀ rank, (stageOf spec worldSize rank).ownsLmHead.toNat * spec.config.hiddenSize =
      if (stageOf spec worldSize rank).ownsLmHead then spec.config.hiddenSize else 0 := by
    intro rank
    split_ifs with hr <;> simp [hr]
  rw [List.map_map]
  show ∑ rank ∈ Finset.range worldSize,
    StageMemoryPlan.parameters spec.config d (stageOf spec worldSize rank) = _
  simp only [StageMemoryPlan.parameters, Finset.sum_add_distrib, ← Finset.mul_sum, hfirst, hlast,
    hnorm, sum_layerCount hworld]
  unfold ModelConfig.parameters
  split_ifs <;> ring

theorem sum_cache (hworld : 0 < worldSize) (context kvHeads d bytes : Nat) :
    (((List.range worldSize).map (stageOf spec worldSize)).map fun stage =>
      2 * stage.layerCount * context * kvHeads * d * bytes).sum =
      2 * spec.config.numHiddenLayers * context * kvHeads * d * bytes := by
  rw [List.map_map]
  show ∑ rank ∈ Finset.range worldSize,
    2 * (stageOf spec worldSize rank).layerCount * context * kvHeads * d * bytes = _
  rw [← sum_layerCount hworld]
  simp only [Finset.mul_sum, Finset.sum_mul]

/-- The plans of the stages, whatever the limits of the ranks are. -/
def StagePlans (spec : ModelSpec) (dtype : PlanDType) (contextLength : Nat)
    (stages : List StageAssignment) (plans : List StageMemoryPlan) : Prop :=
  List.Forall₂ (fun stage plan => ∃ budgetBytes,
    StageMemoryPlan.forStage spec stage dtype contextLength budgetBytes = .ok plan) stages plans

section Plans

variable {dtype : PlanDType} {contextLength d : Nat} {plans : List StageMemoryPlan}
  (hplans : StagePlans spec dtype contextLength
    ((List.range worldSize).map (stageOf spec worldSize)) plans)
include hplans

theorem StagePlans.sum_materialized (hworld : 0 < worldSize) (hd : spec.config.Heads d) :
    (plans.map (·.materializedParameters)).sum = spec.config.parameters d +
      if spec.config.tieWordEmbeddings then spec.config.vocabSize * spec.config.hiddenSize else 0 := by
  rw [← sum_parameters hworld]
  congr 1
  apply map_eq_of_forall₂ hplans
  rintro stage plan ⟨budgetBytes, hplan⟩
  exact (StageMemoryPlan.planned_of_forStage hd hplan).materialized

theorem StagePlans.sum_kvCacheCapacityBytes (hworld : 0 < worldSize) (hd : spec.config.Heads d)
    {bytes : Nat} (hcache : kvCacheBytes spec.config.numHiddenLayers contextLength
      spec.config.numKeyValueHeads d dtype = some bytes) :
    (plans.map (·.kvCacheCapacityBytes)).sum = bytes := by
  obtain ⟨-, -, -, -, -, rfl⟩ := kvCacheBytes_eq_some.mp hcache
  rw [← sum_cache hworld]
  congr 1
  apply map_eq_of_forall₂ hplans
  rintro stage plan ⟨budgetBytes, hplan⟩
  have hstage := (StageMemoryPlan.planned_of_forStage hd hplan).cache
  obtain ⟨-, -, -, -, -, hbytes⟩ := kvCacheBytes_eq_some.mp hstage
  exact hbytes

theorem StagePlans.sum_persistentBytes (hd : spec.config.Heads d) :
    (plans.map (·.persistentBytes)).sum = (plans.map (·.materializedParameters)).sum * dtype.bytes +
      (plans.map (·.kvCacheCapacityBytes)).sum := by
  have hmap : plans.map (·.persistentBytes) =
      plans.map fun plan => plan.materializedParameters * dtype.bytes + plan.kvCacheCapacityBytes := by
    apply List.map_congr_left
    intro plan hplan
    obtain ⟨stage, -, budgetBytes, hstage⟩ := exists_of_forall₂_right hplans hplan
    exact (StageMemoryPlan.planned_of_forStage hd hstage).persistent
  rw [hmap, List.sum_map_add, List.sum_map_mul_right]

end Plans

/-- A model that fits one rank's arithmetic fits that of every stage. -/
theorem forStage_of_forModel {dtype : PlanDType} {contextLength rank budgetBytes : Nat}
    {budget : Option MemoryBudget} {plan : RankMemoryPlan} (hworld : 2 ≤ worldSize)
    (hlayers : worldSize ≤ spec.config.numHiddenLayers) (hrank : rank < worldSize)
    (h : RankMemoryPlan.forModel spec dtype contextLength budget = .ok plan) :
    ∃ stagePlan, StageMemoryPlan.forStage spec (stageOf spec worldSize rank) dtype contextLength
      budgetBytes = .ok stagePlan := by
  obtain ⟨d, hplan⟩ := RankMemoryPlan.accepted_of_forModel h
  have hcount : (stageOf spec worldSize rank).layerCount ≤ spec.config.numHiddenLayers := by
    have hle : layerBound spec worldSize (rank + 1) ≤ layerBound spec worldSize worldSize :=
      layerBound_monotone hrank
    rw [layerBound_end (by omega)] at hle
    exact (Nat.sub_le _ _).trans hle
  obtain ⟨cache, hcache, hcacheLe⟩ := kvCacheBytes_of_le hcount hplan.cache
  have hblocks : spec.config.perBlock d * (stageOf spec worldSize rank).layerCount ≤
      spec.config.numHiddenLayers * spec.config.perBlock d := by
    rw [Nat.mul_comm]
    exact Nat.mul_le_mul_right _ hcount
  -- no rank is both the first and the last, so none holds the table of embeddings twice
  have hparameters : StageMemoryPlan.parameters spec.config d (stageOf spec worldSize rank) ≤
      spec.config.parameters d := by
    have hnorm : (stageOf spec worldSize rank).ownsLmHead.toNat * spec.config.hiddenSize ≤
        spec.config.hiddenSize := by
      cases (stageOf spec worldSize rank).ownsLmHead <;> simp
    have hone : ¬ ((stageOf spec worldSize rank).ownsEmbeddings = true ∧
        (stageOf spec worldSize rank).ownsLmHead = true) := by
      simp only [stageOf, beq_iff_eq]
      omega
    unfold StageMemoryPlan.parameters ModelConfig.parameters
    split_ifs at * <;> simp_all <;> omega
  have hweights := Nat.mul_le_mul_right dtype.bytes hparameters
  have hfits := hplan.fits
  rw [hplan.persistent, hplan.weights] at hfits
  have htotal : spec.config.parameters d < 2 ^ 64 := by
    obtain ⟨hlt, heq⟩ := u64_eq_ok.mp hplan.total
    rwa [heq]
  have hblock : spec.config.perBlock d ≤ spec.config.numHiddenLayers * spec.config.perBlock d :=
    Nat.le_mul_of_pos_left _ (by omega)
  refine StageMemoryPlan.forStage_ok hplan.context_pos hplan.context_le hplan.heads ?_ ?_ hcache
    (by omega)
  · unfold ModelConfig.parameters at htotal
    omega
  · unfold ModelConfig.parameters at htotal
    omega

/-- Every accepted world covers the layers once and holds the model's memory, with a tied table of
embeddings twice; every other world is refused. -/
theorem balanced_conserves (spec : ModelSpec) (worldSize : Nat) :
    (¬ (2 ≤ worldSize ∧ worldSize ≤ 64 ∧ worldSize ≤ spec.config.numHiddenLayers) →
      ∃ e, PipelinePartition.balanced spec worldSize = .error e) ∧
    (2 ≤ worldSize → worldSize ≤ 64 → worldSize ≤ spec.config.numHiddenLayers →
      ∃ partition, PipelinePartition.balanced spec worldSize = .ok partition ∧
        partition.totalLayers = spec.config.numHiddenLayers ∧
        Covers spec.config.numHiddenLayers worldSize partition.stages ∧
        ∀ (dtype : PlanDType) (contextLength : Nat),
          (∀ plans, StagePlans spec dtype contextLength partition.stages plans →
            (∀ breakdown total, parameterBreakdown spec = .ok breakdown →
              breakdown.total = .ok total →
              (plans.map (·.materializedParameters)).sum = total +
                if spec.config.tieWordEmbeddings then
                  spec.config.vocabSize * spec.config.hiddenSize else 0) ∧
            ∀ budget single,
              RankMemoryPlan.forModel spec dtype contextLength budget = .ok single →
              (plans.map (·.kvCacheCapacityBytes)).sum = single.kvCacheCapacityBytes ∧
              (plans.map (·.persistentBytes)).sum = single.persistentBytes +
                if spec.config.tieWordEmbeddings then
                  spec.config.vocabSize * spec.config.hiddenSize * dtype.bytes else 0) ∧
          ∀ budget single, RankMemoryPlan.forModel spec dtype contextLength budget = .ok single →
            ∀ stage ∈ partition.stages, ∀ budgetBytes, ∃ plan,
              StageMemoryPlan.forStage spec stage dtype contextLength budgetBytes = .ok plan) := by
  constructor
  · intro hworld
    cases hresult : PipelinePartition.balanced spec worldSize with
    | error e => exact ⟨e, rfl⟩
    | ok partition =>
      obtain ⟨⟨hlow, hhigh⟩, hlayers, -⟩ := balanced_eq_ok.mp hresult
      exact absurd ⟨hlow, hhigh, hlayers⟩ hworld
  · intro hlow hhigh hlayers
    have hpos : 0 < worldSize := by omega
    refine ⟨_, balanced_eq_ok.mpr ⟨⟨hlow, hhigh⟩, hlayers, rfl⟩, rfl, covers_stages hlow hlayers, ?_⟩
    intro dtype contextLength
    refine ⟨?_, ?_⟩
    · intro plans hplans
      constructor
      · intro breakdown total hbreakdown htotal
        obtain ⟨d, hd, rfl, -⟩ := parameterBreakdown_total hbreakdown htotal
        exact hplans.sum_materialized hpos hd
      · intro budget single hsingle
        obtain ⟨d, hplan⟩ := RankMemoryPlan.accepted_of_forModel hsingle
        have hcache := hplans.sum_kvCacheCapacityBytes hpos hplan.heads hplan.cache
        refine ⟨hcache, ?_⟩
        rw [hplans.sum_persistentBytes hplan.heads, hcache,
          hplans.sum_materialized hpos hplan.heads, hplan.persistent, hplan.weights]
        split_ifs <;> ring
    · intro budget single hsingle stage hstage budgetBytes
      obtain ⟨rank, hrank, rfl⟩ := List.mem_map.mp hstage
      exact forStage_of_forModel hlow hlayers (List.mem_range.mp hrank) hsingle

end Conservation

theorem forModel_smol : ∃ single, RankMemoryPlan.forModel SupportedModelId.smolLm2_135MInstruct.spec
    .f32 2048 (some (.userDeclared (2 ^ 30))) = .ok single := ok_of_toBool (by decide +kernel)

theorem balanced_conserves_smol :
    (∃ e, PipelinePartition.balanced SupportedModelId.smolLm2_135MInstruct.spec 31 = .error e) ∧
    ∃ partition plans single,
      PipelinePartition.balanced SupportedModelId.smolLm2_135MInstruct.spec 4 = .ok partition ∧
      StagePlans SupportedModelId.smolLm2_135MInstruct.spec .f32 2048 partition.stages plans ∧
      RankMemoryPlan.forModel SupportedModelId.smolLm2_135MInstruct.spec .f32 2048
        (some (.userDeclared (2 ^ 30))) = .ok single ∧
      (plans.map (·.persistentBytes)).sum = single.persistentBytes + 49152 * 576 * 4 := by
  have hall := balanced_conserves SupportedModelId.smolLm2_135MInstruct.spec
  refine ⟨(hall 31).1 (by decide), ?_⟩
  obtain ⟨partition, hpartition, -, -, hmemory⟩ := (hall 4).2 (by decide) (by decide) (by decide)
  obtain ⟨single, hsingle⟩ := forModel_smol
  obtain ⟨hsums, hexists⟩ := hmemory .f32 2048
  obtain ⟨plans, hplans⟩ := mapM_ok fun stage hstage => hexists _ single hsingle stage hstage 0
  have hstages : StagePlans SupportedModelId.smolLm2_135MInstruct.spec .f32 2048 partition.stages
      plans := (forall₂_of_mapM hplans).imp fun _ _ h => ⟨0, h⟩
  exact ⟨partition, plans, single, hpartition, hstages, hsingle,
    ((hsums plans hstages).2 _ single hsingle).2⟩

end Dlir.Pipeline
