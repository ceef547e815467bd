import Dlir.Pipeline.Partition
import Dlir.Runtime.Wrapping

namespace Dlir.Pipeline

open Dlir.Framework Dlir.Math Dlir.Runtime

/-- The plan of a stage as a build without overflow checks computes it. -/
def Wrapping.forStage (spec : ModelSpec) (assignment : StageAssignment) (dtype : PlanDType)
    (contextLength budgetBytes : Nat) : Except PipelineError StageMemoryPlan := do
  refuse (contextLength = 0 ∨ contextLength > spec.config.maxPositionEmbeddings) <| .invalidTopology
    s!"context length {contextLength} is outside model maximum {spec.config.maxPositionEmbeddings}"
  let cfg := spec.config
  let h := UInt64.ofNat cfg.hiddenSize
  let i := UInt64.ofNat cfg.intermediateSize
  let headDim ← cfg.headDim.mapError .runtime
  let kv := UInt64.ofNat cfg.numKeyValueHeads * .ofNat headDim
  let perBlock := (2 * h * h + 2 * h * kv + 3 * h * i + 2 * h).toNat
  let blockParameters ← okOr (.invalidTopology "stage parameter overflow")
    (checkedMul perBlock assignment.layerCount)
  let embeddingParameters := if assignment.ownsEmbeddings then (.ofNat cfg.vocabSize * h).toNat else 0
  let finalNormParameters := assignment.ownsLmHead.toNat * cfg.hiddenSize
  let lmHeadParameters := if assignment.ownsLmHead then (.ofNat cfg.vocabSize * h).toNat else 0
  let materializedParameters ← okOr (.invalidTopology "stage parameter overflow") <|
    (checkedAdd blockParameters embeddingParameters).bind fun v =>
      (checkedAdd v finalNormParameters).bind fun v => checkedAdd v lmHeadParameters
  let weightBytes ← okOr (.invalidTopology "stage weight overflow")
    (checkedMul materializedParameters dtype.bytes)
  let kvCacheCapacityBytes ← okOr (.invalidTopology "stage KV byte overflow")
    (kvCacheBytes assignment.layerCount contextLength cfg.numKeyValueHeads headDim dtype)
  let persistentBytes ← okOr (.invalidTopology "stage memory overflow")
    (checkedAdd weightBytes kvCacheCapacityBytes)
  pure {
    rank := assignment.rank
    layerStart := assignment.layerStart
    layerEnd := assignment.layerEnd
    blockParameters, embeddingParameters, finalNormParameters, lmHeadParameters,
    materializedParameters, weightBytes, kvCacheCapacityBytes, persistentBytes, budgetBytes
    placement := if persistentBytes ≤ budgetBytes then .fitsPersistentEstimate else .doesNotFit
    duplicatesTiedEmbeddings := assignment.duplicatesTiedEmbeddings }

namespace StageMemoryPlan

/-- The plan has the values of its formulas over unbounded integers. -/
structure Exact (spec : ModelSpec) (assignment : StageAssignment) (dtype : PlanDType)
    (contextLength budgetBytes d : Nat) (plan : StageMemoryPlan) : Prop where
  blockParameters : plan.blockParameters = spec.config.perBlock d * assignment.layerCount
  embeddingParameters : plan.embeddingParameters =
    if assignment.ownsEmbeddings then spec.config.vocabSize * spec.config.hiddenSize else 0
  finalNormParameters : plan.finalNormParameters =
    assignment.ownsLmHead.toNat * spec.config.hiddenSize
  lmHeadParameters : plan.lmHeadParameters =
    if assignment.ownsLmHead then spec.config.vocabSize * spec.config.hiddenSize else 0
  materializedParameters : plan.materializedParameters = parameters spec.config d assignment
  weightBytes : plan.weightBytes = parameters spec.config d assignment * dtype.bytes
  kvCacheCapacityBytes : plan.kvCacheCapacityBytes =
    kvFormula assignment.layerCount contextLength spec.config.numKeyValueHeads d dtype
  persistentBytes : plan.persistentBytes = parameters spec.config d assignment * dtype.bytes +
    kvFormula assignment.layerCount contextLength spec.config.numKeyValueHeads d dtype
  placement : plan.placement = .fitsPersistentEstimate ↔
    parameters spec.config d assignment * dtype.bytes +
      kvFormula assignment.layerCount contextLength spec.config.numKeyValueHeads d dtype ≤ budgetBytes

end StageMemoryPlan

/-- Parameters of a stage from a block and an embedding table of these sizes. -/
def reducedParameters (cfg : ModelConfig) (assignment : StageAssignment) (block table : Nat) : Nat :=
  block * assignment.layerCount + (if assignment.ownsEmbeddings then table else 0) +
    assignment.ownsLmHead.toNat * cfg.hiddenSize + if assignment.ownsLmHead then table else 0

/-- A block or an embedding table of the stage does not fit 64 bits, and no check notices: the
bytes that follow from the sizes modulo `2 ^ 64` fit. -/
structure StageWraps (spec : ModelSpec) (assignment : StageAssignment) (dtype : PlanDType)
    (contextLength d : Nat) : Prop where
  context_pos : 0 < contextLength
  context_le : contextLength ≤ spec.config.maxPositionEmbeddings
  heads : spec.config.Heads d
  large : 2 ^ 64 ≤ spec.config.perBlock d ∨
    (assignment.ownsEmbeddings = true ∨ assignment.ownsLmHead = true) ∧
      2 ^ 64 ≤ spec.config.vocabSize * spec.config.hiddenSize
  fits : reducedParameters spec.config assignment (spec.config.perBlock d % 2 ^ 64)
      (spec.config.vocabSize * spec.config.hiddenSize % 2 ^ 64) * dtype.bytes +
    kvFormula assignment.layerCount contextLength spec.config.numKeyValueHeads d dtype < 2 ^ 64

variable {spec : ModelSpec} {assignment : StageAssignment} {dtype : PlanDType}
  {contextLength budgetBytes d : Nat} {plan : StageMemoryPlan}

/-- The plan that goes through the checks. -/
structure Reduced (spec : ModelSpec) (assignment : StageAssignment) (dtype : PlanDType)
    (contextLength budgetBytes d : Nat) (plan : StageMemoryPlan) : Prop where
  blockParameters : plan.blockParameters = spec.config.perBlock d % 2 ^ 64 * assignment.layerCount
  embeddingParameters : plan.embeddingParameters = if assignment.ownsEmbeddings then
    spec.config.vocabSize * spec.config.hiddenSize % 2 ^ 64 else 0
  finalNormParameters : plan.finalNormParameters =
    assignment.ownsLmHead.toNat * spec.config.hiddenSize
  lmHeadParameters : plan.lmHeadParameters = if assignment.ownsLmHead then
    spec.config.vocabSize * spec.config.hiddenSize % 2 ^ 64 else 0
  materializedParameters : plan.materializedParameters =
    reducedParameters spec.config assignment (spec.config.perBlock d % 2 ^ 64)
      (spec.config.vocabSize * spec.config.hiddenSize % 2 ^ 64)
  weightBytes : plan.weightBytes = plan.materializedParameters * dtype.bytes
  kvCacheCapacityBytes : plan.kvCacheCapacityBytes =
    kvFormula assignment.layerCount contextLength spec.config.numKeyValueHeads d dtype
  persistentBytes : plan.persistentBytes = plan.weightBytes + plan.kvCacheCapacityBytes
  placement : plan.placement = .fitsPersistentEstimate ↔ plan.persistentBytes ≤ budgetBytes

theorem perBlock_toNat (cfg : ModelConfig) (d : Nat) :
    (2 * UInt64.ofNat cfg.hiddenSize * .ofNat cfg.hiddenSize + 2 * UInt64.ofNat cfg.hiddenSize *
        (.ofNat cfg.numKeyValueHeads * .ofNat d) +
      3 * UInt64.ofNat cfg.hiddenSize * .ofNat cfg.intermediateSize +
      2 * UInt64.ofNat cfg.hiddenSize).toNat = cfg.perBlock d % 2 ^ 64 := by
  have htwo : (2 : UInt64) = .ofNat 2 := rfl
  have hthree : (3 : UInt64) = .ofNat 3 := rfl
  rw [htwo, hthree]
  simp only [← UInt64.ofNat_mul, ← UInt64.ofNat_add, UInt64.toNat_ofNat', ModelConfig.perBlock]

theorem table_toNat (cfg : ModelConfig) :
    (UInt64.ofNat cfg.vocabSize * .ofNat cfg.hiddenSize).toNat =
      cfg.vocabSize * cfg.hiddenSize % 2 ^ 64 := by
  rw [← UInt64.ofNat_mul, UInt64.toNat_ofNat']

/-- What an accepted plan is. -/
theorem Wrapping.reduced_of_forStage
    (h : Wrapping.forStage spec assignment dtype contextLength budgetBytes = .ok plan) :
    ∃ d, spec.config.Heads d ∧ 0 < contextLength ∧
      contextLength ≤ spec.config.maxPositionEmbeddings ∧ plan.persistentBytes < 2 ^ 64 ∧
      Reduced spec assignment dtype contextLength budgetBytes d plan := by
  simp only [Wrapping.forStage, bind_eq_ok, refuse_eq_ok, okOr_eq_ok, mapError_eq_ok,
    ModelConfig.headDim_eq_ok, checkedMul_eq_some, checkedAdd_eq_some, Option.bind_eq_some_iff,
    pure_eq_ok, perBlock_toNat, table_toNat] at h
  obtain ⟨-, hcontext, d, hd, block, ⟨-, rfl⟩, m, ⟨m1, ⟨-, rfl⟩, m2, ⟨-, rfl⟩, -, rfl⟩, w, ⟨-, rfl⟩,
    kv, hkv, p, ⟨hp, rfl⟩, rfl⟩ := h
  refine ⟨d, hd, by omega, by omega, hp, rfl, rfl, rfl, rfl, rfl, rfl, kvFormula_of_eq_some hkv,
    rfl, ?_⟩
  simp only [ite_eq_left_iff, reduceCtorEq, imp_false, not_not]

theorem StageWraps.headDim_pos (h : StageWraps spec assignment dtype contextLength d) : 0 < d := by
  by_contra hzero
  have hd : d = 0 := by omega
  have hhidden : spec.config.hiddenSize = 0 := by rw [h.heads.hidden_eq, hd, Nat.mul_zero]
  have hlarge := h.large
  simp [ModelConfig.perBlock, hhidden] at hlarge

/-- Wrapped sizes go through all checks of the planner. -/
theorem StageWraps.forStage_ok (h : StageWraps spec assignment dtype contextLength d)
    (budgetBytes : Nat) :
    ∃ plan, Wrapping.forStage spec assignment dtype contextLength budgetBytes = .ok plan := by
  have hfits := h.fits
  have hbytes := Nat.le_mul_of_pos_right (reducedParameters spec.config assignment
    (spec.config.perBlock d % 2 ^ 64) (spec.config.vocabSize * spec.config.hiddenSize % 2 ^ 64))
    dtype.bytes_pos
  have hcache : kvCacheBytes assignment.layerCount contextLength spec.config.numKeyValueHeads d
      dtype = some _ :=
    (kvCacheBytes_eq_some_of_pos h.context_pos h.heads.keys_pos h.headDim_pos).mpr ⟨by omega, rfl⟩
  have hcontext : ¬ (contextLength = 0 ∨ contextLength > spec.config.maxPositionEmbeddings) := by
    have hpos := h.context_pos
    have hle := h.context_le
    omega
  simp only [Wrapping.forStage, bind_eq_ok, refuse_eq_ok, okOr_eq_ok, mapError_eq_ok,
    ModelConfig.headDim_eq_ok, checkedMul_eq_some, checkedAdd_eq_some, Option.bind_eq_some_iff,
    perBlock_toNat, table_toNat]
  rw [reducedParameters] at hfits hbytes
  exact ⟨_, (), hcontext, d, h.heads, _, ⟨by omega, rfl⟩, _, ⟨_, ⟨by omega, rfl⟩, _,
    ⟨by omega, rfl⟩, by omega, rfl⟩, _, ⟨by omega, rfl⟩, _, hcache, _, ⟨hfits, rfl⟩, rfl⟩

/-- A plan in which something wrapped is not exact. -/
theorem Reduced.not_exact (h : Reduced spec assignment dtype contextLength budgetBytes d plan)
    (hlayers : 0 < assignment.layerCount) (hwraps : StageWraps spec assignment dtype contextLength d) :
    ¬ plan.Exact spec assignment dtype contextLength budgetBytes d := by
  intro hexact
  have hmod : ∀ n : Nat, n % 2 ^ 64 < 2 ^ 64 := fun n => Nat.mod_lt n (by norm_num)
  rcases hwraps.large with hblock | ⟨hembeddings | hhead, htable⟩
  · have hsame := h.blockParameters.symm.trans hexact.blockParameters
    have hlt := hmod (spec.config.perBlock d)
    rw [Nat.eq_of_mul_eq_mul_right hlayers hsame] at hlt
    omega
  · have hsame := h.embeddingParameters.symm.trans hexact.embeddingParameters
    have hlt := hmod (spec.config.vocabSize * spec.config.hiddenSize)
    rw [if_pos hembeddings, if_pos hembeddings] at hsame
    omega
  · have hsame := h.lmHeadParameters.symm.trans hexact.lmHeadParameters
    have hlt := hmod (spec.config.vocabSize * spec.config.hiddenSize)
    rw [if_pos hhead, if_pos hhead] at hsame
    omega

/-- A plan in which nothing wrapped is exact. -/
theorem Reduced.exact (h : Reduced spec assignment dtype contextLength budgetBytes d plan)
    (hblock : spec.config.perBlock d < 2 ^ 64)
    (htable : assignment.ownsEmbeddings = true ∨ assignment.ownsLmHead = true →
      spec.config.vocabSize * spec.config.hiddenSize < 2 ^ 64) :
    plan.Exact spec assignment dtype contextLength budgetBytes d := by
  have hblocks := h.blockParameters
  have hembeddings : plan.embeddingParameters = if assignment.ownsEmbeddings then
      spec.config.vocabSize * spec.config.hiddenSize else 0 := by
    rw [h.embeddingParameters]
    split_ifs with howns
    · exact Nat.mod_eq_of_lt (htable (.inl howns))
    · rfl
  have hhead : plan.lmHeadParameters = if assignment.ownsLmHead then
      spec.config.vocabSize * spec.config.hiddenSize else 0 := by
    rw [h.lmHeadParameters]
    split_ifs with howns
    · exact Nat.mod_eq_of_lt (htable (.inr howns))
    · rfl
  rw [Nat.mod_eq_of_lt hblock] at hblocks
  have hmaterialized : plan.materializedParameters =
      StageMemoryPlan.parameters spec.config d assignment := by
    rw [h.materializedParameters, reducedParameters, ← h.embeddingParameters, ← h.lmHeadParameters,
      ← h.blockParameters, hblocks, hembeddings, hhead, StageMemoryPlan.parameters]
  have hweights := h.weightBytes
  have hpersistent := h.persistentBytes
  rw [hmaterialized] at hweights
  rw [hweights, h.kvCacheCapacityBytes] at hpersistent
  refine ⟨hblocks, hembeddings, h.finalNormParameters, hhead, hmaterialized, hweights,
    h.kvCacheCapacityBytes, hpersistent, ?_⟩
  rw [h.placement, hpersistent]

/-- The planner of a stage is exact unless a size wraps unnoticed. -/
theorem Wrapping.forStage_exact_iff (hlayers : 0 < assignment.layerCount) :
    (∀ plan, Wrapping.forStage spec assignment dtype contextLength budgetBytes = .ok plan →
      ∃ d, spec.config.Heads d ∧ plan.Exact spec assignment dtype contextLength budgetBytes d) ↔
    ∀ d, ¬ StageWraps spec assignment dtype contextLength d := by
  constructor
  · intro hexact d hwraps
    obtain ⟨plan, hplan⟩ := hwraps.forStage_ok budgetBytes
    obtain ⟨d', hd', hplanExact⟩ := hexact plan hplan
    obtain ⟨d'', hd'', -, -, -, hreduced⟩ := Wrapping.reduced_of_forStage hplan
    obtain rfl := hwraps.heads.unique hd'
    obtain rfl := hwraps.heads.unique hd''
    exact hreduced.not_exact hlayers hwraps hplanExact
  · intro hno plan hplan
    obtain ⟨d, hd, hpos, hle, hlt, hreduced⟩ := Wrapping.reduced_of_forStage hplan
    have hfits := hlt
    rw [hreduced.persistentBytes, hreduced.weightBytes, hreduced.materializedParameters,
      hreduced.kvCacheCapacityBytes] at hfits
    have hsmall := hno d
    refine ⟨d, hd, hreduced.exact ?_ fun howns => ?_⟩
    · by_contra hlarge
      exact hsmall ⟨hpos, hle, hd, .inl (by omega), hfits⟩
    · by_contra hlarge
      exact hsmall ⟨hpos, hle, hd, .inr ⟨howns, by omega⟩, hfits⟩

/-- When both planners are exact or fail: unless a size wraps and no later check notices it. -/
theorem memoryPlanners_exact_iff (spec : ModelSpec) (dtype : PlanDType) (contextLength : Nat)
    (budget : Option MemoryBudget) (worldSize : Nat) (partition : PipelinePartition)
    (hpartition : PipelinePartition.balanced spec worldSize = .ok partition)
    (assignment : StageAssignment) (hassignment : assignment ∈ partition.stages)
    (budgetBytes : Nat) :
    ((∀ plan, Runtime.Wrapping.forModel spec dtype contextLength budget = .ok plan →
        ∃ d, spec.config.Heads d ∧ plan.Exact spec dtype contextLength budget d) ∧
      ∀ plan, Wrapping.forStage spec assignment dtype contextLength budgetBytes = .ok plan →
        ∃ d, spec.config.Heads d ∧ plan.Exact spec assignment dtype contextLength budgetBytes d) ↔
    (∀ d, ¬ ModelWraps spec dtype contextLength d) ∧
      ∀ d, ¬ StageWraps spec assignment dtype contextLength d := by
  obtain ⟨hworld, hle, rfl⟩ := balanced_eq_ok.mp hpartition
  have hlayers : 0 < assignment.layerCount :=
    Nat.sub_pos_of_lt ((covers_stages hworld.1 hle).nonempty assignment hassignment)
  exact and_congr Runtime.Wrapping.forModel_exact_iff (Wrapping.forStage_exact_iff hlayers)

theorem memoryPlanners_exact_iff_smol :
    (∀ plan, Runtime.Wrapping.forModel SupportedModelId.smolLm2_135MInstruct.spec .f32 2048 none =
        .ok plan → ∃ d, SupportedModelId.smolLm2_135MInstruct.spec.config.Heads d ∧
          plan.Exact SupportedModelId.smolLm2_135MInstruct.spec .f32 2048 none d) ∧
    ∀ plan, Wrapping.forStage SupportedModelId.smolLm2_135MInstruct.spec
        (stageOf SupportedModelId.smolLm2_135MInstruct.spec 4 0) .f32 2048 1000000000 = .ok plan →
      ∃ d, SupportedModelId.smolLm2_135MInstruct.spec.config.Heads d ∧
        plan.Exact SupportedModelId.smolLm2_135MInstruct.spec
          (stageOf SupportedModelId.smolLm2_135MInstruct.spec 4 0) .f32 2048 1000000000 d := by
  have hheads : SupportedModelId.smolLm2_135MInstruct.spec.config.Heads 64 :=
    ModelConfig.headDim_eq_ok.mp (by decide)
  refine (memoryPlanners_exact_iff SupportedModelId.smolLm2_135MInstruct.spec .f32 2048 none 4 _
    (balanced_eq_ok.mpr ⟨by decide, by decide, rfl⟩) _ ?_ 1000000000).mpr ⟨?_, ?_⟩
  · exact List.mem_map_of_mem (List.mem_range.mpr (by decide))
  · intro d h
    obtain rfl := h.heads.unique hheads
    exact absurd h.large (by decide)
  · intro d h
    obtain rfl := h.heads.unique hheads
    exact absurd h.large (by decide)

/-- A model whose embedding table has `2 ^ 64` entries. -/
def wideSpec : ModelSpec where
  id := .smolLm2_135MInstruct
  expectedParameters := 47244640256
  checkpointDtype := .bf16
  config := {
    vocabSize := 4294967296
    hiddenSize := 4294967296
    intermediateSize := 1
    numHiddenLayers := 2
    numAttentionHeads := 1
    numKeyValueHeads := 1
    maxPositionEmbeddings := 16
    bosTokenId := 1
    eosTokenId := 2
    tieWordEmbeddings := true }

/-- What the planner returns for this model. -/
def widePlan : RankMemoryPlan where
  rank := 0
  parameterCount := 47244640256
  dtype := .f32
  contextLength := 1
  weightBytes := 188978561024
  kvCacheCapacityBytes := 68719476736
  persistentBytes := 257698037760
  breakdown := ⟨0, 0, 25769803776, 17179869184, 4294967296, 0⟩
  budget := some (.userDeclared 257698037760)
  placement := .fitsPersistentEstimate

def wideStagePlan : StageMemoryPlan where
  rank := 0
  layerStart := 0
  layerEnd := 1
  blockParameters := 21474836480
  embeddingParameters := 0
  finalNormParameters := 0
  lmHeadParameters := 0
  materializedParameters := 21474836480
  weightBytes := 85899345920
  kvCacheCapacityBytes := 34359738368
  persistentBytes := 120259084288
  budgetBytes := 120259084288
  placement := .fitsPersistentEstimate
  duplicatesTiedEmbeddings := false

theorem memoryPlanners_wrap :
    Runtime.Wrapping.forModel wideSpec .f32 1 (some (.userDeclared 257698037760)) = .ok widePlan ∧
    (∀ d, wideSpec.config.Heads d →
      ¬ widePlan.Exact wideSpec .f32 1 (some (.userDeclared 257698037760)) d) ∧
    stageOf wideSpec 2 0 ∈ (List.range 2).map (stageOf wideSpec 2) ∧
    PipelinePartition.balanced wideSpec 2 = .ok ⟨2, (List.range 2).map (stageOf wideSpec 2)⟩ ∧
    Wrapping.forStage wideSpec (stageOf wideSpec 2 0) .f32 1 120259084288 = .ok wideStagePlan ∧
    ∀ d, wideSpec.config.Heads d →
      ¬ wideStagePlan.Exact wideSpec (stageOf wideSpec 2 0) .f32 1 120259084288 d := by
  have hheads : wideSpec.config.Heads 4294967296 := ModelConfig.headDim_eq_ok.mp (by decide)
  refine ⟨by decide +kernel, ?_, List.mem_map_of_mem (List.mem_range.mpr (by decide)),
    balanced_eq_ok.mpr ⟨by decide, by decide, rfl⟩, by decide +kernel, ?_⟩
  · intro d hd hexact
    obtain rfl := hd.unique hheads
    exact absurd hexact.parameterCount (by decide)
  · intro d hd hexact
    obtain rfl := hd.unique hheads
    exact absurd hexact.embeddingParameters (by decide)

end Dlir.Pipeline
