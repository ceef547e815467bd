import Dlir.Framework.Results
import Dlir.Runtime.Config
import Mathlib.Tactic.Ring

namespace Dlir.Runtime

open Dlir.Framework Dlir.Math

inductive MemoryDomain
  | host
  deriving DecidableEq, Repr

inductive BudgetSource
  | userDeclared
  deriving DecidableEq, Repr

/-- Declared memory capacity against which a rank plan is compared. -/
structure MemoryBudget where
  bytes : Nat
  domain : MemoryDomain
  source : BudgetSource
  osEnforced : Bool
  deriving DecidableEq, Repr

def MemoryBudget.userDeclared (bytes : Nat) : MemoryBudget := ⟨bytes, .host, .userDeclared, false⟩

/-- Result of comparing persistent planned state with an optional budget. -/
inductive PlacementVerdict
  | fitsPersistentEstimate
  | doesNotFit
  | notEvaluated
  deriving DecidableEq, Repr

/-- Architectural parameter totals grouped by model component. -/
structure MemoryComponentBreakdown where
  tokenEmbeddingParameters : Nat
  attentionParameters : Nat
  mlpParameters : Nat
  layerNormParameters : Nat
  finalNormParameters : Nat
  lmHeadParameters : Nat
  deriving DecidableEq, Repr

def MemoryComponentBreakdown.total (self : MemoryComponentBreakdown) : Except DlirError Nat :=
  u64 (self.tokenEmbeddingParameters + self.attentionParameters + self.mlpParameters +
    self.layerNormParameters + self.finalNormParameters + self.lmHeadParameters)

-- a factor 0 does not hide that the factors before it leave the range
def parameterBreakdown (spec : ModelSpec) : Except DlirError MemoryComponentBreakdown := do
  let cfg := spec.config
  let h := cfg.hiddenSize
  let i := cfg.intermediateSize
  let l := cfg.numHiddenLayers
  let v := cfg.vocabSize
  let kv ← u64 (cfg.numKeyValueHeads * (← cfg.headDim))
  pure {
    tokenEmbeddingParameters := ← u64 (v * h)
    attentionParameters := ← u64 (l * (← u64 (2 * h * h + 2 * h * kv)))
    mlpParameters := ← u64 ((← u64 ((← u64 (l * 3)) * h)) * i)
    layerNormParameters := ← u64 ((← u64 (l * 2)) * h)
    finalNormParameters := h
    lmHeadParameters := ← if cfg.tieWordEmbeddings then pure 0 else u64 (v * h) }

/-- Bytes of the preallocated key and value tensors of some layers. -/
def kvCacheBytes (layers contextLength kvHeads headDim : Nat) (dtype : PlanDType) : Option Nat := do
  let v ← checkedMul 2 layers
  let v ← checkedMul v contextLength
  let v ← checkedMul v kvHeads
  let v ← checkedMul v headDim
  checkedMul v dtype.bytes

/-- Logical persistent-memory plan for one rank. -/
structure RankMemoryPlan where
  rank : Nat
  parameterCount : Nat
  dtype : PlanDType
  contextLength : Nat
  weightBytes : Nat
  kvCacheCapacityBytes : Nat
  persistentBytes : Nat
  breakdown : MemoryComponentBreakdown
  budget : Option MemoryBudget
  placement : PlacementVerdict
  deriving DecidableEq, Repr

/-- Derives a rank-0 logical memory plan from one registered model. -/
def RankMemoryPlan.forModel (spec : ModelSpec) (dtype : PlanDType) (contextLength : Nat)
    (budget : Option MemoryBudget) : Except DlirError RankMemoryPlan := do
  refuse (contextLength = 0 ∨ contextLength > spec.config.maxPositionEmbeddings) <| .invalidConfig
    s!"context length must be between 1 and {spec.config.maxPositionEmbeddings} for {spec.id.asStr}"
  let breakdown ← parameterBreakdown spec
  let total ← breakdown.total
  refuse (total ≠ spec.expectedParameters) <| .invalidConfig
    s!"registry parameter formula produced {total} for {spec.id.asStr} but expected {spec.expectedParameters}"
  let weightBytes ← okOr (.invalidConfig "weight byte count overflow")
    (checkedMul spec.expectedParameters dtype.bytes)
  let headDim ← spec.config.headDim
  let kvCacheCapacityBytes ← okOr (.invalidConfig "KV-cache byte count overflow")
    (kvCacheBytes spec.config.numHiddenLayers contextLength spec.config.numKeyValueHeads headDim dtype)
  let persistentBytes ← okOr (.invalidConfig "persistent byte count overflow")
    (checkedAdd weightBytes kvCacheCapacityBytes)
  pure {
    rank := 0
    parameterCount := spec.expectedParameters
    dtype, contextLength, weightBytes, kvCacheCapacityBytes, persistentBytes, breakdown, budget
    placement := match budget with
      | none => .notEvaluated
      | some budget =>
        if persistentBytes ≤ budget.bytes then .fitsPersistentEstimate else .doesNotFit }

namespace ModelConfig

/-- Parameters of one transformer block with heads of width `d`. -/
def perBlock (cfg : ModelConfig) (d : Nat) : Nat :=
  2 * cfg.hiddenSize * cfg.hiddenSize + 2 * cfg.hiddenSize * (cfg.numKeyValueHeads * d) +
    3 * cfg.hiddenSize * cfg.intermediateSize + 2 * cfg.hiddenSize

/-- Parameters of the whole model, a tied head counted once. -/
def parameters (cfg : ModelConfig) (d : Nat) : Nat :=
  cfg.vocabSize * cfg.hiddenSize + cfg.numHiddenLayers * cfg.perBlock d + cfg.hiddenSize +
    if cfg.tieWordEmbeddings then 0 else cfg.vocabSize * cfg.hiddenSize

end ModelConfig

/-- The formula of the registry, component by component. -/
theorem parameterBreakdown_total {spec : ModelSpec} {b : MemoryComponentBreakdown} {t : Nat}
    (hb : parameterBreakdown spec = .ok b) (ht : b.total = .ok t) :
    ∃ d, spec.config.Heads d ∧ t = spec.config.parameters d ∧ t < 2 ^ 64 := by
  unfold parameterBreakdown at hb
  simp only [bind_eq_ok, u64_eq_ok, ModelConfig.headDim_eq_ok] at hb
  obtain ⟨d, hd, kv, ⟨-, rfl⟩, v, ⟨-, rfl⟩, a, ⟨-, rfl⟩, la, ⟨-, rfl⟩, l3, ⟨-, rfl⟩, l3h, ⟨-, rfl⟩,
    l3hi, ⟨-, rfl⟩, l2, ⟨-, rfl⟩, l2h, ⟨-, rfl⟩, hhead⟩ := hb
  unfold MemoryComponentBreakdown.total at ht
  obtain ⟨hlt, rfl⟩ := u64_eq_ok.mp ht
  refine ⟨d, hd, ?_, hlt⟩
  unfold ModelConfig.parameters ModelConfig.perBlock
  split_ifs at hhead with htied
  · obtain rfl := Except.ok.inj hhead
    rw [if_pos htied]
    ring
  · obtain ⟨head, hhead, hb⟩ := ok_of_bind hhead
    obtain ⟨-, rfl⟩ := u64_eq_ok.mp hhead
    obtain rfl := Except.ok.inj hb
    rw [if_neg htied]
    ring

theorem kvCacheBytes_eq_some {layers contextLength kvHeads headDim bytes : Nat} {dtype : PlanDType} :
    kvCacheBytes layers contextLength kvHeads headDim dtype = some bytes ↔
      2 * layers < 2 ^ 64 ∧ 2 * layers * contextLength < 2 ^ 64 ∧
      2 * layers * contextLength * kvHeads < 2 ^ 64 ∧
      2 * layers * contextLength * kvHeads * headDim < 2 ^ 64 ∧
      2 * layers * contextLength * kvHeads * headDim * dtype.bytes < 2 ^ 64 ∧
      bytes = 2 * layers * contextLength * kvHeads * headDim * dtype.bytes := by
  simp only [kvCacheBytes, Option.bind_eq_bind, Option.bind_eq_some_iff, checkedMul_eq_some]
  constructor
  · rintro ⟨a, ⟨ha, rfl⟩, b, ⟨hb, rfl⟩, c, ⟨hc, rfl⟩, e, ⟨he, rfl⟩, hf, rfl⟩
    exact ⟨ha, hb, hc, he, hf, rfl⟩
  · rintro ⟨ha, hb, hc, he, hf, rfl⟩
    exact ⟨_, ⟨ha, rfl⟩, _, ⟨hb, rfl⟩, _, ⟨hc, rfl⟩, _, ⟨he, rfl⟩, hf, rfl⟩

/-- Fewer layers need less. -/
theorem kvCacheBytes_of_le {layers layers' contextLength kvHeads headDim bytes : Nat}
    {dtype : PlanDType} (hle : layers' ≤ layers)
    (h : kvCacheBytes layers contextLength kvHeads headDim dtype = some bytes) :
    ∃ bytes', kvCacheBytes layers' contextLength kvHeads headDim dtype = some bytes' ∧
      bytes' ≤ bytes := by
  obtain ⟨ha, hb, hc, he, hf, rfl⟩ := kvCacheBytes_eq_some.mp h
  have hlayers : 2 * layers' ≤ 2 * layers := Nat.mul_le_mul_left 2 hle
  have hcontext := Nat.mul_le_mul_right contextLength hlayers
  have hheads := Nat.mul_le_mul_right kvHeads hcontext
  have hdim := Nat.mul_le_mul_right headDim hheads
  have hbytes := Nat.mul_le_mul_right dtype.bytes hdim
  exact ⟨_, kvCacheBytes_eq_some.mpr ⟨hlayers.trans_lt ha, hcontext.trans_lt hb,
    hheads.trans_lt hc, hdim.trans_lt he, hbytes.trans_lt hf, rfl⟩, hbytes⟩

namespace RankMemoryPlan

/-- What an accepted plan establishes. -/
structure Accepted (spec : ModelSpec) (dtype : PlanDType) (contextLength d : Nat)
    (plan : RankMemoryPlan) : Prop where
  context_pos : 0 < contextLength
  context_le : contextLength ≤ spec.config.maxPositionEmbeddings
  heads : spec.config.Heads d
  breakdown : parameterBreakdown spec = .ok plan.breakdown
  total : plan.breakdown.total = .ok (spec.config.parameters d)
  weights : plan.weightBytes = spec.config.parameters d * dtype.bytes
  cache : kvCacheBytes spec.config.numHiddenLayers contextLength spec.config.numKeyValueHeads d
    dtype = some plan.kvCacheCapacityBytes
  persistent : plan.persistentBytes = plan.weightBytes + plan.kvCacheCapacityBytes
  fits : plan.persistentBytes < 2 ^ 64

theorem accepted_of_forModel {spec : ModelSpec} {dtype : PlanDType} {contextLength : Nat}
    {budget : Option MemoryBudget} {plan : RankMemoryPlan}
    (h : forModel spec dtype contextLength budget = .ok plan) :
    ∃ d, Accepted spec dtype contextLength d plan := by
  simp only [forModel, bind_eq_ok, refuse_eq_ok, okOr_eq_ok, ModelConfig.headDim_eq_ok,
    checkedMul_eq_some, checkedAdd_eq_some, pure_eq_ok] at h
  obtain ⟨-, hcontext, b, hb, t, ht, -, hexpected, w, ⟨hw, rfl⟩, d', hd', kv, hkv, p, ⟨hp, rfl⟩,
    rfl⟩ := h
  obtain ⟨d, hd, rfl, -⟩ := parameterBreakdown_total hb ht
  obtain rfl := hd.unique hd'
  push Not at hcontext hexpected
  exact ⟨d, Nat.pos_of_ne_zero hcontext.1, hcontext.2, hd, hb, ht, by rw [hexpected], hkv, rfl, hp⟩

end RankMemoryPlan

end Dlir.Runtime
