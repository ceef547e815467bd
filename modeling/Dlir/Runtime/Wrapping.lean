import Dlir.Runtime.Memory
import Mathlib.Tactic.Linarith

namespace Dlir.Runtime.Wrapping

open Dlir.Framework Dlir.Math

-- The planner as a build without overflow checks computes it: the operations that the source does
-- not check are modulo `2 ^ 64`.

def total (self : MemoryComponentBreakdown) : Nat :=
  (UInt64.ofNat self.tokenEmbeddingParameters + .ofNat self.attentionParameters +
    .ofNat self.mlpParameters + .ofNat self.layerNormParameters + .ofNat self.finalNormParameters +
    .ofNat self.lmHeadParameters).toNat

def parameterBreakdown (spec : ModelSpec) : Except DlirError MemoryComponentBreakdown := do
  let cfg := spec.config
  let h := UInt64.ofNat cfg.hiddenSize
  let i := UInt64.ofNat cfg.intermediateSize
  let l := UInt64.ofNat cfg.numHiddenLayers
  let v := UInt64.ofNat cfg.vocabSize
  let kv := UInt64.ofNat cfg.numKeyValueHeads * .ofNat (← cfg.headDim)
  pure {
    tokenEmbeddingParameters := (v * h).toNat
    attentionParameters := (l * (2 * h * h + 2 * h * kv)).toNat
    mlpParameters := (l * 3 * h * i).toNat
    layerNormParameters := (l * 2 * h).toNat
    finalNormParameters := cfg.hiddenSize
    lmHeadParameters := if cfg.tieWordEmbeddings then 0 else (v * h).toNat }

def forModel (spec : ModelSpec) (dtype : PlanDType) (contextLength : Nat)
    (budget : Option MemoryBudget) : Except DlirError RankMemoryPlan := do
  refuse (contextLength = 0 ∨ contextLength > spec.config.maxPositionEmbeddings) <| .invalidConfig
    s!"context length must be between 1 and {spec.config.maxPositionEmbeddings} for {spec.id.asStr}"
  let breakdown ← parameterBreakdown spec
  refuse (total breakdown ≠ spec.expectedParameters) <| .invalidConfig
    s!"registry parameter formula produced {total breakdown} for {spec.id.asStr} but expected {spec.expectedParameters}"
  let weightBytes ← okOr (.invalidConfig "weight byte count overflow")
    (checkedMul spec.expectedParameters dtype.bytes)
  let headDim ← spec.config.headDim
  let kvCacheCapacityBytes ← okOr (.invalidConfig "KV-cache byte count overflow")
    (kvCacheBytes spec.config.numHiddenLayers contextLength spec.config.numKeyValueHeads headDim dtype)
  let persistentBytes ← okOr (.invalidConfig "persistent byte count overflow")
    (checkedAdd weightBytes kvCacheCapacityBytes)
  pure {
    rank := 0
    parameterCount := spec.expectedParameters
    dtype, contextLength, weightBytes, kvCacheCapacityBytes, persistentBytes, breakdown, budget
    placement := match budget with
      | none => .notEvaluated
      | some budget =>
        if persistentBytes ≤ budget.bytes then .fitsPersistentEstimate else .doesNotFit }

end Dlir.Runtime.Wrapping

namespace Dlir.Runtime

open Dlir.Framework Dlir.Math

/-- The components over unbounded integers. -/
def ModelConfig.components (cfg : ModelConfig) (d : Nat) : MemoryComponentBreakdown where
  tokenEmbeddingParameters := cfg.vocabSize * cfg.hiddenSize
  attentionParameters := cfg.numHiddenLayers *
    (2 * cfg.hiddenSize * cfg.hiddenSize + 2 * cfg.hiddenSize * (cfg.numKeyValueHeads * d))
  mlpParameters := cfg.numHiddenLayers * 3 * cfg.hiddenSize * cfg.intermediateSize
  layerNormParameters := cfg.numHiddenLayers * 2 * cfg.hiddenSize
  finalNormParameters := cfg.hiddenSize
  lmHeadParameters := if cfg.tieWordEmbeddings then 0 else cfg.vocabSize * cfg.hiddenSize

/-- Bytes of the key and value tensors over unbounded integers. -/
def kvFormula (layers contextLength kvHeads headDim : Nat) (dtype : PlanDType) : Nat :=
  2 * layers * contextLength * kvHeads * headDim * dtype.bytes

namespace RankMemoryPlan

/-- The plan has the values of its formulas over unbounded integers. -/
structure Exact (spec : ModelSpec) (dtype : PlanDType) (contextLength : Nat)
    (budget : Option MemoryBudget) (d : Nat) (plan : RankMemoryPlan) : Prop where
  breakdown : plan.breakdown = spec.config.components d
  parameterCount : plan.parameterCount = spec.config.parameters d
  weightBytes : plan.weightBytes = spec.config.parameters d * dtype.bytes
  kvCacheCapacityBytes : plan.kvCacheCapacityBytes =
    kvFormula spec.config.numHiddenLayers contextLength spec.config.numKeyValueHeads d dtype
  persistentBytes : plan.persistentBytes = spec.config.parameters d * dtype.bytes +
    kvFormula spec.config.numHiddenLayers contextLength spec.config.numKeyValueHeads d dtype
  placement : ∀ b, budget = some b → (plan.placement = .fitsPersistentEstimate ↔
    spec.config.parameters d * dtype.bytes +
      kvFormula spec.config.numHiddenLayers contextLength spec.config.numKeyValueHeads d dtype ≤
      b.bytes)

end RankMemoryPlan

/-- The total does not fit 64 bits, and no check notices: it is the registered total modulo
`2 ^ 64`, and the bytes that follow from the registered total fit. -/
structure ModelWraps (spec : ModelSpec) (dtype : PlanDType) (contextLength d : Nat) : Prop where
  context_pos : 0 < contextLength
  context_le : contextLength ≤ spec.config.maxPositionEmbeddings
  heads : spec.config.Heads d
  large : 2 ^ 64 ≤ spec.config.parameters d
  expected : spec.expectedParameters = spec.config.parameters d % 2 ^ 64
  fits : spec.expectedParameters * dtype.bytes +
    kvFormula spec.config.numHiddenLayers contextLength spec.config.numKeyValueHeads d dtype < 2 ^ 64

theorem PlanDType.bytes_pos (dtype : PlanDType) : 0 < dtype.bytes := by
  cases dtype <;> decide

/-- No factor but the number of layers is zero, so no product on the way is larger. -/
theorem kvCacheBytes_eq_some_of_pos {layers contextLength kvHeads headDim bytes : Nat}
    {dtype : PlanDType} (hcontext : 0 < contextLength) (hheads : 0 < kvHeads) (hdim : 0 < headDim) :
    kvCacheBytes layers contextLength kvHeads headDim dtype = some bytes ↔
      kvFormula layers contextLength kvHeads headDim dtype < 2 ^ 64 ∧
        bytes = kvFormula layers contextLength kvHeads headDim dtype := by
  rw [kvCacheBytes_eq_some, kvFormula]
  have hbytes := Nat.le_mul_of_pos_right (2 * layers * contextLength * kvHeads * headDim)
    dtype.bytes_pos
  have hdims := Nat.le_mul_of_pos_right (2 * layers * contextLength * kvHeads) hdim
  have hkv := Nat.le_mul_of_pos_right (2 * layers * contextLength) hheads
  have hlayers := Nat.le_mul_of_pos_right (2 * layers) hcontext
  constructor
  · intro h
    exact ⟨h.2.2.2.2.1, h.2.2.2.2.2⟩
  · intro h
    refine ⟨?_, ?_, ?_, ?_, h.1, h.2⟩ <;> linarith [h.1]

/-- An accepted product is the unbounded one. -/
theorem kvFormula_of_eq_some {layers contextLength kvHeads headDim bytes : Nat} {dtype : PlanDType}
    (h : kvCacheBytes layers contextLength kvHeads headDim dtype = some bytes) :
    bytes = kvFormula layers contextLength kvHeads headDim dtype :=
  (kvCacheBytes_eq_some.mp h).2.2.2.2.2

theorem ModelConfig.sum_components (cfg : ModelConfig) (d : Nat) :
    (cfg.components d).tokenEmbeddingParameters + (cfg.components d).attentionParameters +
      (cfg.components d).mlpParameters + (cfg.components d).layerNormParameters +
      (cfg.components d).finalNormParameters + (cfg.components d).lmHeadParameters =
      cfg.parameters d := by
  simp only [components, parameters, perBlock]
  ring

/-- What the wrapped components amount to. -/
theorem Wrapping.parameterBreakdown_eq_ok {spec : ModelSpec} {b : MemoryComponentBreakdown} :
    Wrapping.parameterBreakdown spec = .ok b ↔ ∃ d, spec.config.Heads d ∧ b = {
      tokenEmbeddingParameters := (spec.config.components d).tokenEmbeddingParameters % 2 ^ 64
      attentionParameters := (spec.config.components d).attentionParameters % 2 ^ 64
      mlpParameters := (spec.config.components d).mlpParameters % 2 ^ 64
      layerNormParameters := (spec.config.components d).layerNormParameters % 2 ^ 64
      finalNormParameters := (spec.config.components d).finalNormParameters
      lmHeadParameters := (spec.config.components d).lmHeadParameters % 2 ^ 64 } := by
  have htwo : (2 : UInt64) = .ofNat 2 := rfl
  have hthree : (3 : UInt64) = .ofNat 3 := rfl
  simp only [Wrapping.parameterBreakdown, bind_eq_ok, pure_eq_ok, ModelConfig.headDim_eq_ok, htwo,
    hthree, ← UInt64.ofNat_mul, ← UInt64.ofNat_add, UInt64.toNat_ofNat', ModelConfig.components]
  refine exists_congr fun d => and_congr_right fun _ => ?_
  cases spec.config.tieWordEmbeddings <;> simp

/-- Addition wraps the same number of times in any order. -/
theorem Wrapping.total_eq {spec : ModelSpec} {b : MemoryComponentBreakdown} {d : Nat}
    (hd : spec.config.Heads d) (h : Wrapping.parameterBreakdown spec = .ok b) :
    Wrapping.total b = spec.config.parameters d % 2 ^ 64 := by
  obtain ⟨d', hd', rfl⟩ := Wrapping.parameterBreakdown_eq_ok.mp h
  obtain rfl := hd.unique hd'
  simp only [Wrapping.total, ← UInt64.ofNat_add, UInt64.toNat_ofNat']
  rw [← ModelConfig.sum_components]
  omega

/-- Components that fit together fit one by one. -/
theorem Wrapping.parameterBreakdown_exact {spec : ModelSpec} {b : MemoryComponentBreakdown} {d : Nat}
    (hd : spec.config.Heads d) (h : Wrapping.parameterBreakdown spec = .ok b)
    (hfits : spec.config.parameters d < 2 ^ 64) : b = spec.config.components d := by
  obtain ⟨d', hd', rfl⟩ := Wrapping.parameterBreakdown_eq_ok.mp h
  obtain rfl := hd.unique hd'
  rw [← ModelConfig.sum_components] at hfits
  have hmod : ∀ n, n < 2 ^ 64 → n % 2 ^ 64 = n := fun n hn => Nat.mod_eq_of_lt hn
  rw [hmod _ (by omega), hmod _ (by omega), hmod _ (by omega), hmod _ (by omega), hmod _ (by omega)]

theorem ModelWraps.headDim_pos {spec : ModelSpec} {dtype : PlanDType} {contextLength d : Nat}
    (h : ModelWraps spec dtype contextLength d) : 0 < d := by
  by_contra hzero
  have hd : d = 0 := by omega
  have hhidden : spec.config.hiddenSize = 0 := by rw [h.heads.hidden_eq, hd, Nat.mul_zero]
  have hlarge := h.large
  simp [ModelConfig.parameters, ModelConfig.perBlock, hhidden] at hlarge

/-- A wrapped total goes through all checks of the planner. -/
theorem ModelWraps.forModel_ok {spec : ModelSpec} {dtype : PlanDType} {contextLength d : Nat}
    (h : ModelWraps spec dtype contextLength d) (budget : Option MemoryBudget) :
    ∃ plan, Wrapping.forModel spec dtype contextLength budget = .ok plan ∧
      plan.parameterCount = spec.config.parameters d % 2 ^ 64 := by
  obtain ⟨b, hb⟩ : ∃ b, Wrapping.parameterBreakdown spec = .ok b :=
    ⟨_, Wrapping.parameterBreakdown_eq_ok.mpr ⟨d, h.heads, rfl⟩⟩
  have hfits := h.fits
  have hweights : spec.expectedParameters * dtype.bytes < 2 ^ 64 := by omega
  have hcache : kvCacheBytes spec.config.numHiddenLayers contextLength spec.config.numKeyValueHeads d
      dtype = some _ :=
    (kvCacheBytes_eq_some_of_pos h.context_pos h.heads.keys_pos h.headDim_pos).mpr ⟨by omega, rfl⟩
  have hcontext : ¬ (contextLength = 0 ∨ contextLength > spec.config.maxPositionEmbeddings) := by
    have hpos := h.context_pos
    have hle := h.context_le
    omega
  have htotal : Wrapping.total b = spec.expectedParameters := by
    rw [Wrapping.total_eq h.heads hb, h.expected]
  have hplan : ∃ plan, Wrapping.forModel spec dtype contextLength budget = .ok plan ∧
      plan.parameterCount = spec.expectedParameters := by
    simp only [Wrapping.forModel, bind_eq_ok, refuse_eq_ok, okOr_eq_ok, ModelConfig.headDim_eq_ok,
      checkedMul_eq_some, checkedAdd_eq_some]
    exact ⟨_, ⟨(), hcontext, b, hb, (), not_not.mpr htotal, _, ⟨hweights, rfl⟩, d, h.heads, _,
      hcache, _, ⟨hfits, rfl⟩, rfl⟩, rfl⟩
  rw [← h.expected]
  exact hplan

/-- The planner of a model is exact unless the total wraps unnoticed. -/
theorem Wrapping.forModel_exact_iff {spec : ModelSpec} {dtype : PlanDType} {contextLength : Nat}
    {budget : Option MemoryBudget} :
    (∀ plan, Wrapping.forModel spec dtype contextLength budget = .ok plan →
      ∃ d, spec.config.Heads d ∧ plan.Exact spec dtype contextLength budget d) ↔
    ∀ d, ¬ ModelWraps spec dtype contextLength d := by
  constructor
  · intro hexact d hwraps
    obtain ⟨plan, hplan, hcount⟩ := hwraps.forModel_ok budget
    obtain ⟨d', hd', hplan⟩ := hexact plan hplan
    obtain rfl := hwraps.heads.unique hd'
    have hlt := Nat.mod_lt (spec.config.parameters d) (by norm_num : 2 ^ 64 > 0)
    have hlarge := hwraps.large
    rw [← hcount, hplan.parameterCount] at hlt
    omega
  · intro hno plan h
    simp only [Wrapping.forModel, bind_eq_ok, refuse_eq_ok, okOr_eq_ok, ModelConfig.headDim_eq_ok,
      checkedMul_eq_some, checkedAdd_eq_some, pure_eq_ok] at h
    obtain ⟨-, hcontext, b, hb, -, htotal, w, ⟨-, rfl⟩, d, hd, kv, hkv, p, ⟨hp, rfl⟩, rfl⟩ := h
    rw [not_not, Wrapping.total_eq hd hb] at htotal
    rw [kvFormula_of_eq_some hkv] at hp ⊢
    have hfits : spec.config.parameters d < 2 ^ 64 := by
      by_contra hlarge
      exact hno d ⟨by omega, by omega, hd, by omega, htotal.symm, hp⟩
    rw [Nat.mod_eq_of_lt hfits] at htotal
    refine ⟨d, hd, Wrapping.parameterBreakdown_exact hd hb hfits, htotal.symm, by rw [htotal], rfl,
      by rw [htotal], ?_⟩
    intro budget' hbudget
    subst hbudget
    rw [htotal]
    simp only [ite_eq_left_iff, reduceCtorEq, imp_false, not_not]

end Dlir.Runtime
