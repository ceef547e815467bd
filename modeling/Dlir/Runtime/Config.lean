import Dlir.Collectives.Error
import Dlir.Math.Checked

namespace Dlir.Runtime

open Dlir.Collectives

/-- Stable identifier of a registered model. -/
inductive SupportedModelId
  | smolLm2_135MInstruct
  | tinyLlama1_1BChat
  deriving DecidableEq, Repr

def SupportedModelId.asStr : SupportedModelId → String
  | smolLm2_135MInstruct => "smollm2-135m-instruct"
  | tinyLlama1_1BChat => "tinyllama-1.1b-chat"

/-- Numeric type used for planning and execution. -/
inductive PlanDType
  | f16
  | bf16
  | f32
  deriving DecidableEq, Repr

def PlanDType.bytes : PlanDType → Nat
  | f16 => 2
  | bf16 => 2
  | f32 => 4

/-- Element type required in a registered checkpoint. -/
inductive CheckpointDType
  | f16
  | bf16
  deriving DecidableEq, Repr

/-- Element type of a tensor in a checkpoint file. -/
inductive SafetensorsDtype
  | f16
  | bf16
  | other (name : String)
  deriving DecidableEq, Repr

def CheckpointDType.safetensors : CheckpointDType → SafetensorsDtype
  | f16 => .f16
  | bf16 => .bf16

/-- How a checkpoint differs from its registry entry, with the values that the message shows. -/
inductive CheckpointMismatch
  | dtypes (expected : CheckpointDType) (count : Nat) (preview : List (String × SafetensorsDtype))
  | manifest (missing unexpected : List String) (wrongShapes : List (String × List Nat × List Nat))
  | parameterOverflow
  | parameters (found expected : Nat)
  deriving DecidableEq, Repr

/-- Failure detected while planning, loading or executing one request. -/
inductive DlirError
  | unsupportedExecution (model : SupportedModelId) (dtype : PlanDType)
  | invalidConfig (message : String)
  | checkpointMismatch (mismatch : CheckpointMismatch)
  | cacheCapacityExceeded (attempted capacity : Nat)
  | tensor (error : CandleError)
  | collective (error : CollectivesError)
  /-- Unchecked arithmetic left the range of its type. -/
  | overflow
  deriving DecidableEq, Repr

/-- A value that the source computes without a check in 64 bits. A build with overflow checks stops
where it does not fit; the others would go on with a wrong value. -/
def u64 (n : Nat) : Except DlirError Nat := if n < 2 ^ 64 then .ok n else .error .overflow

theorem u64_eq_ok {n m : Nat} : u64 n = .ok m ↔ n < 2 ^ 64 ∧ m = n := by
  unfold u64
  constructor
  · intro h
    split_ifs at h with hn
    exact ⟨hn, (Except.ok.inj h).symm⟩
  · rintro ⟨hn, rfl⟩
    rw [if_pos hn]

/-- Architecture values required by execution and planning. The fields are 64 bits wide. -/
structure ModelConfig where
  vocabSize : Nat
  hiddenSize : Nat
  intermediateSize : Nat
  numHiddenLayers : Nat
  numAttentionHeads : Nat
  numKeyValueHeads : Nat
  maxPositionEmbeddings : Nat
  bosTokenId : Nat
  eosTokenId : Nat
  tieWordEmbeddings : Bool
  deriving DecidableEq, Repr

namespace ModelConfig

/-- Validates the divisibility of the heads and returns the width of one head. -/
def headDim (config : ModelConfig) : Except DlirError Nat :=
  if config.numAttentionHeads = 0 ∨ config.hiddenSize % config.numAttentionHeads ≠ 0 then
    .error (.invalidConfig
      s!"hidden size {config.hiddenSize} is not divisible by {config.numAttentionHeads} attention heads")
  else if config.numKeyValueHeads = 0 ∨ config.numAttentionHeads % config.numKeyValueHeads ≠ 0 then
    .error (.invalidConfig
      s!"{config.numAttentionHeads} attention heads are not divisible by {config.numKeyValueHeads} KV heads")
  else .ok (config.hiddenSize / config.numAttentionHeads)

/-- What `head_dim` establishes. -/
structure Heads (config : ModelConfig) (headDim : Nat) : Prop where
  queries_pos : 0 < config.numAttentionHeads
  keys_pos : 0 < config.numKeyValueHeads
  hidden_eq : config.hiddenSize = config.numAttentionHeads * headDim
  keys_dvd : config.numKeyValueHeads ∣ config.numAttentionHeads

theorem headDim_eq_ok {config : ModelConfig} {d : Nat} :
    config.headDim = .ok d ↔ config.Heads d := by
  unfold headDim
  constructor
  · intro h
    split_ifs at h with hq hk
    obtain rfl := Except.ok.inj h
    push Not at hq hk
    have hdvd : config.numAttentionHeads ∣ config.hiddenSize := Nat.dvd_of_mod_eq_zero hq.2
    exact ⟨Nat.pos_of_ne_zero hq.1, Nat.pos_of_ne_zero hk.1, (Nat.mul_div_cancel' hdvd).symm,
      Nat.dvd_of_mod_eq_zero hk.2⟩
  · intro h
    have hq : ¬ (config.numAttentionHeads = 0 ∨
        config.hiddenSize % config.numAttentionHeads ≠ 0) := by
      have := h.queries_pos
      rw [h.hidden_eq, Nat.mul_mod_right]
      omega
    have hk : ¬ (config.numKeyValueHeads = 0 ∨
        config.numAttentionHeads % config.numKeyValueHeads ≠ 0) := by
      have := h.keys_pos
      rw [Nat.mod_eq_zero_of_dvd h.keys_dvd]
      omega
    rw [if_neg hq, if_neg hk, h.hidden_eq, Nat.mul_div_cancel_left _ h.queries_pos]

theorem Heads.unique {config : ModelConfig} {d d' : Nat} (h : config.Heads d)
    (h' : config.Heads d') : d = d' :=
  Except.ok.inj ((headDim_eq_ok.mpr h).symm.trans (headDim_eq_ok.mpr h'))

/-- The key and value projections are not wider than the hidden state. -/
theorem Heads.kvSize_le {config : ModelConfig} {d : Nat} (h : config.Heads d) :
    config.numKeyValueHeads * d ≤ config.hiddenSize := by
  rw [h.hidden_eq]
  exact Nat.mul_le_mul_right d (Nat.le_of_dvd h.queries_pos h.keys_dvd)

end ModelConfig

/-- Contract of one supported checkpoint, as far as planning and loading read it. -/
structure ModelSpec where
  id : SupportedModelId
  expectedParameters : Nat
  checkpointDtype : CheckpointDType
  config : ModelConfig
  deriving DecidableEq, Repr

/-- The registry entry of a model. -/
def SupportedModelId.spec : SupportedModelId → ModelSpec
  | smolLm2_135MInstruct => {
      id := smolLm2_135MInstruct
      expectedParameters := 134515008
      checkpointDtype := .bf16
      config := {
        vocabSize := 49152
        hiddenSize := 576
        intermediateSize := 1536
        numHiddenLayers := 30
        numAttentionHeads := 9
        numKeyValueHeads := 3
        maxPositionEmbeddings := 8192
        bosTokenId := 1
        eosTokenId := 2
        tieWordEmbeddings := true } }
  | tinyLlama1_1BChat => {
      id := tinyLlama1_1BChat
      expectedParameters := 1100048384
      checkpointDtype := .bf16
      config := {
        vocabSize := 32000
        hiddenSize := 2048
        intermediateSize := 5632
        numHiddenLayers := 22
        numAttentionHeads := 32
        numKeyValueHeads := 4
        maxPositionEmbeddings := 2048
        bosTokenId := 1
        eosTokenId := 2
        tieWordEmbeddings := false } }

end Dlir.Runtime
