import Dlir.Collectives.Native
import Dlir.Framework.Requests
import Dlir.Runtime.Shards

namespace Dlir.Runtime

open Dlir.Collectives Dlir.Framework

variable {τ κ : Type}

/-- One weight that a loader asks for: its name, its full shape and, where a rank wants only its
share, the axis along which it is split. -/
structure Request where
  name : String
  shape : List Nat
  shardDim : Option Nat
  deriving DecidableEq, Repr

namespace Request

/-- The shape that one of `tp` ranks gets. -/
def localShape (self : Request) (tp : Nat) : List Nat :=
  match self.shardDim with
  | none => self.shape
  | some dim => self.shape.modify dim (· / tp)

/-- How many elements of a weight one of `tp` ranks gets. -/
def elements (self : Request) (tp : Nat) : Nat := (self.localShape tp).prod

end Request

/-- Code that loads weights. -/
abbrev Load (α : Type) : Type := Asking Request DlirError α

/-- Where weights come from, with the place in the tree of names that is looked at. -/
structure VarBuilder (τ : Type) where
  backend : Request → Except DlirError τ
  path : List String

namespace VarBuilder

def pp (self : VarBuilder τ) (s : String) : VarBuilder τ := { self with path := self.path ++ [s] }

def tensorPath (self : VarBuilder τ) (name : String) : String :=
  if self.path.isEmpty then name else ".".intercalate [".".intercalate self.path, name]

def get (self : VarBuilder τ) (shape : List Nat) (name : String) : Load τ :=
  ask self.backend ⟨self.tensorPath name, shape, none⟩

end VarBuilder

structure Linear (τ : Type) where
  weight : τ

structure Embedding (τ : Type) where
  embeddings : τ
  hiddenSize : Nat

structure RmsNorm (τ : Type) where
  weight : τ

def linearNoBias (inDim outDim : Nat) (vb : VarBuilder τ) : Load (Linear τ) := do
  let ws ← vb.get [outDim, inDim] "weight"
  pure ⟨ws⟩

def embedding (inSize outSize : Nat) (vb : VarBuilder τ) : Load (Embedding τ) := do
  let embeddings ← vb.get [inSize, outSize] "weight"
  pure ⟨embeddings, outSize⟩

def rmsNorm (size : Nat) (vb : VarBuilder τ) : Load (RmsNorm τ) := do
  let weight ← vb.get [size] "weight"
  pure ⟨weight⟩

structure CausalSelfAttention (τ : Type) where
  qProj : Linear τ
  kProj : Linear τ
  vProj : Linear τ
  oProj : Linear τ
  numAttentionHeads : Nat
  numKeyValueHeads : Nat
  headDim : Nat

def CausalSelfAttention.load (vb : VarBuilder τ) (config : ModelConfig) :
    Load (CausalSelfAttention τ) := do
  let headDim ← settle config.headDim
  let kvSize := config.numKeyValueHeads * headDim
  pure {
    qProj := ← linearNoBias config.hiddenSize config.hiddenSize (vb.pp "q_proj")
    kProj := ← linearNoBias config.hiddenSize kvSize (vb.pp "k_proj")
    vProj := ← linearNoBias config.hiddenSize kvSize (vb.pp "v_proj")
    oProj := ← linearNoBias config.hiddenSize config.hiddenSize (vb.pp "o_proj")
    numAttentionHeads := config.numAttentionHeads
    numKeyValueHeads := config.numKeyValueHeads
    headDim }

structure Mlp (τ : Type) where
  gateProj : Linear τ
  upProj : Linear τ
  downProj : Linear τ

def Mlp.load (vb : VarBuilder τ) (config : ModelConfig) : Load (Mlp τ) := do
  pure {
    gateProj := ← linearNoBias config.hiddenSize config.intermediateSize (vb.pp "gate_proj")
    upProj := ← linearNoBias config.hiddenSize config.intermediateSize (vb.pp "up_proj")
    downProj := ← linearNoBias config.intermediateSize config.hiddenSize (vb.pp "down_proj") }

structure Block (τ : Type) where
  inputNorm : RmsNorm τ
  attention : CausalSelfAttention τ
  postAttentionNorm : RmsNorm τ
  mlp : Mlp τ

def Block.load (vb : VarBuilder τ) (config : ModelConfig) : Load (Block τ) := do
  pure {
    inputNorm := ← rmsNorm config.hiddenSize (vb.pp "input_layernorm")
    attention := ← CausalSelfAttention.load (vb.pp "self_attn") config
    postAttentionNorm := ← rmsNorm config.hiddenSize (vb.pp "post_attention_layernorm")
    mlp := ← Mlp.load (vb.pp "mlp") config }

/-- The rotary tables hold floating-point values; `rotary` stands for their computation. -/
structure Llama (τ κ : Type) where
  embeddings : Embedding τ
  blocks : List (Block τ)
  finalNorm : RmsNorm τ
  lmHead : Linear τ
  rope : κ

/-- Loads all model components and precomputes the rotary tables to `capacity` positions. -/
def Llama.load (rotary : ModelConfig → Nat → Except DlirError κ) (vb : VarBuilder τ)
    (config : ModelConfig) (capacity : Nat) : Load (Llama τ κ) := do
  let embeddings ← embedding config.vocabSize config.hiddenSize (vb.pp "model.embed_tokens")
  let lmHead ← if config.tieWordEmbeddings then pure ⟨embeddings.embeddings⟩
    else linearNoBias config.hiddenSize config.vocabSize (vb.pp "lm_head")
  let blocks ← (List.range config.numHiddenLayers).mapM fun index =>
    Block.load (vb.pp s!"model.layers.{index}") config
  let finalNorm ← rmsNorm config.hiddenSize (vb.pp "model.norm")
  let rope ← settle (rotary config capacity)
  pure ⟨embeddings, blocks, finalNorm, lmHead, rope⟩

/-- One contiguous rank-local slice of the model. -/
structure LlamaStage (τ κ : Type) where
  layerStart : Nat
  layerEnd : Nat
  embeddings : Option (Embedding τ)
  blocks : List (Block τ)
  finalNorm : Option (RmsNorm τ)
  lmHead : Option (Linear τ)
  rope : κ

/-- Loads what only some stages have. -/
def loadWhen {α : Type} (wanted : Bool) (c : Load α) : Load (Option α) :=
  if wanted then some <$> c else pure none

def LlamaStage.load (rotary : ModelConfig → Nat → Except DlirError κ) (vb : VarBuilder τ)
    (config : ModelConfig) (layerStart layerEnd : Nat) (firstStage finalStage : Bool)
    (capacity : Nat) : Load (LlamaStage τ κ) := do
  settle <| refuse (layerStart ≥ layerEnd ∨ layerEnd > config.numHiddenLayers) <| .invalidConfig
    s!"stage layer range {layerStart}..{layerEnd} is outside 0..{config.numHiddenLayers}"
  let embeddings ← loadWhen firstStage
    (embedding config.vocabSize config.hiddenSize (vb.pp "model.embed_tokens"))
  let blocks ← (List.range' layerStart (layerEnd - layerStart)).mapM fun index =>
    Block.load (vb.pp s!"model.layers.{index}") config
  let finalNorm ← loadWhen finalStage (rmsNorm config.hiddenSize (vb.pp "model.norm"))
  let lmHead ← loadWhen finalStage <|
    if config.tieWordEmbeddings then
      (fun outputEmbeddings => ⟨outputEmbeddings.embeddings⟩) <$>
        embedding config.vocabSize config.hiddenSize (vb.pp "model.embed_tokens")
    else linearNoBias config.hiddenSize config.vocabSize (vb.pp "lm_head")
  let rope ← settle (rotary config capacity)
  pure ⟨layerStart, layerEnd, embeddings, blocks, finalNorm, lmHead, rope⟩

/-- Where a tensor-parallel rank gets its share of the weights. -/
structure WeightSource (τ : Type) where
  dims : τ → List Nat
  tensor : Request → ParallelContext → Except DlirError τ

namespace WeightSource

def get (self : WeightSource τ) (parallel : ParallelContext) (name : String) (shape : List Nat)
    (shardDim : Option Nat) : Load τ :=
  ask (self.tensor · parallel) ⟨name, shape, shardDim⟩

def dims2 (self : WeightSource τ) (t : τ) : Except DlirError (Nat × Nat) :=
  match self.dims t with
  | [a, b] => .ok (a, b)
  | shape => .error (.tensor (.unexpectedNumberOfDims 2 shape))

end WeightSource

/-- Column-sharded linear transform. -/
structure ColumnParallelLinear (τ : Type) where
  linear : Linear τ
  globalOutputFeatures : Nat
  gatherOutput : Bool

def ColumnParallelLinear.fromWeight (source : WeightSource τ) (weight : τ)
    (globalOutputFeatures : Nat) (gatherOutput : Bool) :
    Except DlirError (ColumnParallelLinear τ) := do
  let (localOutput, _) ← source.dims2 weight
  refuse (localOutput = 0 ∨ globalOutputFeatures % localOutput ≠ 0) <| .invalidConfig
    s!"local output width {localOutput} does not evenly shard global width {globalOutputFeatures}"
  pure ⟨⟨weight⟩, globalOutputFeatures, gatherOutput⟩

/-- Row-sharded linear transform. -/
structure RowParallelLinear (τ : Type) where
  linear : Linear τ
  algorithm : AllReduceAlgorithm

def RowParallelLinear.fromWeight (source : WeightSource τ) (weight : τ)
    (algorithm : AllReduceAlgorithm) : Except DlirError (RowParallelLinear τ) := do
  let _ ← source.dims2 weight
  pure ⟨⟨weight⟩, algorithm⟩

/-- Vocabulary-row-sharded embedding. -/
structure VocabParallelEmbedding (τ : Type) where
  embedding : Embedding τ
  range : ShardRange
  globalVocabulary : Nat
  algorithm : AllReduceAlgorithm

namespace VocabParallelEmbedding

def fromWeight (source : WeightSource τ) (weight : τ) (range : ShardRange)
    (globalVocabulary : Nat) : Except DlirError (VocabParallelEmbedding τ) := do
  let (rows, hidden) ← source.dims2 weight
  refuse (rows ≠ range.len ∨ range.stop > globalVocabulary) <| .invalidConfig
    "embedding weight and vocabulary shard range disagree"
  pure ⟨⟨weight, hidden⟩, range, globalVocabulary, .centralized⟩

def withAllReduce (self : VocabParallelEmbedding τ) (algorithm : AllReduceAlgorithm) :
    VocabParallelEmbedding τ :=
  { self with algorithm }

end VocabParallelEmbedding

/-- Vocabulary-sharded language-model head. -/
structure VocabParallelLmHead (τ : Type) where
  linear : ColumnParallelLinear τ

def VocabParallelLmHead.fromWeight (source : WeightSource τ) (weight : τ)
    (globalVocabulary : Nat) : Except DlirError (VocabParallelLmHead τ) := do
  pure ⟨← ColumnParallelLinear.fromWeight source weight globalVocabulary true⟩

structure TensorParallelAttention (τ : Type) where
  qProj : Linear τ
  kProj : Linear τ
  vProj : Linear τ
  oProj : RowParallelLinear τ
  localQueryHeads : Nat
  localKvHeads : Nat
  headDim : Nat

def TensorParallelAttention.load (source : WeightSource τ) (path : String) (config : ModelConfig)
    (parallel : ParallelContext) (algorithm : AllReduceAlgorithm) :
    Load (TensorParallelAttention τ) := do
  let headDim ← settle config.headDim
  let kvWidth := config.numKeyValueHeads * headDim
  let q ← source.get parallel s!"{path}.q_proj.weight" [config.hiddenSize, config.hiddenSize] (some 0)
  let k ← source.get parallel s!"{path}.k_proj.weight" [kvWidth, config.hiddenSize] (some 0)
  let v ← source.get parallel s!"{path}.v_proj.weight" [kvWidth, config.hiddenSize] (some 0)
  let o ← source.get parallel s!"{path}.o_proj.weight" [config.hiddenSize, config.hiddenSize] (some 1)
  pure {
    qProj := ⟨q⟩
    kProj := ⟨k⟩
    vProj := ⟨v⟩
    oProj := ← settle (RowParallelLinear.fromWeight source o algorithm)
    localQueryHeads := config.numAttentionHeads / parallel.tpSize
    localKvHeads := config.numKeyValueHeads / parallel.tpSize
    headDim }

structure TensorParallelMlp (τ : Type) where
  gateProj : Linear τ
  upProj : Linear τ
  downProj : RowParallelLinear τ

def TensorParallelMlp.load (source : WeightSource τ) (path : String) (config : ModelConfig)
    (parallel : ParallelContext) (algorithm : AllReduceAlgorithm) : Load (TensorParallelMlp τ) := do
  let gate ← source.get parallel s!"{path}.gate_proj.weight"
    [config.intermediateSize, config.hiddenSize] (some 0)
  let up ← source.get parallel s!"{path}.up_proj.weight"
    [config.intermediateSize, config.hiddenSize] (some 0)
  let down ← source.get parallel s!"{path}.down_proj.weight"
    [config.hiddenSize, config.intermediateSize] (some 1)
  pure ⟨⟨gate⟩, ⟨up⟩, ← settle (RowParallelLinear.fromWeight source down algorithm)⟩

structure TensorParallelBlock (τ : Type) where
  inputNorm : RmsNorm τ
  attention : TensorParallelAttention τ
  postAttentionNorm : RmsNorm τ
  mlp : TensorParallelMlp τ

def TensorParallelBlock.load (source : WeightSource τ) (layer : Nat) (config : ModelConfig)
    (parallel : ParallelContext) (algorithm : AllReduceAlgorithm) :
    Load (TensorParallelBlock τ) := do
  let path := s!"model.layers.{layer}"
  let inputNorm ← source.get parallel s!"{path}.input_layernorm.weight" [config.hiddenSize] none
  let postNorm ←
    source.get parallel s!"{path}.post_attention_layernorm.weight" [config.hiddenSize] none
  pure {
    inputNorm := ⟨inputNorm⟩
    attention :=
      ← TensorParallelAttention.load source s!"{path}.self_attn" config parallel algorithm
    postAttentionNorm := ⟨postNorm⟩
    mlp := ← TensorParallelMlp.load source s!"{path}.mlp" config parallel algorithm }

/-- The model constructed with rank-local tensor shards. -/
structure TensorParallelLlama (τ κ : Type) where
  parallel : ParallelContext
  embeddings : VocabParallelEmbedding τ
  blocks : List (TensorParallelBlock τ)
  finalNorm : RmsNorm τ
  lmHead : VocabParallelLmHead τ
  rope : κ

def TensorParallelLlama.loadFrom (rotary : ModelConfig → Nat → Except DlirError κ)
    (source : WeightSource τ) (config : ModelConfig) (parallel : ParallelContext) (capacity : Nat)
    (algorithm : AllReduceAlgorithm) : Load (TensorParallelLlama τ κ) := do
  let plan ← settle (planTensorShard config parallel)
  let embeddingWeight ← source.get parallel "model.embed_tokens.weight"
    [config.vocabSize, config.hiddenSize] (some 0)
  let embeddings ← settle <|
    VocabParallelEmbedding.fromWeight source embeddingWeight plan.vocabulary config.vocabSize
  let blocks ← (List.range config.numHiddenLayers).mapM fun layer =>
    TensorParallelBlock.load source layer config parallel algorithm
  let finalNorm ← source.get parallel "model.norm.weight" [config.hiddenSize] none
  let headWeight ← if config.tieWordEmbeddings then pure embeddingWeight
    else source.get parallel "lm_head.weight" [config.vocabSize, config.hiddenSize] (some 0)
  let lmHead ← settle (VocabParallelLmHead.fromWeight source headWeight config.vocabSize)
  let rope ← settle (rotary config capacity)
  pure {
    parallel
    embeddings := embeddings.withAllReduce algorithm
    blocks
    finalNorm := ⟨finalNorm⟩
    lmHead, rope }

end Dlir.Runtime
