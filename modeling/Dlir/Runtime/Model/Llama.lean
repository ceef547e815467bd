import Dlir.Runtime.Model.KvCache

namespace Dlir.Runtime.Model

open Dlir.Collectives Dlir.Framework

variable {m : Type → Type} [Monad m] {α β : Type}

def Linear.forward (lib : Library α) (self : Linear (Tensor α)) (x : Tensor α) :
    Except DlirError (Tensor α) :=
  lib.run .linear [self.weight, x]

def RmsNorm.forward (lib : Library α) (self : RmsNorm (Tensor α)) (x : Tensor α) :
    Except DlirError (Tensor α) :=
  lib.run .rmsNorm [self.weight, x]

/-- The rotary tables. -/
structure RotaryEmbedding (α : Type) where
  cos : Tensor α
  sin : Tensor α

namespace RotaryEmbedding

def new (lib : Library α) (config : ModelConfig) (capacity : Nat) :
    Except DlirError (RotaryEmbedding α) := do
  let headDim ← config.headDim
  let inverseFrequency := (List.range' 0 ((headDim + 1) / 2) 2).map fun index =>
    lib.inverseFrequency index headDim
  let theta ← (Tensor.fromVec inverseFrequency [inverseFrequency.length]).mapError .tensor
  -- the positions are counted in 32 bits
  let positions ← (Tensor.fromVec ((List.range (capacity % 2 ^ 32)).map lib.ofNat)
    [capacity % 2 ^ 32]).mapError .tensor
  let positions ← lib.run .toF32 [positions]
  let positions ← lib.run (.reshape [capacity, 1]) [positions]
  let theta ← lib.run (.reshape [1, headDim / 2]) [theta]
  let frequencies ← lib.run .matmul [positions, theta]
  let cos ← lib.run .cos [frequencies]
  let cos ← lib.run .toDtype [cos]
  let sin ← lib.run .sin [frequencies]
  let sin ← lib.run .toDtype [sin]
  pure ⟨cos, sin⟩

def apply (lib : Library α) (self : RotaryEmbedding α) (tensor : Tensor α) (position : Nat) :
    Except DlirError (Tensor α) := do
  let sequence ← (tensor.dim 2).mapError .tensor
  let cos ← lib.run (.narrow 0 position sequence) [self.cos]
  let sin ← lib.run (.narrow 0 position sequence) [self.sin]
  lib.run .rope [tensor, cos, sin]

end RotaryEmbedding

def repeatKv (lib : Library α) (tensor : Tensor α) (repetitions : Nat) :
    Except DlirError (Tensor α) :=
  if repetitions = 1 then .ok tensor
  else do
    let (batch, kvHeads, sequence, headDim) ← (dims4 tensor).mapError .tensor
    let tensor ← lib.run (.unsqueeze 2) [tensor]
    let tensor ← lib.run (.expand [batch, kvHeads, repetitions, sequence, headDim]) [tensor]
    lib.run (.reshape [batch, kvHeads * repetitions, sequence, headDim]) [tensor]

/-- Row `query` of the mask hides the keys after the absolute position of the query. -/
def causalMask (position sequence : Nat) : List Bool :=
  (List.range sequence).flatMap fun query =>
    (List.range (position + sequence)).map fun key => decide (key > position + query)

def applyCausalMask (lib : Library α) (scores : Tensor α) (position sequence : Nat) :
    Except DlirError (Tensor α) := do
  let mask ← (Tensor.fromVec (causalMask position sequence)
    [sequence, position + sequence]).mapError fun _ => .overflow
  lib.run (.whereCond mask) [scores]

/-- One query at the last position sees every key. -/
def visibleScores (lib : Library α) (scores : Tensor α) (position sequence : Nat) :
    Except DlirError (Tensor α) :=
  if sequence > 1 then applyCausalMask lib scores position sequence else .ok scores

/-- The weights of an attention before its output projection, with the heads of this process. -/
structure Projections (α : Type) where
  qProj : Linear (Tensor α)
  kProj : Linear (Tensor α)
  vProj : Linear (Tensor α)
  queryHeads : Nat
  kvHeads : Nat
  headDim : Nat

namespace Projections

/-- Projects to heads: `[B, S, H] -> [B, heads, S, D]`. -/
def heads (lib : Library α) (proj : Linear (Tensor α)) (input : Tensor α)
    (batch sequence count headDim : Nat) : Except DlirError (Tensor α) := do
  let t ← Linear.forward lib proj input
  let t ← lib.run (.reshape [batch, sequence, count, headDim]) [t]
  let t ← lib.run (.transpose 1 2) [t]
  lib.run .contiguous [t]

/-- The queries, keys and values of the input, up to the cache. -/
def project (lib : Library α) (self : Projections α) (rope : RotaryEmbedding α) (input : Tensor α)
    (batch sequence position : Nat) : Except DlirError (Tensor α × Tensor α × Tensor α) := do
  let q ← heads lib self.qProj input batch sequence self.queryHeads self.headDim
  let k ← heads lib self.kProj input batch sequence self.kvHeads self.headDim
  let v ← heads lib self.vProj input batch sequence self.kvHeads self.headDim
  let q ← rope.apply lib q position
  let k ← rope.apply lib k position
  pure (q, k, v)

/-- Attention of the queries to the cached keys and values. -/
def attend (lib : Library α) (self : Projections α) (input q k v : Tensor α)
    (batch sequence position width : Nat) : Except DlirError (Tensor α) := do
  let k ← repeatKv lib k (self.queryHeads / self.kvHeads)
  let v ← repeatKv lib v (self.queryHeads / self.kvHeads)
  let q ← lib.run .toF32 [q]
  let k ← lib.run .toF32 [k]
  let v ← lib.run .toF32 [v]
  let scores ← lib.run .matmul [q, ← lib.run (.transpose 2 3) [k]]
  let scores ← lib.run (.divSqrt self.headDim) [scores]
  let scores ← visibleScores lib scores position sequence
  let probabilities ← lib.run .softmaxLastDim [scores]
  let output ← lib.run .matmul [probabilities, ← lib.run .contiguous [v]]
  let output ← lib.run .toDtypeOf [output, input]
  let output ← lib.run (.transpose 1 2) [output]
  lib.run (.reshape [batch, sequence, width]) [output]

end Projections

/-- A forward pass: it may fail, and what it has done to the cache stays. -/
abbrev Forward (m : Type → Type) (α β : Type) : Type := ExceptT DlirError (StateT (KvCache α) m) β

namespace Forward

/-- A part that does not touch the cache. -/
def ofResult (x : Except DlirError β) : Forward m α β := ExceptT.mk (pure x)

/-- A part that the observer or the communicator does. -/
def lift (x : m (Except DlirError β)) : Forward m α β := ExceptT.mk (StateT.lift x)

def append (lib : Library α) (layer : Nat) (keys values : Tensor α) :
    Forward m α (Tensor α × Tensor α) :=
  ExceptT.mk fun cache => pure (cache.append lib.toCandle layer keys values)

/-- The cache as it is now. -/
def cache : Forward m α (KvCache α) := ExceptT.mk fun cache => pure (.ok cache, cache)

end Forward

open Forward

/-- The queries of the input, with the keys and values of all positions so far. -/
def Projections.cached (lib : Library α) (self : Projections α) (rope : RotaryEmbedding α)
    (input : Tensor α) (batch sequence position layer : Nat) :
    Forward m α (Tensor α × Tensor α × Tensor α) := do
  let (q, k, v) ← ofResult (self.project lib rope input batch sequence position)
  let (k, v) ← append lib layer k v
  pure (q, k, v)

def CausalSelfAttention.projections (self : CausalSelfAttention (Tensor α)) : Projections α where
  qProj := self.qProj
  kProj := self.kProj
  vProj := self.vProj
  queryHeads := self.numAttentionHeads
  kvHeads := self.numKeyValueHeads
  headDim := self.headDim

def CausalSelfAttention.forward (lib : Library α) (self : CausalSelfAttention (Tensor α))
    (input : Tensor α) (position layer : Nat) (rope : RotaryEmbedding α) :
    Forward m α (Tensor α) := do
  let (batch, sequence, hidden) ← ofResult (dims3 input)
  let heads := projections self
  let (q, k, v) ← heads.cached lib rope input batch sequence position layer
  let output ← ofResult (heads.attend lib input q k v batch sequence position hidden)
  ofResult (Linear.forward lib self.oProj output)

/-- The product of the gated and the plain projection. -/
def gatedProduct (lib : Library α) (gateProj upProj : Linear (Tensor α)) (input : Tensor α) :
    Except DlirError (Tensor α) := do
  let gate ← Linear.forward lib gateProj input
  let gated ← lib.run .silu [gate]
  let up ← Linear.forward lib upProj input
  lib.run .mul [gated, up]

def Mlp.forward (lib : Library α) (self : Mlp (Tensor α)) (input : Tensor α) :
    Except DlirError (Tensor α) := do
  let product ← gatedProduct lib self.gateProj self.upProj input
  Linear.forward lib self.downProj product

def Block.forward (lib : Library α) (self : Block (Tensor α)) (input : Tensor α)
    (position layer : Nat) (rope : RotaryEmbedding α) : Forward m α (Tensor α) := do
  let normed ← ofResult (RmsNorm.forward lib self.inputNorm input)
  let attention ← CausalSelfAttention.forward lib self.attention normed position layer rope
  let hidden ← ofResult (lib.run .add [input, attention])
  let normed ← ofResult (RmsNorm.forward lib self.postAttentionNorm hidden)
  let mlp ← ofResult (Mlp.forward lib self.mlp normed)
  ofResult (lib.run .add [hidden, mlp])

/-- The last position of the normalized hidden states. -/
def lastPosition (lib : Library α) (finalNorm : RmsNorm (Tensor α)) (hidden : Tensor α)
    (sequence : Nat) : Except DlirError (Tensor α) := do
  let hidden ← RmsNorm.forward lib finalNorm hidden
  let last ← lib.run (.index (sequence - 1)) [hidden]
  lib.run .contiguous [last]

/-- The logits of the last position. -/
def lastLogits (lib : Library α) (finalNorm : RmsNorm (Tensor α)) (lmHead : Linear (Tensor α))
    (hidden : Tensor α) (sequence : Nat) : Except DlirError (Tensor α) := do
  let last ← lastPosition lib finalNorm hidden sequence
  let logits ← Linear.forward lib lmHead last
  lib.run .toF32 [logits]

/-- Runs prefill or cached decode and returns logits for the final sequence position. -/
def Llama.forward (lib : Library α) (self : Llama (Tensor α) (RotaryEmbedding α))
    (tokens : TokenTensor) (position : Nat) : Forward m α (Tensor α) := do
  let (batch, sequence) ← ofResult (dims2 tokens.ids)
  ofResult <| refuse (batch ≠ 1) <| .invalidConfig s!"v0.1 requires batch size one, received {batch}"
  ofResult <| refuse (sequence = 0) <| .invalidConfig
    "a model forward pass requires at least one token"
  let kv ← cache
  ofResult <| refuse (position ≠ kv.len) <| .invalidConfig
    s!"forward position {position} does not match cache length {kv.len}"
  ofResult <| refuse (position + sequence > kv.capacity) <|
    .cacheCapacityExceeded (position + sequence) kv.capacity
  let hidden ← ofResult (lib.embed self.embeddings tokens)
  let hidden ← self.blocks.zipIdx.foldlM (fun hidden (block, layer) =>
    Block.forward lib block hidden position layer self.rope) hidden
  ofResult (lastLogits lib self.finalNorm self.lmHead hidden sequence)

/-- Receives layer execution boundaries. The duration of a layer is measured by the caller and is
left to the observer here. -/
structure LayerObserver (m : Type → Type) where
  layerStarted : Nat → m Unit
  layerCompleted : Nat → m Unit

namespace LlamaStage

/-- Executes this stage's transformer blocks over `[1,S,H]` residual activations. -/
def forwardHidden (lib : Library α) (self : LlamaStage (Tensor α) (RotaryEmbedding α))
    (observer : LayerObserver m) (hidden : Tensor α) (position : Nat) : Forward m α (Tensor α) := do
  let (batch, sequence, _) ← ofResult (dims3 hidden)
  ofResult <| refuse (batch ≠ 1 ∨ sequence = 0) <| .invalidConfig
    s!"pipeline activation must have shape [1,S,H] with S>0, got {hidden.shape}"
  let kv ← cache
  ofResult <| refuse (kv.layerCount ≠ self.blocks.length) <| .invalidConfig
    s!"stage has {self.blocks.length} blocks but cache has {kv.layerCount} layers"
  ofResult <| refuse (position ≠ kv.len) <| .invalidConfig
    s!"forward position {position} does not match cache length {kv.len}"
  ofResult <| refuse (position + sequence > kv.capacity) <|
    .cacheCapacityExceeded (position + sequence) kv.capacity
  self.blocks.zipIdx.foldlM (fun hidden (block, localLayer) => do
    let globalLayer := self.layerStart + localLayer
    lift (.ok <$> observer.layerStarted globalLayer)
    let hidden ← Block.forward lib block hidden position localLayer self.rope
    lift (.ok <$> observer.layerCompleted globalLayer)
    pure hidden) hidden

/-- Embeds batch-one token IDs and executes the first stage's local transformer blocks. -/
def forwardTokens (lib : Library α) (self : LlamaStage (Tensor α) (RotaryEmbedding α))
    (observer : LayerObserver m) (tokens : TokenTensor) (position : Nat) :
    Forward m α (Tensor α) := do
  let embeddings ← ofResult <| okOr (.invalidConfig "only the first pipeline stage accepts token IDs")
    self.embeddings
  let (batch, sequence) ← ofResult (dims2 tokens.ids)
  ofResult <| refuse (batch ≠ 1 ∨ sequence = 0) <| .invalidConfig
    s!"pipeline token input must have shape [1,S] with S>0, got {tokens.ids.shape}"
  let hidden ← ofResult (lib.embed embeddings tokens)
  forwardHidden lib self observer hidden position

/-- Applies the final normalization and LM head and returns final-position logits. -/
def finish (lib : Library α) (self : LlamaStage (Tensor α) (RotaryEmbedding α))
    (hidden : Tensor α) : Except DlirError (Tensor α) := do
  let finalNorm ← okOr (.invalidConfig "only the final pipeline stage produces logits")
    self.finalNorm
  let lmHead ← okOr (.invalidConfig "final stage has LM head") self.lmHead
  let (_, sequence, _) ← dims3 hidden
  refuse (sequence = 0) <| .invalidConfig "final pipeline activation has zero sequence length"
  lastLogits lib finalNorm lmHead hidden sequence

end LlamaStage

end Dlir.Runtime.Model
