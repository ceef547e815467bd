import Dlir.Runtime.Model.Llama

namespace Dlir.Runtime.Model

open Dlir.Collectives Dlir.Framework Forward

variable {m : Type → Type} [Monad m] {α : Type}

/-- What a forward pass uses of the communicator of its rank. -/
structure CollectiveCommunicator (m : Type → Type) (α : Type) where
  globalRank : Nat
  worldSize : Nat
  allReduce : Tensor α → AllReduceAlgorithm → m (Except CollectivesError (Tensor α))
  allGather : Tensor α → Nat → m (Except CollectivesError (Tensor α))

/-- A collective that succeeds returns a tensor of this shape. -/
structure CollectiveCommunicator.Documented (comm : CollectiveCommunicator m α) : Prop where
  allReduce : ∀ t algorithm, Always (fun r => ∀ t', r = .ok t' → t'.shape = t.shape)
    (comm.allReduce t algorithm)
  allGather : ∀ t axis, Always
    (fun r => ∀ t', r = .ok t' → t'.shape = t.shape.set axis (t.shape.getD axis 0 * comm.worldSize))
    (comm.allGather t axis)

/-- A collective of a forward pass. -/
def collective (x : m (Except CollectivesError (Tensor α))) : Forward m α (Tensor α) :=
  lift (Except.mapError .collective <$> x)

/-- Computes the local features and optionally all-gathers the final feature axis. -/
def ColumnParallelLinear.forward (lib : Library α) (self : ColumnParallelLinear (Tensor α))
    (collectives : CollectiveCommunicator m α) (input : Tensor α) : Forward m α (Tensor α) := do
  let own ← ofResult (Linear.forward lib self.linear input)
  if self.gatherOutput then do
    ofResult <| refuse (own.rank = 0) <| .invalidConfig "linear output cannot be scalar"
    let axis := own.rank - 1
    let gathered ← collective (collectives.allGather own axis)
    let width ← ofResult ((gathered.dim axis).mapError .tensor)
    ofResult <| refuse (width ≠ self.globalOutputFeatures) <| .invalidConfig
      "column-parallel gather produced the wrong output width"
    pure gathered
  else pure own

/-- Computes a full-width summand and adds it up across tensor ranks. -/
def RowParallelLinear.forward (lib : Library α) (self : RowParallelLinear (Tensor α))
    (collectives : CollectiveCommunicator m α) (input : Tensor α) : Forward m α (Tensor α) := do
  let summand ← ofResult (Linear.forward lib self.linear input)
  collective (collectives.allReduce summand self.algorithm)

namespace VocabParallelEmbedding

/-- The row of the local table for an ID, with whether it is owned. -/
def localId (self : VocabParallelEmbedding (Tensor α)) (id : Nat) : Except DlirError (Nat × Bool) := do
  refuse (id ≥ self.globalVocabulary) <| .invalidConfig
    s!"token ID {id} is outside vocabulary {self.globalVocabulary}"
  let owned := decide (id ≥ self.range.start ∧ id < self.range.stop)
  pure (if owned then id - self.range.start else 0, owned)

/-- The rows of the owned IDs, zeros for all others. -/
def rows (lib : Library α) (self : VocabParallelEmbedding (Tensor α)) (tokens : TokenTensor) :
    Except DlirError (Tensor α) := do
  refuse (tokens.isU32 = false) <| .invalidConfig "token IDs must use u32"
  let (batch, sequence) ← dims2 tokens.ids
  let ids ← tokens.ids.data.mapM (localId self)
  let localIds ← (Tensor.fromVec (ids.map Prod.fst) [batch, sequence]).mapError .tensor
  let own ← lib.embed self.embedding ⟨localIds, true⟩
  let mask ← (Tensor.fromVec (ids.map Prod.snd) [batch, sequence, 1]).mapError .tensor
  lib.run (.broadcastMul mask) [own]

/-- Looks up locally owned IDs, masks all other IDs to zero, then all-reduces embeddings. -/
def forward (lib : Library α) (self : VocabParallelEmbedding (Tensor α))
    (collectives : CollectiveCommunicator m α) (tokens : TokenTensor) : Forward m α (Tensor α) := do
  let own ← ofResult (rows lib self tokens)
  collective (collectives.allReduce own self.algorithm)

end VocabParallelEmbedding

def VocabParallelLmHead.forward (lib : Library α) (self : VocabParallelLmHead (Tensor α))
    (collectives : CollectiveCommunicator m α) (hidden : Tensor α) : Forward m α (Tensor α) :=
  ColumnParallelLinear.forward lib self.linear collectives hidden

def TensorParallelAttention.projections (self : TensorParallelAttention (Tensor α)) :
    Projections α where
  qProj := self.qProj
  kProj := self.kProj
  vProj := self.vProj
  queryHeads := self.localQueryHeads
  kvHeads := self.localKvHeads
  headDim := self.headDim

def TensorParallelAttention.forward (lib : Library α) (self : TensorParallelAttention (Tensor α))
    (collectives : CollectiveCommunicator m α) (input : Tensor α) (position layer : Nat)
    (rope : RotaryEmbedding α) : Forward m α (Tensor α) := do
  let (batch, sequence, _) ← ofResult (dims3 input)
  let heads := projections self
  let (q, k, v) ← heads.cached lib rope input batch sequence position layer
  let own ← ofResult (heads.attend lib input q k v batch sequence position
    (self.localQueryHeads * self.headDim))
  RowParallelLinear.forward lib self.oProj collectives own

def TensorParallelMlp.forward (lib : Library α) (self : TensorParallelMlp (Tensor α))
    (collectives : CollectiveCommunicator m α) (input : Tensor α) : Forward m α (Tensor α) := do
  let own ← ofResult (gatedProduct lib self.gateProj self.upProj input)
  RowParallelLinear.forward lib self.downProj collectives own

def TensorParallelBlock.forward (lib : Library α) (self : TensorParallelBlock (Tensor α))
    (collectives : CollectiveCommunicator m α) (input : Tensor α) (position layer : Nat)
    (rope : RotaryEmbedding α) : Forward m α (Tensor α) := do
  let normed ← ofResult (RmsNorm.forward lib self.inputNorm input)
  let attention ← TensorParallelAttention.forward lib self.attention collectives normed position
    layer rope
  let hidden ← ofResult (lib.run .add [input, attention])
  let normed ← ofResult (RmsNorm.forward lib self.postAttentionNorm hidden)
  let mlp ← TensorParallelMlp.forward lib self.mlp collectives normed
  ofResult (lib.run .add [hidden, mlp])

/-- Runs prefill or decode while publishing each rank-local layer boundary. -/
def TensorParallelLlama.forwardObserved (lib : Library α)
    (self : TensorParallelLlama (Tensor α) (RotaryEmbedding α))
    (collectives : CollectiveCommunicator m α) (observer : LayerObserver m) (tokens : TokenTensor)
    (position : Nat) : Forward m α (Tensor α) := do
  ofResult <| refuse (collectives.globalRank ≠ self.parallel.tpRank ∨
      collectives.worldSize ≠ self.parallel.tpSize) <|
    .invalidConfig "collective world and ParallelContext disagree"
  let (batch, sequence) ← ofResult (dims2 tokens.ids)
  ofResult <| refuse (batch ≠ 1 ∨ sequence = 0) <| .invalidConfig
    s!"TP token input must have shape [1,S] with S>0, got {tokens.ids.shape}"
  let kv ← cache
  ofResult <| refuse (position ≠ kv.len ∨ kv.layerCount ≠ self.blocks.length) <| .invalidConfig
    "TP cache position or layer count mismatch"
  ofResult <| refuse (position + sequence > kv.capacity) <|
    .cacheCapacityExceeded (position + sequence) kv.capacity
  let hidden ← VocabParallelEmbedding.forward lib self.embeddings collectives tokens
  let hidden ← self.blocks.zipIdx.foldlM (fun hidden (block, layer) => do
    lift (.ok <$> observer.layerStarted layer)
    let hidden ← TensorParallelBlock.forward lib block collectives hidden position layer self.rope
    lift (.ok <$> observer.layerCompleted layer)
    pure hidden) hidden
  let last ← ofResult (lastPosition lib self.finalNorm hidden sequence)
  let logits ← VocabParallelLmHead.forward lib self.lmHead collectives last
  ofResult (lib.run .toF32 [logits])

end Dlir.Runtime.Model
