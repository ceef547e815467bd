import Dlir.Collectives.Traced
import Dlir.Runtime.Model.TensorParallel
import Dlir.Runtime.Model.Tokens
import Dlir.Tensor.Report

namespace Dlir.Tensor

open Dlir.Collectives Dlir.Framework Dlir.Pipeline Dlir.Runtime Dlir.Runtime.Model

/-- Immutable request bind-mounted into every tensor-rank container, as far as a rank reads it. -/
structure TensorParallelManifest where
  schemaVersion : Nat
  runId : String
  requestId : String
  model : SupportedModelId
  dtype : PlanDType
  tensorParallel : Nat
  allReduce : AllReduceAlgorithm
  promptTokenIds : List Nat
  requestedMaxNewTokens : Nat
  effectiveMaxNewTokens : Nat
  contextCapacity : Nat
  checkpointPath : String
  tokenizerPath : String
  partition : TensorParallelPartition

structure TokenDecision where
  step : Nat
  token : Nat
  emit : Bool
  continueGeneration : Bool
  stopReason : Option StopReason
  deriving DecidableEq, Repr

def decisionTagBase : Nat := 0x3000_0000_0000_0000

def decisionTag (step : Nat) : MessageTag := ⟨.ofNat (decisionTagBase + step)⟩

/-- The barrier of a transport, by its generation. It observes nothing. -/
structure Barrier (world : Nat) (α ω : Type) where
  enter : Nat → Comm world α ω Nat
  silent : ∀ generation, Silent (enter generation) fun _ => True

def Barrier.tcp {world : Nat} {α ω : Type} (rank : Rank world) : Barrier world α ω :=
  ⟨TcpTransport.barrier rank, TcpTransport.barrier_silent rank⟩

/-- The ranks of a run with what they find around them: the request, the files that it names, the
libraries and the transport. -/
structure TensorWorld (world : Nat) (α : Type) where
  lib : Library α
  argmax : Tensor α → Except CandleError (Tensor Nat)
  varBuilder : String → Except CandleError (WeightSource (Tensor α))
  tokenizer : String → Except String Tokenizer
  codec : Codec TokenDecision
  /-- The registry of models. -/
  spec : SupportedModelId → ModelSpec
  backend : Backend
  barrier : Rank world → Barrier world α RunEventKind
  resources : Rank world → ResourceSnapshot
  manifest : TensorParallelManifest

/-- What the observer of the collectives makes of a notification. Durations are stamped later. -/
def collectiveEvent : CollectiveEvent → RunEventKind
  | .started descriptor => .tensorCollectiveStarted descriptor.kind.name.toLower
      (match descriptor.algorithm with
        | .direct => "direct"
        | .centralized => "centralized"
        | .pairwise => "pairwise"
        | .ring => "ring")
      descriptor.sequence descriptor.inputShape
  | .completed trace => .tensorCollectiveCompleted trace.descriptor.kind.name.toLower
      trace.descriptor.sequence trace.sentBytes trace.receivedBytes 0

/-- Code of one rank. -/
abbrev RankCode (world : Nat) (α β : Type) : Type :=
  ExceptT TensorParallelError
    (StateT NativeCollectives (Proc (Rank world) (WireFrame α) RunEventKind)) β

/-- The variables of the generation loop. -/
structure Generation (α : Type) where
  input : TokenTensor
  position : Nat
  generatedTokens : List Nat
  decodeForwardCount : Nat
  cache : KvCache α

/-- What a rank that succeeds reports, apart from its events and times. -/
structure RankOutcome where
  memory : TensorParallelMemoryPlan
  finalKvCacheBytes : Nat
  collectives : List CollectiveTrace
  sentBytes : Nat
  receivedBytes : Nat
  generatedTokens : List Nat
  completion : String
  stopReason : StopReason
  decodeForwardCount : Nat

/-- The native collectives of a rank, as a model uses them. -/
def communicator {world : Nat} {α ω : Type} [Add α] (self : Endpoint world ω) :
    CollectiveCommunicator (StateT NativeCollectives (Proc (Rank world) (WireFrame α) ω)) α where
  globalRank := self.rank.globalRank
  worldSize := world
  allReduce tensor algorithm := (self.allReduce tensor algorithm).run
  allGather tensor axis := (self.allGather tensor axis).run

/-- Publishes the layers of one step. -/
def layerObserver {world : Nat} {α : Type} (phase : ExecutionPhase) (step : Nat) :
    LayerObserver (StateT NativeCollectives (Proc (Rank world) (WireFrame α) RunEventKind)) where
  layerStarted layer := StateT.lift (.emit (.layerStarted layer phase step) (.ret ()))
  layerCompleted layer := StateT.lift (.emit (.layerCompleted layer phase step 0) (.ret ()))

namespace TensorWorld

variable {world : Nat} {α : Type} [Add α] [Zero α] (self : TensorWorld world α) (rank : Rank world)

def endpoint : Endpoint world RunEventKind := ⟨self.backend, rank, collectiveEvent⟩

def config : ModelConfig := (self.spec self.manifest.model).config

/-- The checks before the first event, up to the plan of the rank. -/
def admitRank : Except TensorParallelError TensorParallelMemoryPlan := do
  refuse (self.manifest.schemaVersion ≠ 1 ∨ self.manifest.dtype ≠ .f32) <|
    .invalidRequest "unsupported manifest schema or dtype"
  refuse (world ≠ self.manifest.tensorParallel ∨
      self.manifest.partition.tensorParallel ≠ self.manifest.tensorParallel) <|
    .invalidRequest "manifest and transport topology disagree"
  okOr (.invalidRequest s!"manifest has no rank {rank.globalRank} plan")
    self.manifest.partition.ranks[rank.globalRank]?

def load : Except TensorParallelError
    (TensorParallelLlama (Tensor α) (RotaryEmbedding α) × KvCache α) := do
  let vb ← (self.varBuilder self.manifest.checkpointPath).mapError .tensor
  let parallel ← (ParallelContext.tensorParallel rank.globalRank
    self.manifest.tensorParallel).mapError .runtime
  let model ← ((TensorParallelLlama.loadFrom (RotaryEmbedding.new self.lib) vb self.config parallel
    self.manifest.contextCapacity self.manifest.allReduce).run []).1.mapError .runtime
  let cache ← (Model.KvCache.newTensorParallel self.config self.manifest.tensorParallel
    self.manifest.contextCapacity).mapError .runtime
  pure (model, cache)

/-- A barrier between its two events, which show a number of their own. -/
def observedBarrier (shown generation : Nat) : RankCode world α Nat := do
  publish (.collectiveStarted .barrier shown)
  let next ← converse .collectives ((self.barrier rank).enter generation)
  publish (.collectiveCompleted .barrier shown 0)
  pure next

/-- The tokenizer is only opened by rank 0. -/
def openTokenizer : Except TensorParallelError (Option Tokenizer) :=
  if rank.globalRank = 0 then
    (some <$> self.tokenizer self.manifest.tokenizerPath).mapError .tokenizer
  else .ok none

def phaseOf (step : Nat) : ExecutionPhase := if step = 0 then .prefill else .decode

/-- The forward pass of one step. -/
def forward (model : TensorParallelLlama (Tensor α) (RotaryEmbedding α)) (step : Nat)
    (s : Generation α) : RankCode world α (Tensor α × KvCache α) :=
  ExceptT.mk do
    let (result, cache) ← (TensorParallelLlama.forwardObserved self.lib model
      (communicator (self.endpoint rank)) (layerObserver (phaseOf step) step) s.input
      s.position).run.run s.cache
    pure ((result.map fun logits => (logits, cache)).mapError .runtime)

/-- What rank 0 makes of the logits. -/
def decide (step : Nat) (logits : Tensor α) : Except TensorParallelError TokenDecision := do
  let best ← (self.argmax logits).mapError .tensor
  let tokens ← (toVec1 best).mapError .tensor
  let token ← (nth tokens 0).mapError .collectives
  let emit : Bool := token != self.config.eosTokenId
  let atLimit : Bool := step + 1 == self.manifest.effectiveMaxNewTokens
  let stopReason : Option StopReason :=
    if !emit then some .eos
    else if atLimit && self.manifest.effectiveMaxNewTokens < self.manifest.requestedMaxNewTokens then
      some .contextLimit
    else if atLimit then some .maxNewTokens
    else none
  pure ⟨step, token, emit, stopReason.isNone, stopReason⟩

/-- Sends the decision to one rank. -/
def sendDecision (step : Nat) (bytes : List UInt8) (peer : Nat) : RankCode world α Unit := do
  let packet ← settleWith .collectives (ControlPacket.new bytes)
  converse .collectives (Transport.sendControl rank peer (decisionTag step) packet)
  publish (.controlSent peer .tensorDecision (phaseOf step) step bytes.length 0)

/-- The decision that every rank takes after a forward pass. -/
def shareDecision (step : Nat) (logits : Tensor α) : RankCode world α TokenDecision :=
  if rank.globalRank = 0 then do
    let decision ← settleWith id (self.decide step logits)
    let bytes ← settleWith (fun _ => .json) (self.codec.toVec decision)
    (List.range' 1 (self.manifest.tensorParallel - 1)).forM (sendDecision rank step bytes)
    pure decision
  else do
    let packet ← converse .collectives
      (Transport.recvControl self.backend rank 0 (decisionTag step))
    publish (.controlReceived 0 .tensorDecision (phaseOf step) step packet.bytes.length 0)
    settleWith (fun _ => .json) (self.codec.fromSlice packet.bytes)

/-- The variables for the next step. -/
def advance (s : Generation α) (token : Nat) : Except TensorParallelError (Generation α) := do
  let length ← (s.input.ids.dim 1).mapError .tensor
  let input ← (tokenRow [token]).mapError .tensor
  pure { s with position := s.position + length, input }

/-- One pass through the loop, with the reason to stop if there is one. -/
def generationStep (model : TensorParallelLlama (Tensor α) (RotaryEmbedding α)) (step : Nat)
    (s : Generation α) : RankCode world α (Generation α × Option StopReason) := do
  publish (if step = 0 then .prefillStarted self.manifest.promptTokenIds.length
    else .decodeStepStarted step)
  let (logits, cache) ← self.forward rank model step s
  let decodeForwardCount := if step = 0 then s.decodeForwardCount else s.decodeForwardCount + 1
  let decision ← self.shareDecision rank step logits
  settleWith id (refuse (decision.step ≠ step) (.invalidRequest "stale token decision step"))
  let generatedTokens :=
    if decision.emit then s.generatedTokens ++ [decision.token] else s.generatedTokens
  publishWhen (decision.emit = true ∧ rank.globalRank = 0) (.tokenGenerated decision.token "")
  publish (if step = 0 then .prefillFinished else .decodeStepFinished step)
  let s : Generation α := { s with cache, decodeForwardCount, generatedTokens }
  if decision.continueGeneration then do
    let s ← settleWith id (advance s decision.token)
    pure (s, none)
  else do
    let reason ← settleWith id <| okOr
      (.invalidRequest "terminal decision omitted stop reason") decision.stopReason
    pure (s, some reason)

/-- The loop over the remaining steps. -/
def generationLoop (model : TensorParallelLlama (Tensor α) (RotaryEmbedding α)) :
    Nat → Nat → Generation α → RankCode world α (Generation α × Option StopReason)
  | 0, _, s => pure (s, none)
  | remaining + 1, step, s => do
    let (s, stop) ← self.generationStep rank model step s
    match stop with
    | some reason => pure (s, some reason)
    | none => generationLoop model remaining (step + 1) s

/-- Removes all completed traces. -/
def takeTraces : RankCode world α (List CollectiveTrace) :=
  ExceptT.mk fun s => .ret (.ok s.traces, { s with traces := [] })

/-- The text of the tokens, where there is a tokenizer. -/
def complete : Option Tokenizer → List Nat → Except TensorParallelError String
  | some tokenizer, generatedTokens => (tokenizer.decode generatedTokens).mapError .tokenizer
  | none, _ => .ok ""

/-- What is computed when the ranks are done. -/
def summarize (memory : TensorParallelMemoryPlan) (tokenizer : Option Tokenizer)
    (s : Generation α) (stopReason : StopReason) (traces : List CollectiveTrace) :
    Except TensorParallelError RankOutcome := do
  let sentBytes ← (u64 (traces.map (·.sentBytes)).sum).mapError .runtime
  let receivedBytes ← (u64 (traces.map (·.receivedBytes)).sum).mapError .runtime
  let completion ← complete tokenizer s.generatedTokens
  let finalKvCacheBytes ← (s.cache.usedBytes
    (Runtime.KvCache.localConfig self.config self.manifest.tensorParallel)
    PlanDType.f32.bytes).mapError .runtime
  pure {
    memory, finalKvCacheBytes
    collectives := traces
    sentBytes, receivedBytes
    generatedTokens := s.generatedTokens
    completion, stopReason
    decodeForwardCount := s.decodeForwardCount }

/-- Executes one tensor rank while publishing the shared distributed event stream live. -/
def runTensorParallelRankObserved : RankCode world α RankOutcome := do
  let memory ← settleWith id (self.admitRank rank)
  let resources := self.resources rank
  publish (.memorySample resources.memoryCurrentBytes resources.memoryLimitBytes)
  publish .modelLoadStarted
  let (model, cache) ← settleWith id (self.load rank)
  publish .modelLoadFinished
  let generation ← self.observedBarrier rank 0 0
  let prompt ← settleWith .tensor (tokenRow self.manifest.promptTokenIds)
  let tokenizer ← settleWith id (self.openTokenizer rank)
  let (s, stop) ← self.generationLoop rank model self.manifest.effectiveMaxNewTokens 0
    ⟨prompt, 0, [], 0, cache⟩
  let stopReason ← settleWith id <| okOr
    (.invalidRequest "generation ended without a stop reason") stop
  publish (.generationFinished stopReason)
  let _ ← self.observedBarrier rank 1 generation
  let traces ← takeTraces
  settleWith id (self.summarize memory tokenizer s stopReason traces)

end TensorWorld

section World

variable {world : Nat} {α : Type} [Add α] [Zero α] (self : TensorWorld world α) (rank : Rank world)

/-- The ranks before their first step. -/
def TensorWorld.start : World (self.backend.mailbox world α) RunEventKind
    (Except TensorParallelError RankOutcome × NativeCollectives) :=
  (Snapshot.mk (fun rank => (self.runTensorParallelRankObserved rank).run.run .new)
    fun _ => []).world _

/-- The emitter of a rank after its events. -/
def TensorWorld.emitter (measured : Measured) (kinds : List RunEventKind) : EventEmitter :=
  EventEmitter.emitAll
    (EventEmitter.new rank.globalRank self.manifest.runId self.manifest.requestId)
    (measured.stamp kinds)

/-- The report that a rank returns. -/
def TensorWorld.rankReport (peers : List PeerInfo) (measured : Measured)
    (timings : TensorParallelRankTimings) (kinds : List RunEventKind) (outcome : RankOutcome) :
    TensorParallelRankReport where
  schemaVersion := 1
  runId := self.manifest.runId
  requestId := self.manifest.requestId
  rank := rank.globalRank
  peers := peers
  memory := outcome.memory
  resources := self.resources rank
  finalKvCacheBytes := outcome.finalKvCacheBytes
  collectives := outcome.collectives
  sentBytes := outcome.sentBytes
  receivedBytes := outcome.receivedBytes
  generatedTokens := outcome.generatedTokens
  completion := outcome.completion
  stopReason := outcome.stopReason
  timings := { timings with decodeForwardCount := outcome.decodeForwardCount }
  events := (self.emitter rank measured kinds).events
  barriersPassed := true
  success := true

end World

end Dlir.Tensor
