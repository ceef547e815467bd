import Dlir.Collectives.TcpBarrier
import Dlir.Framework.Scripts
import Dlir.Pipeline.Admission
import Dlir.Pipeline.Event
import Dlir.Runtime.Generation

namespace Dlir.Pipeline

open Dlir.Collectives Dlir.Framework Dlir.Math Dlir.Runtime Dlir.Runtime.Model

/-- The ranks of a run with what they find around them: the request, the files that it names and the
libraries. They are connected by TCP. -/
structure PipelineWorld (world : Nat) (α : Type) where
  lib : Library α
  argmax : Tensor α → Except CandleError (Tensor Nat)
  /-- The weights in the checkpoint. -/
  varBuilder : Except CandleError (VarBuilder (Tensor α))
  tokenizer : Except String Tokenizer
  codec : Codec PipelineControl
  resources : Rank world → ResourceSnapshot
  manifest : PipelineManifest

/-- Code of one rank. The state counts what it has sent and received. -/
abbrev PipelineRankCode (world : Nat) (α β : Type) : Type :=
  ExceptT PipelineError
    (StateT CommunicationReport (Proc (Rank world) (WireFrame α) RunEventKind)) β

/-- The counters are 64 bits wide. A build without overflow checks goes on where they are full. -/
def wrappingAdd (a b : Nat) : Nat := (a + b) % 2 ^ 64

namespace CommunicationReport

def sentTensor (self : CommunicationReport) (bytes : Nat) : CommunicationReport :=
  { self with
    tensorMessagesSent := wrappingAdd self.tensorMessagesSent 1
    tensorBytesSent := wrappingAdd self.tensorBytesSent bytes }

def receivedTensor (self : CommunicationReport) (bytes : Nat) : CommunicationReport :=
  { self with
    tensorMessagesReceived := wrappingAdd self.tensorMessagesReceived 1
    tensorBytesReceived := wrappingAdd self.tensorBytesReceived bytes }

def sentControl (self : CommunicationReport) (length : Nat) : CommunicationReport :=
  { self with
    controlMessagesSent := wrappingAdd self.controlMessagesSent 1
    controlBytesSent := wrappingAdd self.controlBytesSent length }

def receivedControl (self : CommunicationReport) (length : Nat) : CommunicationReport :=
  { self with
    controlMessagesReceived := wrappingAdd self.controlMessagesReceived 1
    controlBytesReceived := wrappingAdd self.controlBytesReceived length }

end CommunicationReport

/-- The variables of the generation loop. -/
structure PipelineGeneration (α : Type) where
  cache : Model.KvCache α
  generatedTokens : List Nat
  previousToken : Option Nat
  decodeForwardCount : Nat

/-- What a rank that succeeds reports, apart from its events and times. -/
structure PipelineRankOutcome where
  assignment : StageAssignment
  memory : StageMemoryPlan
  finalKvCacheBytes : Nat
  communication : CommunicationReport
  decodeForwardCount : Nat
  generatedTokens : List Nat
  completion : String
  stopReason : StopReason

namespace PipelineRank

def phaseOf (step : Nat) : ExecutionPhase := if step = 0 then .prefill else .decode

/-- The `Debug` rendering of a phase. -/
def debugPhase : ExecutionPhase → String
  | .prefill => "Prefill"
  | .decode => "Decode"

def tensorBytes {α : Type} (tensor : Tensor α) : Except PipelineError Nat :=
  okOr (.protocol "tensor byte count overflow") <|
    (tensor.shape.foldlM checkedMul 1).bind fun elements => checkedMul elements 4

def validateActivation {α : Type} (tensor : Tensor α) (hiddenSize : Nat) (phase : ExecutionPhase) :
    Except PipelineError Unit :=
  match tensor.shape with
  | [batch, sequence, hidden] =>
    refuse (batch ≠ 1 ∨ hidden ≠ hiddenSize ∨ (phase = .decode ∧ sequence ≠ 1)) <| .protocol
      (s!"invalid {debugPhase phase} activation shape {tensor.shape}; " ++
        s!"expected [1,S,{hiddenSize}]")
  | shape => .error (.tensor (.unexpectedNumberOfDims 3 shape))

section Messages

variable {world : Nat} {α : Type} (rank : Rank world) (codec : Codec PipelineControl)

def sendActivation (destination : Nat) (tensor : Tensor α) (step : Nat) : PipelineRankCode world α Unit := do
  let bytes ← settleWith id (tensorBytes tensor)
  let tag ← settleWith id (activationTag step)
  converse .collectives (Communicator.sendTensor rank destination tag tensor)
  amend fun communication => communication.sentTensor bytes
  publish (.tensorSent destination .activation (phaseOf step) step tensor.shape bytes 0)

def recvActivation (source step : Nat) : PipelineRankCode world α (Tensor α) := do
  let tag ← settleWith id (activationTag step)
  let tensor ← converse .collectives (Communicator.recvTensor .tcp rank source tag)
  let bytes ← settleWith id (tensorBytes tensor)
  amend fun communication => communication.receivedTensor bytes
  publish (.tensorReceived source .activation (phaseOf step) step tensor.shape bytes 0)
  pure tensor

def sendControl (destination : Nat) (tag : MessageTag) (control : PipelineControl)
    (purpose : ControlPurpose) (step : Nat) : PipelineRankCode world α Unit := do
  let bytes ← settleWith (fun _ => .json) (codec.toVec control)
  let packet ← settleWith .collectives (ControlPacket.new bytes)
  converse .collectives (Transport.sendControl rank destination tag packet)
  amend fun communication => communication.sentControl bytes.length
  publish (.controlSent destination purpose (phaseOf step) step bytes.length 0)

def recvControl (source : Nat) (tag : MessageTag) (purpose : ControlPurpose) (step : Nat) :
    PipelineRankCode world α PipelineControl := do
  let packet ← converse .collectives (Transport.recvControl .tcp rank source tag)
  amend fun communication => communication.receivedControl packet.bytes.length
  let control ← settleWith (fun _ => .json) (codec.fromSlice packet.bytes)
  publish (.controlReceived source purpose (phaseOf step) step packet.bytes.length 0)
  pure control

/-- A barrier between its two events. Each shows how many came before it. -/
def observedBarrier (shown generation : Nat) : PipelineRankCode world α Nat := do
  publish (.collectiveStarted .barrier shown)
  let next ← converse .collectives (TcpTransport.barrier rank generation)
  publish (.collectiveCompleted .barrier shown 0)
  pure next

/-- Publishes the layers of one step. -/
def rankLayerObserver (step : Nat) :
    LayerObserver (StateT CommunicationReport (Proc (Rank world) (WireFrame α) RunEventKind)) where
  layerStarted layer := StateT.lift (.emit (.layerStarted layer (phaseOf step) step) (.ret ()))
  layerCompleted layer :=
    StateT.lift (.emit (.layerCompleted layer (phaseOf step) step 0) (.ret ()))

/-- A forward pass over the cache of the rank. -/
def overCache (pass : Forward (StateT CommunicationReport
      (Proc (Rank world) (WireFrame α) RunEventKind)) α (Tensor α)) (kv : Model.KvCache α) :
    PipelineRankCode world α (Tensor α × Model.KvCache α) :=
  ExceptT.mk do
    let (result, kv) ← pass.run.run kv
    pure ((result.map fun hidden => (hidden, kv)).mapError .runtime)

end Messages

/-- The token of a step, as rank 0 takes it from the last rank. -/
def expectToken (step : Nat) : PipelineControl → Except PipelineError Nat
  | .token actualStep tokenId => do
    refuse (actualStep ≠ step) <| .protocol
      s!"received token for step {actualStep}, expected {step}"
    pure tokenId
  | .decision _ _ => .error (.protocol "rank 0 expected final-stage token feedback")

/-- The decision after a step, as the other ranks take it from rank 0. -/
def expectDecision (step : Nat) : PipelineControl → Except PipelineError PipelineDecision
  | .decision actualStep decision => do
    refuse (actualStep ≠ step) <| .protocol
      s!"received decision for step {actualStep}, expected {step}"
    pure decision
  | .token _ _ => .error (.protocol "stage expected rank-0 decision")

end PipelineRank

namespace PipelineWorld

open PipelineRank

variable {world : Nat} {α : Type} [Zero α] (self : PipelineWorld world α) (rank : Rank world)

def config : ModelConfig := self.manifest.spec.config

/-- What a rank loads: its stage and an empty cache for the layers of the stage. -/
def load (assignment : StageAssignment) :
    Except PipelineError (LlamaStage (Tensor α) (RotaryEmbedding α) × Model.KvCache α) := do
  let vb ← self.varBuilder.mapError .tensor
  let stage ← ((LlamaStage.load (RotaryEmbedding.new self.lib) vb self.config assignment.layerStart
    assignment.layerEnd assignment.ownsEmbeddings assignment.ownsLmHead
    self.manifest.contextCapacity).run []).1.mapError .runtime
  let cache ← (Model.KvCache.newForLayers self.config assignment.layerCount
    self.manifest.contextCapacity).mapError .runtime
  pure (stage, cache)

/-- The tokenizer is only opened by rank 0. -/
def openTokenizer (assignment : StageAssignment) : Except PipelineError (Option Tokenizer) :=
  if assignment.rank = 0 then (some <$> self.tokenizer).mapError .tokenizer else .ok none

/-- The input of rank 0: the prompt, and then the last token that it was given. -/
def stepInput (step : Nat) (previousToken : Option Nat) : Except PipelineError TokenTensor :=
  if step = 0 then (tokenRow self.manifest.promptTokenIds).mapError .tensor
  else do
    let previous ← okOr (.protocol "decode has no previous token") previousToken
    (tokenRow [previous]).mapError .tensor

omit [Zero α] in
/-- The hidden states of a step, from its input or from those of the rank before. -/
def forward (assignment : StageAssignment) (stage : LlamaStage (Tensor α) (RotaryEmbedding α))
    (step : Nat) (s : PipelineGeneration α) : PipelineRankCode world α (Tensor α × Model.KvCache α) :=
  if assignment.rank = 0 then do
    let input ← settleWith id (self.stepInput step s.previousToken)
    overCache (LlamaStage.forwardTokens self.lib stage (rankLayerObserver step) input s.cache.len)
      s.cache
  else do
    let hidden ← recvActivation rank (assignment.rank - 1) step
    settleWith id (validateActivation hidden self.config.hiddenSize (phaseOf step))
    overCache (LlamaStage.forwardHidden self.lib stage (rankLayerObserver step) hidden s.cache.len)
      s.cache

/-- What a rank does with its hidden states: the last one chooses a token. -/
def passOn (assignment : StageAssignment) (stage : LlamaStage (Tensor α) (RotaryEmbedding α))
    (step : Nat) (hidden : Tensor α) : PipelineRankCode world α Unit :=
  if assignment.rank + 1 < assignment.worldSize then
    sendActivation rank (assignment.rank + 1) hidden step
  else do
    let logits ← settleWith .runtime (LlamaStage.finish self.lib stage hidden)
    let tokenId ← settleWith .tensor (greedyToken self.argmax logits)
    let tag ← settleWith id (tokenTag step)
    sendControl rank self.codec 0 tag (.token step tokenId) .tokenFeedback step

/-- How rank 0 goes on when some tokens were generated. -/
def limit (generated : Nat) : PipelineDecision :=
  if generated ≥ self.manifest.effectiveMaxNewTokens then
    .stop (if self.manifest.requestedMaxNewTokens > self.manifest.effectiveMaxNewTokens then
      .contextLimit else .maxNewTokens)
  else .continueGeneration

/-- What rank 0 makes of the token of a step. -/
def decide (tokenizer : Tokenizer) (s : PipelineGeneration α) (tokenId : Nat) :
    PipelineRankCode world α (PipelineGeneration α × PipelineDecision) :=
  if tokenId = self.config.eosTokenId then pure (s, .stop .eos)
  else do
    let text ← settleWith .tokenizer (tokenizer.step s.generatedTokens tokenId)
    publish (.tokenGenerated tokenId (text.getD ""))
    let generatedTokens := s.generatedTokens ++ [tokenId]
    pure ({ s with generatedTokens, previousToken := some tokenId },
      self.limit generatedTokens.length)

/-- Tells a rank how to go on. -/
def sendDecision (step : Nat) (decision : PipelineDecision) (destination : Nat) :
    PipelineRankCode world α Unit := do
  let tag ← settleWith id (decisionTag step)
  sendControl rank self.codec destination tag (.decision step decision) .decision step

/-- Rank 0 takes the token of a step and tells the others how to go on. -/
def lead (assignment : StageAssignment) (tokenizer : Tokenizer) (step : Nat) (s : PipelineGeneration α) :
    PipelineRankCode world α (PipelineGeneration α × PipelineDecision) := do
  let tag ← settleWith id (tokenTag step)
  let control ← recvControl rank self.codec (assignment.worldSize - 1) tag .tokenFeedback step
  let tokenId ← settleWith id (expectToken step control)
  let (s, decision) ← self.decide tokenizer s tokenId
  (List.range' 1 (assignment.worldSize - 1)).forM (self.sendDecision rank step decision)
  pure (s, decision)

/-- The other ranks are told how to go on. -/
def follow (step : Nat) : PipelineRankCode world α PipelineDecision := do
  let tag ← settleWith id (decisionTag step)
  let control ← recvControl rank self.codec 0 tag .decision step
  settleWith id (expectDecision step control)

def memorySample : RunEventKind :=
  .memorySample (self.resources rank).memoryCurrentBytes (self.resources rank).memoryLimitBytes

/-- The end of a pass through the loop. Only rank 0 has a tokenizer. -/
def agree (assignment : StageAssignment) (tokenizer : Option Tokenizer) (step : Nat)
    (s : PipelineGeneration α) : PipelineRankCode world α (PipelineGeneration α × PipelineDecision) :=
  match tokenizer with
  | some tokenizer => self.lead rank assignment tokenizer step s
  | none => do
    let decision ← self.follow rank step
    pure (s, decision)

/-- One pass through the loop. -/
def generationStep (assignment : StageAssignment)
    (stage : LlamaStage (Tensor α) (RotaryEmbedding α)) (tokenizer : Option Tokenizer) (step : Nat)
    (s : PipelineGeneration α) : PipelineRankCode world α (PipelineGeneration α × PipelineDecision) := do
  publish (if step = 0 then .prefillStarted self.manifest.promptTokenIds.length
    else .decodeStepStarted step)
  let decodeForwardCount := if step = 0 then s.decodeForwardCount else s.decodeForwardCount + 1
  let (hidden, cache) ← self.forward rank assignment stage step s
  self.passOn rank assignment stage step hidden
  let (s, decision) ← self.agree rank assignment tokenizer step { s with cache, decodeForwardCount }
  publish (if step = 0 then .prefillFinished else .decodeStepFinished step)
  publish (self.memorySample rank)
  pure (s, decision)

/-- The loop from some step on. The number of passes that it has left is larger than that of the
steps that have tags. -/
def generationLoop (assignment : StageAssignment)
    (stage : LlamaStage (Tensor α) (RotaryEmbedding α)) (tokenizer : Option Tokenizer) :
    Nat → Nat → PipelineGeneration α → PipelineRankCode world α (PipelineGeneration α × StopReason)
  | 0, _, _ => throw (.protocol "pipeline message-tag overflow")
  | passes + 1, step, s => do
    let (s, decision) ← self.generationStep rank assignment stage tokenizer step s
    match decision with
    | .continueGeneration => generationLoop assignment stage tokenizer passes (step + 1) s
    | .stop reason => pure (s, reason)

/-- The text of the tokens, where there is a tokenizer. -/
def complete : Option Tokenizer → List Nat → Except PipelineError String
  | some tokenizer, generatedTokens => (tokenizer.decode generatedTokens).mapError .tokenizer
  | none, _ => .ok ""

/-- What the rank has sent and received so far. -/
def counted : PipelineRankCode world α CommunicationReport :=
  ExceptT.mk fun communication => .ret (.ok communication, communication)

/-- Executes one assigned rank using an established point-to-point world. -/
def runPipelineRank : PipelineRankCode world α PipelineRankOutcome := do
  let (assignment, memory) ← settleWith id
    (admitRank rank.globalRank world self.manifest (self.resources rank))
  settleWith .runtime (self.manifest.spec.validateCpuDtype self.manifest.dtype)
  publish (self.memorySample rank)
  publish .modelLoadStarted
  let (stage, cache) ← settleWith id (self.load assignment)
  publish .modelLoadFinished
  publish (self.memorySample rank)
  let generation ← observedBarrier rank 0 0
  let tokenizer ← settleWith id (self.openTokenizer assignment)
  let (s, stopReason) ← self.generationLoop rank assignment stage tokenizer (2 ^ 60 + 1) 0
    ⟨cache, [], none, 0⟩
  let completion ← settleWith id (complete tokenizer s.generatedTokens)
  publish (.generationFinished stopReason)
  let _ ← observedBarrier rank 1 generation
  let finalKvCacheBytes ← settleWith .runtime
    (s.cache.usedBytes self.config self.manifest.dtype.bytes)
  let communication ← counted
  pure {
    assignment, memory, finalKvCacheBytes, communication
    decodeForwardCount := s.decodeForwardCount
    generatedTokens := s.generatedTokens
    completion, stopReason }

/-- The ranks before their first step. -/
def start : World (Backend.tcp.mailbox world α) RunEventKind
    (Except PipelineError PipelineRankOutcome × CommunicationReport) :=
  (Snapshot.mk (fun rank => (self.runPipelineRank rank).run.run {}) fun _ => []).world _

/-- The recorder of a rank after its events. -/
def recorder (measured : Measured) (kinds : List RunEventKind) : EventRecorder :=
  EventRecorder.emitAll
    (EventRecorder.new rank.globalRank self.manifest.runId self.manifest.requestId)
    (measured.stamp kinds)

/-- The report that a rank returns. -/
def rankReport (peers : List PeerInfo) (measured : Measured) (timings : PipelineRankTimings)
    (communicationNs : Nat) (kinds : List RunEventKind) (outcome : PipelineRankOutcome) :
    PipelineRankReport where
  schemaVersion := 1
  runId := self.manifest.runId
  requestId := self.manifest.requestId
  rank := outcome.assignment.rank
  peers := peers
  assignment := outcome.assignment
  memory := outcome.memory
  resources := self.resources rank
  finalKvCacheBytes := outcome.finalKvCacheBytes
  communication := { outcome.communication with communicationNs := communicationNs }
  timings := { timings with decodeForwardCount := outcome.decodeForwardCount }
  generatedTokens := outcome.generatedTokens
  completion := outcome.completion
  stopReason := outcome.stopReason
  barriersPassed := true
  events := (self.recorder rank measured kinds).events
  success := true

end PipelineWorld

end Dlir.Pipeline
