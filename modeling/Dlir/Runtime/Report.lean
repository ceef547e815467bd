import Mathlib.Init

namespace Dlir.Runtime

/-- Reason the autoregressive loop stopped successfully. -/
inductive StopReason
  | eos
  | maxNewTokens
  | contextLimit
  deriving DecidableEq, Repr

/-- The `Display` rendering of a stop reason. -/
def StopReason.display : StopReason → String
  | eos => "eos"
  | maxNewTokens => "max_new_tokens"
  | contextLimit => "context_limit"

inductive ExecutionPhase
  | prefill
  | decode
  deriving DecidableEq, Repr

inductive TensorPurpose
  | activation
  | tensorParallelShard
  deriving DecidableEq, Repr

inductive ControlPurpose
  | tokenFeedback
  | decision
  | tensorDecision
  deriving DecidableEq, Repr

inductive CollectiveKind
  | barrier
  | broadcast
  | reduce
  | allGather
  | allReduce
  | reduceScatter
  | allToAll
  deriving DecidableEq, Repr

/-- Payload of one event in the ordered runtime timeline. -/
inductive RunEventKind
  | artifactResolutionStarted
  | artifactResolutionFinished
  | modelLoadStarted
  | modelLoadFinished
  | layerStarted (layer : Nat) (phase : ExecutionPhase) (step : Nat)
  | layerCompleted (layer : Nat) (phase : ExecutionPhase) (step : Nat) (durationNs : Nat)
  | collectiveStarted (collective : CollectiveKind) (generation : Nat)
  | collectiveCompleted (collective : CollectiveKind) (generation : Nat) (durationNs : Nat)
  | tensorCollectiveStarted (collective algorithm : String) (collectiveSequence : Nat)
      (shape : List Nat)
  | tensorCollectiveCompleted (collective : String) (collectiveSequence : Nat)
      (sentBytes receivedBytes durationNs : Nat)
  | tensorSent (peer : Nat) (purpose : TensorPurpose) (phase : ExecutionPhase) (step : Nat)
      (shape : List Nat) (bytes durationNs : Nat)
  | tensorReceived (peer : Nat) (purpose : TensorPurpose) (phase : ExecutionPhase) (step : Nat)
      (shape : List Nat) (bytes durationNs : Nat)
  | controlSent (peer : Nat) (purpose : ControlPurpose) (phase : ExecutionPhase) (step : Nat)
      (bytes durationNs : Nat)
  | controlReceived (peer : Nat) (purpose : ControlPurpose) (phase : ExecutionPhase) (step : Nat)
      (bytes durationNs : Nat)
  | memorySample (currentBytes limitBytes : Option Nat)
  | prefillStarted (promptTokens : Nat)
  | prefillFinished
  | decodeStepStarted (step : Nat)
  | decodeStepFinished (step : Nat)
  | tokenGenerated (tokenId : Nat) (text : String)
  | generationFinished (stopReason : StopReason)
  deriving DecidableEq, Repr

/-- The event with a measured duration, where it shows one. -/
def RunEventKind.lasting (durationNs : Nat) : RunEventKind → RunEventKind
  | layerCompleted layer phase step _ => layerCompleted layer phase step durationNs
  | collectiveCompleted collective generation _ =>
    collectiveCompleted collective generation durationNs
  | tensorCollectiveCompleted collective sequence sentBytes receivedBytes _ =>
    tensorCollectiveCompleted collective sequence sentBytes receivedBytes durationNs
  | tensorSent peer purpose phase step shape bytes _ =>
    tensorSent peer purpose phase step shape bytes durationNs
  | tensorReceived peer purpose phase step shape bytes _ =>
    tensorReceived peer purpose phase step shape bytes durationNs
  | controlSent peer purpose phase step bytes _ =>
    controlSent peer purpose phase step bytes durationNs
  | controlReceived peer purpose phase step bytes _ =>
    controlReceived peer purpose phase step bytes durationNs
  | event => event

/-- One monotonically ordered, rank-aware runtime event. -/
structure RunEvent where
  sequence : UInt64
  rank : Nat
  elapsedNs : Nat
  event : RunEventKind
  deriving DecidableEq, Repr

end Dlir.Runtime
