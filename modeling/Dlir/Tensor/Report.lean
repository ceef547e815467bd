import Dlir.Pipeline.Event
import Dlir.Tensor.Plan

namespace Dlir.Tensor

open Dlir.Collectives Dlir.Pipeline Dlir.Runtime

structure TensorParallelRankTimings where
  modelLoadNs : Nat
  prefillNs : Nat
  decodeTotalNs : Nat
  decodeForwardCount : Nat
  totalNs : Nat
  deriving DecidableEq, Repr

/-- Final result emitted by one tensor rank. -/
structure TensorParallelRankReport where
  schemaVersion : Nat
  runId : String
  requestId : String
  rank : Nat
  peers : List PeerInfo
  memory : TensorParallelMemoryPlan
  resources : ResourceSnapshot
  finalKvCacheBytes : Nat
  collectives : List CollectiveTrace
  sentBytes : Nat
  receivedBytes : Nat
  generatedTokens : List Nat
  completion : String
  stopReason : StopReason
  timings : TensorParallelRankTimings
  events : List PipelineEvent
  barriersPassed : Bool
  success : Bool
  deriving DecidableEq, Repr

/-- What a tensor rank has emitted. The emitter keeps under a lock, and counts in the same way, what
the recorder of a pipeline rank keeps. -/
abbrev EventEmitter : Type := EventRecorder

def EventEmitter.new (rank : Nat) (runId requestId : String) : EventEmitter :=
  EventRecorder.new rank runId requestId

def EventEmitter.emit (self : EventEmitter) (elapsedNs : Nat) (kind : RunEventKind) : EventEmitter :=
  EventRecorder.emit self elapsedNs kind

def EventEmitter.emitAll (self : EventEmitter) (kinds : List (Nat × RunEventKind)) : EventEmitter :=
  kinds.foldl (fun emitter entry => EventEmitter.emit emitter entry.1 entry.2) self

end Dlir.Tensor
