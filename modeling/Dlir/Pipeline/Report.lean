import Dlir.Collectives.Rendezvous
import Dlir.Pipeline.Partition
import Dlir.Runtime.Report

namespace Dlir.Pipeline

open Dlir.Collectives Dlir.Runtime

/-- Schema-versioned event published by one rank. -/
structure PipelineEvent where
  schemaVersion : Nat
  runId : String
  requestId : String
  event : RunEvent
  deriving DecidableEq, Repr

/-- Event annotated with deterministic host receive order. -/
structure ReceivedPipelineEvent where
  receiveSequence : Nat
  published : PipelineEvent
  deriving DecidableEq, Repr

/-- Resource limits observed inside one rank container. -/
structure ResourceSnapshot where
  cpuMillis : Option Nat
  memoryCurrentBytes : Option Nat
  memoryLimitBytes : Option Nat
  cpusetCpus : Option String
  cgroupVersion : Option String
  deriving DecidableEq, Repr

/-- Per-rank communication counters. -/
structure CommunicationReport where
  tensorMessagesSent : Nat := 0
  tensorMessagesReceived : Nat := 0
  tensorBytesSent : Nat := 0
  tensorBytesReceived : Nat := 0
  controlMessagesSent : Nat := 0
  controlMessagesReceived : Nat := 0
  controlBytesSent : Nat := 0
  controlBytesReceived : Nat := 0
  communicationNs : Nat := 0
  deriving DecidableEq, Repr

structure PipelineRankTimings where
  modelLoadNs : Nat
  prefillNs : Nat
  decodeTotalNs : Nat
  layerComputeNs : Nat
  decodeForwardCount : Nat
  timeToFirstTokenNs : Option Nat
  totalNs : Nat
  deriving DecidableEq, Repr

/-- Final result emitted by one pipeline rank. -/
structure PipelineRankReport where
  schemaVersion : Nat
  runId : String
  requestId : String
  rank : Nat
  peers : List PeerInfo
  assignment : StageAssignment
  memory : StageMemoryPlan
  resources : ResourceSnapshot
  finalKvCacheBytes : Nat
  communication : CommunicationReport
  timings : PipelineRankTimings
  generatedTokens : List Nat
  completion : String
  stopReason : StopReason
  barriersPassed : Bool
  events : List PipelineEvent
  success : Bool
  deriving DecidableEq, Repr

end Dlir.Pipeline
