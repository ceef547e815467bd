import Dlir.Collectives.Native
import Dlir.Framework.Machine
import Dlir.Math.Statistics

namespace Dlir.Collectives

open Dlir.Framework Dlir.Math

/-- Immutable workload shared by Docker/TCP benchmark ranks. -/
structure CollectiveBenchmarkManifest where
  schemaVersion : Nat
  runId : String
  worldSize : Nat
  sizes : List Nat
  algorithms : List AllReduceAlgorithm
  warmup : Nat
  iterations : Nat
  deriving DecidableEq, Repr

/-- One rank's measured values for one benchmark case. -/
structure CollectiveBenchmarkRankCase where
  algorithm : AllReduceAlgorithm
  payloadBytes : Nat
  latenciesNs : List Nat
  sentBytes : Nat
  traces : List CollectiveTrace
  deriving DecidableEq, Repr

/-- Final benchmark result emitted by one TCP rank. -/
structure CollectiveBenchmarkRankReport where
  schemaVersion : Nat
  rank : Nat
  cases : List CollectiveBenchmarkRankCase
  success : Bool
  deriving DecidableEq, Repr

/-- Docker capacity and equal limits used for a TCP benchmark. -/
structure CollectiveBenchmarkResources where
  engineCpuMillis : Nat
  engineMemoryBytes : Nat
  requestedCpuMillis : Nat
  requestedMemoryBytes : Nat
  perRankCpuMillis : Nat
  perRankMemoryBytes : Nat
  unusedCpuMillis : Nat
  unusedMemoryBytes : Nat
  deriving DecidableEq, Repr

/-- Metrics for one tensor size and all-reduce algorithm. -/
structure CollectiveBenchmarkCase where
  algorithm : AllReduceAlgorithm
  payloadBytes : Nat
  iterations : Nat
  meanLatencyNs : Nat
  p50LatencyNs : Nat
  p95LatencyNs : Nat
  effectivePayloadBytesPerSecond : Float
  observedWireBytes : Nat
  deriving Repr

/-- Schema-v1 native all-reduce benchmark report. -/
structure CollectiveBenchmarkReport where
  schemaVersion : Nat
  backend : String
  collectiveBackend : String
  worldSize : Nat
  warmup : Nat
  iterations : Nat
  cases : List CollectiveBenchmarkCase
  resources : Option CollectiveBenchmarkResources
  ranks : List CollectiveBenchmarkRankReport
  success : Bool
  deriving Repr

/-- `div_ceil`. -/
def divCeil (a b : Nat) : Nat := a / b + if a % b = 0 then 0 else 1

def percentile (profile : Profile) (sorted : List Nat) (percent : Nat) : Except Panic Nat := do
  let product ← profile.word ((sorted.length - 1) * percent)
  pure (sorted[divCeil product 100]?.getD 0)

/-- `sort_unstable` of numbers. -/
def sortUnstable (xs : List Nat) : List Nat := xs.mergeSort fun a b => decide (a ≤ b)

theorem sortUnstable_perm (xs : List Nat) : (sortUnstable xs).Perm xs := List.mergeSort_perm xs _

theorem sortUnstable_sorted (xs : List Nat) : (sortUnstable xs).Pairwise (· ≤ ·) :=
  mergeSort_sorted (fun x => x) xs

/-- The metrics of a case, from the slowest rank's latency in each iteration and from what each rank
sent. The sum of the latencies is divided by `divisor`. -/
def CollectiveBenchmarkCase.summarize (profile : Profile) (algorithm : AllReduceAlgorithm)
    (payloadBytes iterations divisor : Nat) (maximums : List Nat) (sent : Except Panic (List Nat)) :
    Except Panic CollectiveBenchmarkCase := do
  let maximums := sortUnstable maximums
  let sum ← profile.sum maximums
  let mean ← divide sum divisor
  let p50 ← percentile profile maximums 50
  let p95 ← percentile profile maximums 95
  let sentBytes ← sent
  let observed ← profile.sum sentBytes
  pure {
    algorithm := algorithm
    payloadBytes := payloadBytes
    iterations := iterations
    meanLatencyNs := mean
    p50LatencyNs := p50
    p95LatencyNs := p95
    effectivePayloadBytesPerSecond :=
      if mean = 0 then 0.0
      else (UInt64.ofNat payloadBytes).toFloat * 1e9 / (UInt64.ofNat mean).toFloat
    observedWireBytes := observed }

namespace CollectiveBenchmarkManifest

variable (manifest : CollectiveBenchmarkManifest)

/-- How many cases the manifest asks for. -/
def numberOfCases : Nat := manifest.algorithms.length * manifest.sizes.length

/-- The number of cases as the code multiplies it. -/
def caseCount (profile : Profile) : Except Panic Nat := profile.word manifest.numberOfCases

/-- The check of the ranks of all reports. -/
def checkRanks (ranks : List CollectiveBenchmarkRankReport) : Except CollectivesError Unit :=
  refuse (ranks.length ≠ manifest.worldSize ∨
      ranks.zipIdx.any (fun entry => entry.1.rank != entry.2) = true) <|
    .collective "benchmark rank reports are incomplete or unordered"

/-- The checks of all reports before any case is looked at. -/
def checkCases (ranks : List CollectiveBenchmarkRankReport) (caseCount : Nat) :
    Except CollectivesError Unit := do
  refuse (ranks.any (fun rank => rank.cases.length != caseCount) = true) <|
    .collective "benchmark ranks emitted different case counts"
  refuse (ranks.any (fun rank => rank.schemaVersion != 1 ||
      rank.cases.any fun case => case.latenciesNs.length != manifest.iterations) = true) <|
    .collective "benchmark rank reports have an unsupported schema or sample count"

/-- The slowest rank's latency in one iteration. -/
def slowest (ranks : List CollectiveBenchmarkRankReport) (caseIndex iteration : Nat) :
    Except Panic Nat := do
  let samples ← ranks.mapM fun rank => do
    let case ← index rank.cases caseIndex
    index case.latenciesNs iteration
  pure (samples.max?.getD 0)

/-- Aggregates one case. -/
def aggregateCase (profile : Profile) (ranks : List CollectiveBenchmarkRankReport)
    (caseIndex : Nat) : Panicking CollectivesError CollectiveBenchmarkCase := do
  let rank ← ExceptT.lift (index ranks 0)
  let first ← ExceptT.lift (index rank.cases caseIndex)
  let differs ← ExceptT.lift <| ranks.anyM fun rank => do
    let case ← index rank.cases caseIndex
    pure (case.algorithm != first.algorithm || case.payloadBytes != first.payloadBytes)
  ExceptT.mk <| .ok <| refuse (differs = true) <|
    .collective "benchmark ranks emitted inconsistent case identities"
  let maximums ← ExceptT.lift ((List.range manifest.iterations).mapM (slowest ranks caseIndex))
  let sent := ranks.mapM fun rank => do
    let case ← index rank.cases caseIndex
    pure case.sentBytes
  ExceptT.lift <| CollectiveBenchmarkCase.summarize profile first.algorithm first.payloadBytes
    manifest.iterations manifest.iterations maximums sent

/-- The report of a TCP run. -/
def tcpReport (ranks : List CollectiveBenchmarkRankReport)
    (resources : CollectiveBenchmarkResources) (cases : List CollectiveBenchmarkCase) :
    CollectiveBenchmarkReport where
  schemaVersion := 1
  backend := "tcp"
  collectiveBackend := "native"
  worldSize := manifest.worldSize
  warmup := manifest.warmup
  iterations := manifest.iterations
  cases := cases
  resources := some resources
  ranks := ranks
  success := ranks.all (·.success)

/-- Aggregates rank-local TCP samples using maximum-rank latency per iteration. -/
def aggregateAllReduceBenchmark (profile : Profile) (ranks : List CollectiveBenchmarkRankReport)
    (resources : CollectiveBenchmarkResources) :
    Panicking CollectivesError CollectiveBenchmarkReport := do
  let ranks := ranks.mergeSort fun a b => decide (a.rank ≤ b.rank)
  ExceptT.mk (.ok (manifest.checkRanks ranks))
  let caseCount ← ExceptT.lift (manifest.caseCount profile)
  ExceptT.mk (.ok (manifest.checkCases ranks caseCount))
  let cases ← (List.range caseCount).mapM (manifest.aggregateCase profile ranks)
  pure (manifest.tcpReport ranks resources cases)

end CollectiveBenchmarkManifest

end Dlir.Collectives
