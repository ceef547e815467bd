import Dlir.Framework.Interleaving
import Dlir.Tensor.Report

namespace Dlir.Tui

open Dlir.Framework Dlir.Math Dlir.Pipeline Dlir.Runtime Dlir.Tensor

/-- Current read-only presentation state for one rank. -/
structure RankView where
  rank : Nat
  layers : String
  phase : String
  layer : Option Nat
  state : String
  computeNs : Nat
  communicationNs : Nat
  logicalMemoryBytes : Nat
  memoryCurrentBytes : Option Nat
  memoryLimitBytes : Option Nat
  phaseStartedNs : Option Nat
  deriving DecidableEq, Repr

/-- Reducer state rendered by the terminal frontend. -/
structure DashboardState where
  model : String
  backend : String
  worldSize : Nat
  tensorParallel : Nat
  pipelineParallel : Nat
  expertParallel : Nat
  allReduce : Option String
  assignmentLabel : String
  ranks : List RankView
  prefillNs : Option Nat
  decodeNs : Option Nat
  timeToFirstTokenNs : Option Nat
  communicationBytes : Nat
  generatedTokens : Nat
  recent : List String
  decodeTotalNs : Nat
  decodeCount : Nat
  prefillStartedNs : Option Nat
  deriving DecidableEq, Repr

def phaseName : ExecutionPhase → String
  | .prefill => "prefill"
  | .decode => "decode"

/-- `saturating_add` of 64-bit unsigned integers. -/
def saturatingAdd (a b : Nat) : Nat := min (a + b) (2 ^ 64 - 1)

namespace DashboardState

/-- Creates a dashboard from rank-ordered assignments and memory plans. -/
def new (model : String) (assignments : List StageAssignment) (memory : List StageMemoryPlan) :
    DashboardState where
  model := model
  backend := "tcp"
  worldSize := assignments.length
  tensorParallel := 1
  pipelineParallel := assignments.length
  expertParallel := 1
  allReduce := none
  assignmentLabel := "Layers"
  ranks := (assignments.zip memory).map fun (assignment, memory) =>
    { rank := assignment.rank
      layers := s!"{assignment.layerStart}..{assignment.layerEnd}"
      phase := "startup"
      layer := none
      state := "WAITING"
      computeNs := 0
      communicationNs := 0
      logicalMemoryBytes := memory.persistentBytes
      memoryCurrentBytes := none
      memoryLimitBytes := some memory.budgetBytes
      phaseStartedNs := none }
  prefillNs := none
  decodeNs := none
  timeToFirstTokenNs := none
  communicationBytes := 0
  generatedTokens := 0
  recent := []
  decodeTotalNs := 0
  decodeCount := 0
  prefillStartedNs := none

/-- The shard ranges of a tensor rank as the dashboard shows them. -/
def shardLabel (shard : TensorShardPlan) : String :=
  let v := shard.vocabulary
  let q := shard.queryHeads
  let k := shard.kvHeads
  let i := shard.intermediate
  s!"V{v.start}..{v.stop} Q{q.start}..{q.stop} K{k.start}..{k.stop} I{i.start}..{i.stop}"

/-- Creates a read-only tensor-parallel dashboard from exact rank shard plans. -/
def newTensor (model : String) (memory : List TensorParallelMemoryPlan) (allReduce : String) :
    DashboardState where
  model := model
  backend := "native/tcp"
  worldSize := memory.length
  tensorParallel := memory.length
  pipelineParallel := 1
  expertParallel := 1
  allReduce := some allReduce
  assignmentLabel := "Tensor shards"
  ranks := memory.map fun memory =>
    { rank := memory.rank
      layers := shardLabel memory.shard
      phase := "startup"
      layer := none
      state := "WAITING"
      computeNs := 0
      communicationNs := 0
      logicalMemoryBytes := memory.persistentBytes
      memoryCurrentBytes := none
      memoryLimitBytes := memory.budgetBytes
      phaseStartedNs := none }
  prefillNs := none
  decodeNs := none
  timeToFirstTokenNs := none
  communicationBytes := 0
  generatedTokens := 0
  recent := []
  decodeTotalNs := 0
  decodeCount := 0
  prefillStartedNs := none

def pushRecent (self : DashboardState) (line : String) : DashboardState :=
  let recent := self.recent ++ [line]
  { self with recent := if recent.length > 5 then recent.tail else recent }

/-- Replaces the row of one rank. -/
def setView (self : DashboardState) (rank : Nat) (view : RankView) : DashboardState :=
  { self with ranks := self.ranks.set rank view }

/-- Counts bytes of a send event. -/
def addBytes (self : DashboardState) (bytes : Nat) : DashboardState :=
  { self with communicationBytes := saturatingAdd self.communicationBytes bytes }

/-- A rank-0 decode step is over. -/
def finishDecode (self : DashboardState) (duration : Nat) : DashboardState :=
  let decodeTotalNs := saturatingAdd self.decodeTotalNs duration
  let decodeCount := saturatingAdd self.decodeCount 1
  { self with decodeTotalNs, decodeCount, decodeNs := some (decodeTotalNs / decodeCount) }

/-- Applies an event of a known rank whose row is `view`. -/
def applyKnown (self : DashboardState) (rank : Nat) (view : RankView) (elapsedNs : Nat) :
    RunEventKind → DashboardState
  | .modelLoadStarted => self.setView rank { view with state := "LOADING" }
  | .modelLoadFinished => self.setView rank { view with state := "READY" }
  | .layerStarted layer phase _ => self.setView rank
      { view with layer := some layer, phase := phaseName phase, state := "COMPUTE" }
  | .layerCompleted layer _ _ durationNs => self.setView rank
      { view with layer := some layer, computeNs := durationNs, state := "READY" }
  | .tensorSent _ _ _ _ _ bytes durationNs => (self.setView rank
      { view with communicationNs := durationNs, state := "SEND" }).addBytes bytes
  | .tensorReceived _ _ _ _ _ _ durationNs => self.setView rank
      { view with communicationNs := durationNs, state := "RECV" }
  | .controlSent _ _ _ _ bytes durationNs => (self.setView rank
      { view with communicationNs := durationNs, state := "SEND CTRL" }).addBytes bytes
  | .controlReceived _ _ _ _ _ durationNs => self.setView rank
      { view with communicationNs := durationNs, state := "RECV CTRL" }
  | .collectiveStarted _ _ => self.setView rank { view with state := "BARRIER" }
  | .collectiveCompleted _ _ _ => self.setView rank { view with state := "READY" }
  | .tensorCollectiveStarted collective algorithm sequence _ => (self.setView rank
      { view with state := s!"{collective.toUpper} #{sequence}" }).pushRecent
        s!"rank {rank}: {algorithm} {collective} #{sequence}"
  | .tensorCollectiveCompleted collective _ sentBytes _ durationNs => ((self.setView rank
      { view with state := "READY", communicationNs := durationNs }).addBytes sentBytes).pushRecent
        s!"rank {rank}: {collective} complete"
  | .memorySample currentBytes limitBytes => self.setView rank
      { view with memoryCurrentBytes := currentBytes, memoryLimitBytes := limitBytes }
  | .prefillStarted _ =>
    let self := self.setView rank
      { view with phase := "prefill", phaseStartedNs := some elapsedNs }
    if rank = 0 then { self with prefillStartedNs := some elapsedNs } else self
  | .prefillFinished =>
    let self := self.setView rank { view with state := "READY" }
    if rank = 0 then { self with prefillNs := view.phaseStartedNs.map (elapsedNs - ·) } else self
  | .decodeStepStarted _ => self.setView rank
      { view with phase := "decode", phaseStartedNs := some elapsedNs }
  | .decodeStepFinished _ =>
    let self := self.setView rank { view with state := "READY" }
    if rank = 0 then self.finishDecode ((view.phaseStartedNs.map (elapsedNs - ·)).getD 0)
    else self
  | .tokenGenerated tokenId _ =>
    let self := { self with generatedTokens := self.generatedTokens + 1 }
    let self := if rank = 0 ∧ self.timeToFirstTokenNs.isNone then
        { self with timeToFirstTokenNs := self.prefillStartedNs.map (elapsedNs - ·) }
      else self
    self.pushRecent s!"rank {rank} generated token {tokenId}"
  | .generationFinished stopReason => (self.setView rank
      { view with state := "DONE" }).pushRecent
        s!"rank {rank} finished: {stopReason.display}"
  | .artifactResolutionStarted => self
  | .artifactResolutionFinished => self

/-- Applies one published rank event without changing cluster execution. -/
def apply (self : DashboardState) (published : PipelineEvent) : DashboardState :=
  let rank := published.event.rank
  match self.ranks[rank]? with
  | none => self.pushRecent s!"ignored event from unknown rank {rank}"
  | some view => self.applyKnown rank view published.event.elapsedNs published.event.event

/-- The dashboard after a sequence of events. -/
def applyAll (self : DashboardState) (published : List PipelineEvent) : DashboardState :=
  published.foldl apply self

end DashboardState

end Dlir.Tui
