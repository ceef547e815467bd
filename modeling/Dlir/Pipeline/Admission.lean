import Dlir.Collectives.Rank
import Dlir.Pipeline.Report

namespace Dlir.Pipeline

open Dlir.Collectives Dlir.Framework Dlir.Runtime

/-- Request that the launcher hands to every rank. `spec` is the entry of its model. -/
structure PipelineManifest where
  runId : String
  requestId : String
  spec : ModelSpec
  dtype : PlanDType
  promptTokenIds : List Nat
  requestedMaxNewTokens : Nat
  effectiveMaxNewTokens : Nat
  contextCapacity : Nat
  partition : PipelinePartition
  memoryPlans : List StageMemoryPlan
  expectedCpuMillis : Nat
  expectedMemoryBytes : Nat

/-- The `Debug` rendering of an optional number. -/
def debugOption : Option Nat → String
  | none => "None"
  | some value => s!"Some({value})"

/-- Compares the limits that a rank observed with those of the request; zero stands for no limit. -/
def checkResources (rank : Nat) (manifest : PipelineManifest) (resources : ResourceSnapshot) :
    Except PipelineError Unit :=
  let cpuMismatch := manifest.expectedCpuMillis > 0 ∧
    resources.cpuMillis ≠ some manifest.expectedCpuMillis
  let memoryMismatch := manifest.expectedMemoryBytes > 0 ∧
    resources.memoryLimitBytes ≠ some manifest.expectedMemoryBytes
  let observed := s!"{debugOption resources.cpuMillis}/{debugOption resources.memoryLimitBytes}"
  refuse (cpuMismatch ∨ memoryMismatch) <| .invalidTopology
    (s!"rank {rank} observed CPU/memory {observed}, " ++
      s!"expected {manifest.expectedCpuMillis}/{manifest.expectedMemoryBytes}")

/-- What a rank checks before it does anything else. -/
def admitRank (rank worldSize : Nat) (manifest : PipelineManifest) (resources : ResourceSnapshot) :
    Except PipelineError (StageAssignment × StageMemoryPlan) := do
  refuse (worldSize ≠ manifest.partition.stages.length) <| .invalidTopology
    s!"rank world size {worldSize} differs from manifest stages {manifest.partition.stages.length}"
  let assignment ← manifest.partition.stage rank
  let memory ← okOr (.invalidTopology "missing rank memory plan") manifest.memoryPlans[rank]?
  refuse (memory.placement = .doesNotFit)
    (.placementFailed rank memory.persistentBytes memory.budgetBytes)
  checkResources rank manifest resources
  pure (assignment, memory)

/-- The stage and the plan of a rank are those in its place. -/
theorem parts_of_admitRank {rank worldSize : Nat} {manifest : PipelineManifest}
    {resources : ResourceSnapshot} {assignment : StageAssignment} {memory : StageMemoryPlan}
    (h : admitRank rank worldSize manifest resources = .ok (assignment, memory)) :
    worldSize = manifest.partition.stages.length ∧
      manifest.partition.stages[rank]? = some assignment ∧
      manifest.memoryPlans[rank]? = some memory := by
  simp only [admitRank, PipelinePartition.stage, bind_eq_ok, refuse_eq_ok, okOr_eq_ok, pure_eq_ok,
    exists_const, not_not] at h
  obtain ⟨hworld, stage, hstage, plan, hplan, -, -, -, hparts⟩ := h
  obtain ⟨rfl, rfl⟩ := Prod.mk.inj hparts
  exact ⟨hworld, hstage, hplan⟩

theorem checkResources_eq_ok {rank : Nat} {manifest : PipelineManifest}
    {resources : ResourceSnapshot} (hcpu : 0 < manifest.expectedCpuMillis)
    (hmemory : 0 < manifest.expectedMemoryBytes) :
    checkResources rank manifest resources = .ok () ↔
      resources.cpuMillis = some manifest.expectedCpuMillis ∧
        resources.memoryLimitBytes = some manifest.expectedMemoryBytes := by
  rw [checkResources, refuse_eq_ok]
  simp only [gt_iff_lt, hcpu, hmemory, true_and, not_or, not_not]

end Dlir.Pipeline
