import Dlir.Cli.Manifest
import Dlir.Tensor.Runner

namespace Dlir.Cli

open Dlir.Collectives Dlir.Framework Dlir.Math Dlir.Pipeline Dlir.Runtime Dlir.Runtime.Model Dlir.Tensor

/-- What the launcher of tensor ranks is asked for. `spec` is the entry of the model; the memory is in
bytes, and the run has its identifiers. -/
structure TensorLaunchRequest where
  spec : ModelSpec
  tp : Nat
  dtype : PlanDType
  prompt : String
  maxNewTokens : Nat
  totalCpus : CpuAmount
  totalMemory : Nat
  allReduce : AllReduceAlgorithm
  runId : String
  requestId : String

def containerCheckpoint : String := "/opt/dlir/artifacts/model.safetensors"

def containerTokenizer : String := "/opt/dlir/artifacts/tokenizer.json"

/-- The request that the launcher writes for its tensor ranks. -/
def tensorManifest {α : Type} (formatBytes : Nat → String) (found : GenerationWorld α)
    (request : TensorLaunchRequest) (engine : DockerEngineReport) :
    Except LaunchError TensorParallelManifest := do
  refuse (isBlank request.prompt = true ∨ request.maxNewTokens = 0)
    (.bail "tensor prompt must be non-empty and max-new-tokens must be at least one")
  refuse (request.dtype ≠ .f32) (.bail "v0.5 tensor execution supports only CPU/F32")
  let spec := request.spec
  (spec.validateCpuDtype request.dtype).mapError .runtime
  validateRunId request.runId
  found.metadata.mapError .generation
  let _ ← found.tokenizer.mapError fun error => .bail s!"tokenizer error: {error}"
  let rendered ← (renderPrompt spec.id.promptTemplate request.prompt).mapError .generation
  let promptTokenIds ← (found.encode rendered).mapError fun error => .bail s!"tokenizer error: {error}"
  refuse (promptTokenIds = [] ∨ promptTokenIds.length ≥ spec.config.maxPositionEmbeddings)
    (.bail (s!"prompt has {promptTokenIds.length} tokens " ++
      s!"but model context is {spec.config.maxPositionEmbeddings}"))
  let effectiveMaxNewTokens :=
    min request.maxNewTokens (spec.config.maxPositionEmbeddings - promptTokenIds.length)
  let contextCapacity := promptTokenIds.length + effectiveMaxNewTokens
  let resources ← (planResources formatBytes request.tp request.totalCpus request.totalMemory
    engine).mapError .bail
  let partition ← (TensorParallelPartition.planSpec spec request.tp contextCapacity
    (some resources.perRankMemoryBytes)).mapError .tensor
  partition.requirePlacement.mapError .tensor
  found.weights.mapError .generation
  pure {
    schemaVersion := 1
    runId := request.runId
    requestId := request.requestId
    model := spec.id
    dtype := request.dtype
    tensorParallel := request.tp
    allReduce := request.allReduce
    promptTokenIds
    requestedMaxNewTokens := request.maxNewTokens
    effectiveMaxNewTokens, contextCapacity
    checkpointPath := containerCheckpoint
    tokenizerPath := containerTokenizer
    partition }

section Manifest

variable {α : Type} {formatBytes : Nat → String} {found : GenerationWorld α}
  {request : TensorLaunchRequest} {engine : DockerEngineReport} {manifest : TensorParallelManifest}

/-- What a manifest says of the plans of the ranks, however many these are. -/
structure TensorPlanned (spec : ModelSpec) (manifest : TensorParallelManifest) : Prop where
  capacity : manifest.contextCapacity =
    manifest.promptTokenIds.length + manifest.effectiveMaxNewTokens
  plans : ∃ budget headDim, spec.config.Heads headDim ∧
    (List.range manifest.tensorParallel).mapM (TensorParallelPartition.planRank spec
      manifest.tensorParallel manifest.contextCapacity budget headDim) = .ok manifest.partition.ranks

/-- The launcher writes such manifests. -/
theorem planned_of_tensorManifest (h : tensorManifest formatBytes found request engine = .ok manifest) :
    TensorPlanned request.spec manifest := by
  simp only [tensorManifest, bind_eq_ok, refuse_eq_ok, mapError_eq_ok, pure_eq_ok, exists_const] at h
  obtain ⟨-, -, -, -, -, -, -, -, -, -, rendered, -, promptTokenIds, -, -, resources, -, partition, hpartition,
    -, -, -, -, rfl⟩ := h
  obtain ⟨-, headDim, hheads, hranks⟩ := ranks_of_planSpec hpartition
  exact ⟨rfl, _, headDim, hheads, hranks⟩

end Manifest

end Dlir.Cli
