import Dlir.Cli.Resources
import Dlir.Pipeline.Run
import Dlir.Tensor.Plan

namespace Dlir.Cli

open Dlir.Collectives Dlir.Framework Dlir.Math Dlir.Pipeline Dlir.Runtime Dlir.Runtime.Model Dlir.Tensor

/-- Failures of a launcher before it starts any rank. -/
inductive LaunchError
  | bail (message : String)
  | runtime (error : DlirError)
  | generation (error : GenerationError)
  | pipeline (error : PipelineError)
  | tensor (error : TensorParallelError)
  deriving DecidableEq, Repr

/-- What the launcher of a pipeline is asked for. `spec` is the entry of the model; the memory is in
bytes, and the run has its identifiers. -/
structure PipelineLaunchRequest where
  spec : ModelSpec
  dtype : PlanDType
  prompt : String
  maxNewTokens : Nat
  totalCpus : CpuAmount
  totalMemory : Nat
  runId : String
  requestId : String

/-- Run IDs become part of container names. -/
def validateRunId (runId : String) : Except LaunchError Unit :=
  refuse (runId = "" ∨ runId.utf8ByteSize > 48 ∨
    ¬ runId.toList.all (fun c => c.isAlphanum || c == '-' || c == '_') = true)
    (.bail "run ID must contain 1-48 ASCII letters, digits, '-' or '_'")

/-- No rank is started where the plan of one exceeds its limit. -/
def placeRanks (formatBytes : Nat → String) (memoryPlans : List StageMemoryPlan) :
    Except LaunchError Unit :=
  match memoryPlans.find? (·.placement = .doesNotFit) with
  | some failed => .error (.bail
      (s!"rank {failed.rank} placement failed before checkpoint download: " ++
        s!"{formatBytes failed.persistentBytes} required, {formatBytes failed.budgetBytes} available"))
  | none => .ok ()

theorem placeRanks_eq_ok {formatBytes : Nat → String} {memoryPlans : List StageMemoryPlan} :
    placeRanks formatBytes memoryPlans = .ok () ↔
      ∀ plan ∈ memoryPlans, plan.placement ≠ .doesNotFit := by
  unfold placeRanks
  cases hfind : memoryPlans.find? (·.placement = .doesNotFit) with
  | none => simpa using hfind
  | some failed =>
    have hfailed := List.find?_some hfind
    have hmem := List.mem_of_find?_eq_some hfind
    constructor
    · intro h
      cases h
    · intro h
      exact absurd (of_decide_eq_true hfailed) (h failed hmem)

/-- The request that the launcher writes for its ranks. -/
def pipelineManifest {α : Type} (formatBytes : Nat → String) (found : GenerationWorld α)
    (request : PipelineLaunchRequest) (nproc : Nat) (engine : DockerEngineReport) :
    Except LaunchError PipelineManifest := do
  refuse (request.maxNewTokens = 0 ∨ isBlank request.prompt = true)
    (.bail "pipeline prompt must be non-empty and max-new-tokens must be at least one")
  refuse (request.dtype ≠ .f32) (.bail "v0.4 pipeline execution supports only CPU/F32")
  let spec := request.spec
  (spec.validateCpuDtype request.dtype).mapError .runtime
  let partition ← (PipelinePartition.balanced spec nproc).mapError .pipeline
  validateRunId request.runId
  found.metadata.mapError .generation
  let _ ← found.tokenizer.mapError fun error => .bail s!"tokenizer error: {error}"
  let rendered ← (renderPrompt spec.id.promptTemplate request.prompt).mapError .generation
  let promptTokenIds ← (found.encode rendered).mapError fun error => .bail s!"tokenizer error: {error}"
  refuse (promptTokenIds = [] ∨ promptTokenIds.length ≥ spec.config.maxPositionEmbeddings)
    (.bail (s!"prompt has {promptTokenIds.length} tokens " ++
      s!"but model context is {spec.config.maxPositionEmbeddings}"))
  let available := spec.config.maxPositionEmbeddings - promptTokenIds.length
  let effectiveMaxNewTokens := min request.maxNewTokens available
  let contextCapacity := promptTokenIds.length + effectiveMaxNewTokens
  let resources ← (planResources formatBytes nproc request.totalCpus request.totalMemory
    engine).mapError .bail
  let memoryPlans ← (partition.stages.mapM fun stage => StageMemoryPlan.forStage spec stage
    request.dtype contextCapacity resources.perRankMemoryBytes).mapError .pipeline
  placeRanks formatBytes memoryPlans
  found.weights.mapError .generation
  pure {
    runId := request.runId
    requestId := request.requestId
    spec
    dtype := request.dtype
    promptTokenIds
    requestedMaxNewTokens := request.maxNewTokens
    effectiveMaxNewTokens, contextCapacity, partition, memoryPlans
    expectedCpuMillis := resources.perRankCpuMillis
    expectedMemoryBytes := resources.perRankMemoryBytes }

/-- The ranks find the artifacts of the launcher. -/
def onRanks {α : Type} {world : Nat} (found : GenerationWorld α) (codec : Codec PipelineControl)
    (resources : Rank world → ResourceSnapshot) (manifest : PipelineManifest) : PipelineWorld world α where
  lib := found.lib
  argmax := found.argmax
  varBuilder := found.varBuilder
  tokenizer := found.tokenizer
  codec := codec
  resources := resources
  manifest := manifest

section Manifest

variable {α : Type} {formatBytes : Nat → String} {found : GenerationWorld α}
  {request : PipelineLaunchRequest} {nproc : Nat} {engine : DockerEngineReport}
  {manifest : PipelineManifest}

/-- What a manifest says. -/
structure Planned (found : GenerationWorld α) (request : PipelineLaunchRequest) (nproc : Nat)
    (promptTokenIds : List Nat) (manifest : PipelineManifest) : Prop where
  world : 2 ≤ nproc
  layers : nproc ≤ request.spec.config.numHiddenLayers
  prompt : ∃ rendered, renderPrompt request.spec.id.promptTemplate request.prompt = .ok rendered ∧
    found.encode rendered = .ok promptTokenIds
  placed : ∀ plan ∈ manifest.memoryPlans, plan.placement ≠ .doesNotFit
  plans : manifest.memoryPlans.length = nproc
  spec : manifest.spec = request.spec
  dtype : manifest.dtype = .f32
  promptIds : manifest.promptTokenIds = promptTokenIds
  requested : manifest.requestedMaxNewTokens = request.maxNewTokens
  effective : manifest.effectiveMaxNewTokens =
    GenerationWorld.effectiveNewTokens request.spec.config promptTokenIds.length request.maxNewTokens
  capacity : manifest.contextCapacity = promptTokenIds.length +
    GenerationWorld.effectiveNewTokens request.spec.config promptTokenIds.length request.maxNewTokens
  stages : manifest.partition.stages = (List.range nproc).map (stageOf request.spec nproc)
  balanced : PipelinePartition.balanced request.spec nproc = .ok manifest.partition
  memory : manifest.partition.stages.mapM (fun stage => StageMemoryPlan.forStage request.spec stage .f32
    manifest.contextCapacity manifest.expectedMemoryBytes) = .ok manifest.memoryPlans
  some : 0 < manifest.effectiveMaxNewTokens

theorem planned_of_manifest (h : pipelineManifest formatBytes found request nproc engine = .ok manifest) :
    ∃ promptTokenIds, Planned found request nproc promptTokenIds manifest := by
  simp only [pipelineManifest, bind_eq_ok, refuse_eq_ok, mapError_eq_ok, pure_eq_ok, exists_const] at h
  obtain ⟨hwanted, hdtype, -, -, partition, hbalanced, -, -, -, -, -, -, rendered, hrendered,
    promptTokenIds, hencoded, hfits, resources, -, plans, hplans, ⟨⟩, hplaced, -, -, rfl⟩ := h
  have hdtype := not_not.mp hdtype
  rw [hdtype] at hplans
  obtain ⟨⟨hworld, -⟩, hlayers, hstages⟩ := balanced_eq_ok.mp hbalanced
  have hcount := (forall₂_of_mapM hplans).length_eq
  rw [hstages, List.length_map, List.length_range] at hcount
  exact ⟨promptTokenIds, {
    world := hworld
    layers := hlayers
    prompt := ⟨rendered, hrendered, hencoded⟩
    placed := placeRanks_eq_ok.mp hplaced
    plans := hcount.symm
    spec := rfl
    dtype := hdtype
    promptIds := rfl
    requested := rfl
    effective := rfl
    capacity := rfl
    stages := by rw [hstages]
    balanced := hbalanced
    memory := hplans
    some := by
      show 0 < min request.maxNewTokens (request.spec.config.maxPositionEmbeddings - promptTokenIds.length)
      omega }⟩

end Manifest

end Dlir.Cli
