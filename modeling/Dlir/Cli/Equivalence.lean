import Dlir.Cli.Manifest
import Dlir.Pipeline.Equivalence
import Dlir.Pipeline.Json
import Dlir.Runtime.Outcome

namespace Dlir.Cli

open Dlir.Collectives Dlir.Framework Dlir.Math Dlir.Pipeline Dlir.Runtime Dlir.Runtime.Model

section Equivalence

variable {α : Type} [Zero α] {formatBytes : Nat → String} {found : GenerationWorld α}
  {codec : Codec PipelineControl} {request : PipelineLaunchRequest} {budget : Option MemoryBudget}
  {engine : DockerEngineReport} {manifest : PipelineManifest} {report : GenerationReport}

/-- The same request for one process. -/
def PipelineLaunchRequest.single (self : PipelineLaunchRequest) (budget : Option MemoryBudget) :
    GenerationRequest :=
  ⟨self.spec, self.dtype, self.prompt, self.maxNewTokens, budget⟩

omit [Zero α] in
/-- The ranks of a manifest serve the request of one process. -/
theorem serves_of_planned {n : Nat} {resources : Rank (n + 1) → ResourceSnapshot}
    {promptTokens : List Nat} (hplanned : Planned found request (n + 1) promptTokens manifest)
    (hdtype : request.dtype = .f32)
    (hresources : ∀ rank, checkResources rank.val manifest (resources rank) = .ok ()) :
    ∃ plans, Serves (onRanks found codec resources manifest) found (request.single budget) promptTokens
      plans := by
  have hworld := hplanned.world
  have hstages := hplanned.stages
  have hplan : ∀ rank : Rank (n + 1), rank.val < manifest.memoryPlans.length := by
    intro rank
    rw [hplanned.plans]
    exact rank.isLt
  refine ⟨fun rank => manifest.memoryPlans.get ⟨rank.val, hplan rank⟩, {
    ranks := by omega
    layers := hplanned.layers
    lib := rfl
    argmax := rfl
    varBuilder := rfl
    tokenizer := rfl
    spec := hplanned.spec
    dtype := hplanned.dtype.trans hdtype.symm
    prompt := hplanned.promptIds
    requested := hplanned.requested
    effective := hplanned.effective
    capacity := hplanned.capacity
    admitted := fun rank => ?_ }⟩
  have hcount : ¬ n + 1 ≠ manifest.partition.stages.length := by
    rw [hstages, List.length_map, List.length_range]
    exact not_not.mpr rfl
  have hstage : manifest.partition.stages[rank.val]? =
      some (stageOf manifest.spec (n + 1) rank.val) := by
    rw [hstages, hplanned.spec]
    exact getElem?_stages.mpr ⟨rank.isLt, rfl⟩
  have hget : manifest.memoryPlans[rank.val]? = some (manifest.memoryPlans.get ⟨rank.val, hplan rank⟩) :=
    List.getElem?_eq_getElem (hplan rank)
  simp only [admitRank, PipelinePartition.stage, bind_eq_ok, refuse_eq_ok, okOr_eq_ok, pure_eq_ok,
    exists_const]
  exact ⟨hcount, _, hstage, _, hget, hplanned.placed _ (List.get_mem _ _), (),
    hresources rank, rfl⟩

/-- What the launcher asks of its ranks, they do together, in whatever order they take their steps. -/
theorem ranks_of_manifest {n : Nat} {resources : Rank (n + 1) → ResourceSnapshot}
    (hreliable : Reliable (onRanks found codec resources manifest))
    (hhidden : 0 < request.spec.config.hiddenSize)
    (hsingle : found.generate (request.single budget) = .ok report)
    (hmanifest : pipelineManifest formatBytes found request (n + 1) engine = .ok manifest)
    (hresources : ∀ rank, checkResources rank.val manifest (resources rank) = .ok ()) :
    ∃ tokenizer promptTokens model cache first tokens last plans, ∃ own : Rank (n + 1) → Nat,
      Serves (onRanks found codec resources manifest) found (request.single budget) promptTokens plans ∧
      found.Completed (request.single budget) report tokenizer promptTokens model cache first tokens
        last ∧
      ∑ rank, own rank = report.finalKvCacheBytes ∧
      TogetherSt (fun rank => (onRanks found codec resources manifest).runPipelineRank rank) (fun _ => {})
        (fun rank => rankEvents (onRanks found codec resources manifest) tokenizer rank (first :: tokens)
          report.stopReason)
        (fun rank => .ok (outcomeOf (onRanks found codec resources manifest) tokenizer (plans rank)
          (own rank) report.generatedTokens (first :: tokens) report.stopReason report.completion rank))
        (fun rank => (rankEvents (onRanks found codec resources manifest) tokenizer rank
          (first :: tokens) report.stopReason).foldl CommunicationReport.record {}) := by
  obtain ⟨tokenizer, promptTokens, model, cache, first, tokens, last, hcompleted⟩ :=
    GenerationWorld.generate_completed hsingle
  obtain ⟨promptTokens', hplanned⟩ := planned_of_manifest hmanifest
  obtain rfl : promptTokens' = promptTokens := by
    obtain ⟨rendered, hrendered, hencoded⟩ := hcompleted.prompt
    obtain ⟨rendered', hrendered', hencoded'⟩ := hplanned.prompt
    obtain rfl := Except.ok.inj (hrendered'.symm.trans hrendered)
    exact Except.ok.inj (hencoded'.symm.trans hencoded)
  obtain ⟨plans, hserves⟩ := @serves_of_planned _ _ codec _ budget _ _ _ _ hplanned hcompleted.dtype
    hresources
  obtain ⟨own, hsum, htogether⟩ := ranks_together hserves hreliable hhidden hcompleted
  exact ⟨tokenizer, promptTokens', model, cache, first, tokens, last, plans, own, hserves, hcompleted,
    hsum, htogether⟩

/-- Where one process can serve a request, the ranks of a pipeline serve it together in every order of
their steps: none gets stuck or fails, all stop for the same reason after as many decodes, the first
one has the tokens and the text of the process, and the caches hold as many bytes as its cache. -/
theorem pipeline_generates {nproc : Nat} {resources : Rank nproc → ResourceSnapshot}
    (hreliable : Reliable (onRanks found codec resources manifest))
    (hhidden : 0 < request.spec.config.hiddenSize)
    (hsingle : found.generate (request.single budget) = .ok report)
    (hmanifest : pipelineManifest formatBytes found request nproc engine = .ok manifest)
    (hresources : ∀ rank, checkResources rank.val manifest (resources rank) = .ok ()) (cap : ℕ∞) :
    ∃ (outcome : Rank nproc → PipelineRankOutcome) (log : Rank nproc → List RunEventKind),
      Settles (Step cap) (onRanks found codec resources manifest).start
        ((Snapshot.mk (fun rank => .ret (.ok (outcome rank), (outcome rank).communication)) log).world _) ∧
      (∀ rank, (outcome rank).stopReason = report.stopReason ∧
        (outcome rank).decodeForwardCount = report.decodeForwardCount ∧
        (outcome rank).generatedTokens = (if rank.val = 0 then report.generatedTokens else []) ∧
        (outcome rank).completion = if rank.val = 0 then report.completion else "") ∧
      ∑ rank, (outcome rank).finalKvCacheBytes = report.finalKvCacheBytes := by
  obtain ⟨promptTokens, hplanned⟩ := planned_of_manifest hmanifest
  obtain ⟨n, rfl⟩ : ∃ n, nproc = n + 1 := ⟨nproc - 1, by have hworld := hplanned.world; omega⟩
  obtain ⟨tokenizer, promptTokens, model, cache, first, tokens, last, plans, own, hserves, hcompleted,
    hsum, htogether⟩ := ranks_of_manifest hreliable hhidden hsingle hmanifest hresources
  have hzero : ∀ rank : Rank (n + 1), rank.val = 0 ↔ rank = 0 := fun rank => by rw [Fin.ext_iff]; rfl
  refine ⟨_, _, Together.settles htogether _ cap, fun rank => ⟨rfl, ?_, ?_, ?_⟩, hsum⟩
  · rw [hcompleted.decodeForwardCount]
    rfl
  · simp only [hzero]
    rfl
  · simp only [hzero]
    rfl

end Equivalence

section TwoRanks

def pairRequest : PipelineLaunchRequest :=
  ⟨pairSpec, .f32, "hi", 2, ⟨3000⟩, 4294967296, "run", "request"⟩

/-- A container with the limits of a manifest. -/
def granted (manifest : PipelineManifest) : ResourceSnapshot :=
  ⟨some manifest.expectedCpuMillis, none, some manifest.expectedMemoryBytes, none, none⟩

theorem checkResources_granted (rank : Nat) (manifest : PipelineManifest) :
    checkResources rank manifest (granted manifest) = .ok () := by
  rw [checkResources, refuse_eq_ok]
  simp [granted]

theorem pairFound_reliable {world : Nat} (resources : Rank world → ResourceSnapshot)
    (manifest : PipelineManifest) : Reliable (onRanks pairFound jsonControls resources manifest) where
  lib := zeroTracking_documented
  codec := jsonControls_documented
  compact := jsonControls_compact
  argmax := by
    intro logits best h token htoken
    have hbest : Tensor.fromVec [0] [] = .ok best := h
    rw [(Tensor.fromVec_parts hbest).2, List.mem_singleton] at htoken
    rw [htoken]
    exact Nat.two_pow_pos 32
  shaped := by
    intro vb h
    obtain rfl := Except.ok.inj h
    exact zeroBuilder_shaped
  nothing := by
    intro tokenizer h
    obtain rfl := Except.ok.inj h
    rfl

theorem pairManifest_ok :
    ∃ manifest, pipelineManifest toString pairFound pairRequest 2 twoRankEngine = .ok manifest :=
  ok_of_toBool (by decide +kernel)

theorem pipeline_generates_pair : ∃ report manifest,
    pairFound.generate (pairRequest.single none) = .ok report ∧
    pipelineManifest toString pairFound pairRequest 2 twoRankEngine = .ok manifest ∧
    ∃ (outcome : Rank 2 → PipelineRankOutcome) (log : Rank 2 → List RunEventKind),
      Settles (Step ⊤) (onRanks pairFound jsonControls (fun _ => granted manifest) manifest).start
        ((Snapshot.mk (fun rank => .ret (.ok (outcome rank), (outcome rank).communication)) log).world _) ∧
      ∀ rank, (outcome rank).stopReason = report.stopReason := by
  obtain ⟨report, hsingle⟩ : ∃ report, pairFound.generate (pairRequest.single none) = .ok report :=
    pairFound_generate
  obtain ⟨manifest, hmanifest⟩ := pairManifest_ok
  obtain ⟨outcome, log, hsettles, hsame, -⟩ := pipeline_generates (pairFound_reliable _ manifest)
    (by decide) hsingle hmanifest (fun rank => checkResources_granted rank.val manifest) ⊤
  exact ⟨report, manifest, hsingle, hmanifest, outcome, log, hsettles, fun rank => (hsame rank).1⟩

end TwoRanks

end Dlir.Cli
