import Dlir.Cli.Agreement
import Dlir.Cli.Equivalence
import Dlir.Cli.PipelineRuns
import Dlir.Cli.TensorManifest
import Dlir.Pipeline.Caches
import Dlir.Tensor.Caches

namespace Dlir.Cli

open Dlir.Collectives Dlir.Framework Dlir.Math Dlir.Pipeline Dlir.Runtime Dlir.Runtime.Model Dlir.Tensor
  Relation

/-- Caches that hold these bytes together, each with room for one more of its positions in what is
planned for it. -/
structure Spread {world : Nat} (bytes : Nat) (used position planned : Rank world → Nat) : Prop where
  sum : ∑ rank, used rank = bytes
  room : ∀ rank, used rank + position rank ≤ planned rank

section Pipeline

variable {n : Nat} {α : Type} [Zero α] {formatBytes : Nat → String} {found : GenerationWorld α}
  {launch : PipelineLaunchRequest} {engine : DockerEngineReport} {manifest : PipelineManifest}
  {codec : Codec PipelineControl} {resources : Rank (n + 1) → ResourceSnapshot} {d decodes : Nat}

theorem pipeline_caches (hlib : found.lib.Documented)
    (hshaped : ∀ vb, found.varBuilder = .ok vb → VarBuilder.Shaped vb) (hcodec : codec.Documented)
    (hmanifest : pipelineManifest formatBytes found launch (n + 1) engine = .ok manifest)
    (hd : launch.spec.config.Heads d)
    (run : Pipeline.CompletedRun (onRanks found codec resources manifest))
    (hdecodes : ∃ rank, (run.report rank).timings.decodeForwardCount = decodes) :
    Spread ((manifest.promptTokenIds.length + decodes) * positionBytes launch.spec.config d .f32)
      (fun rank => (run.report rank).finalKvCacheBytes)
      (fun rank => positionBytes { launch.spec.config with
        numHiddenLayers := (run.report rank).assignment.layerCount } d .f32)
      (fun rank => (run.report rank).memory.kvCacheCapacityBytes) := by
  obtain ⟨promptTokens, hplanned⟩ := planned_of_manifest hmanifest
  have hspec := hplanned.spec
  have hpartition : PipelinePartition.balanced manifest.spec (n + 1) = .ok manifest.partition := by
    rw [hspec]
    exact hplanned.balanced
  have hconfig : (onRanks found codec resources manifest).config = launch.spec.config :=
    congrArg ModelSpec.config hspec
  have hheads : (onRanks found codec resources manifest).config.Heads d := hconfig ▸ hd
  obtain ⟨tokenizer, tokens, reason, haccord⟩ := ranks_accord hlib hcodec hpartition
    (fun hload => stage_caches hlib hshaped hheads hload) run.steps run.ended
  have hsame : ∀ rank, (run.outcome rank).decodeForwardCount = decodes := by
    obtain ⟨rank, hrank⟩ := hdecodes
    intro rank'
    have hrank' : (run.outcome rank).decodeForwardCount = decodes := hrank
    have htokens := haccord.decodes rank
    have htokens' := haccord.decodes rank'
    omega
  have hlimited := haccord.limited hplanned.some
  have hplan : ∀ rank, (run.report rank).assignment =
        assignmentOf (onRanks found codec resources manifest) rank ∧
      kvCacheBytes (run.report rank).assignment.layerCount manifest.contextCapacity
        launch.spec.config.numKeyValueHeads d .f32 =
        some (run.report rank).memory.kvCacheCapacityBytes := by
    intro rank
    obtain ⟨hadmitted, -, -, -, -⟩ := run.accounted rank
    obtain ⟨-, hstage, hmemory⟩ := parts_of_admitRank hadmitted
    obtain ⟨-, -, hstages⟩ := balanced_eq_ok.mp hpartition
    have hplan := of_mapM_getElem? hplanned.memory hstage hmemory
    refine ⟨?_, (StageMemoryPlan.planned_of_forStage hd hplan).cache⟩
    have hown : manifest.partition.stages[rank.val]? = some (run.outcome rank).assignment := hstage
    rw [hstages] at hown
    exact (getElem?_stages.mp hown).2
  have hbytes : ∀ rank, (run.report rank).finalKvCacheBytes =
      (manifest.promptTokenIds.length + decodes) * positionBytes { launch.spec.config with
        numHiddenLayers := (run.report rank).assignment.layerCount } d .f32 := by
    intro rank
    obtain ⟨kv, hholds, hused⟩ := haccord.cached rank
    have hdtype : manifest.dtype = .f32 := hplanned.dtype
    rw [(hplan rank).1, ← hconfig, ← hsame rank]
    refine hholds.usedBytes hheads rfl ?_
    rw [← hdtype]
    exact hused
  refine ⟨?_, fun rank => ?_⟩
  · have hlayers : ∑ rank, (run.report rank).assignment.layerCount =
        launch.spec.config.numHiddenLayers := by
      rw [← hspec, ← sum_layerCount (Nat.succ_pos n),
        ← Fin.sum_univ_eq_sum_range fun rank => (stageOf manifest.spec (n + 1) rank).layerCount]
      refine Finset.sum_congr rfl fun rank _ => ?_
      rw [(hplan rank).1]
      rfl
    rw [Finset.sum_congr rfl fun rank _ => hbytes rank, ← Finset.mul_sum]
    simp only [positionBytes, ← Finset.sum_mul, ← Finset.mul_sum, hlayers]
  · have hcapacity : (run.report rank).memory.kvCacheCapacityBytes =
        manifest.contextCapacity * positionBytes { launch.spec.config with
          numHiddenLayers := (run.report rank).assignment.layerCount } d .f32 :=
      kvCacheBytes_positions (hplan rank).2
    rw [hbytes, hcapacity]
    refine room_of_lt ?_
    have htokens := haccord.decodes rank
    have heffective : manifest.effectiveMaxNewTokens = _ := hplanned.effective
    rw [hsame] at htokens
    rw [hplanned.capacity, hplanned.promptIds, ← heffective]
    have hlimit : tokens.length ≤ manifest.effectiveMaxNewTokens := hlimited
    omega

end Pipeline

section Tensor

variable {world : Nat} {α : Type} [Add α] [Zero α] {ranks : TensorWorld world α} {d decodes : Nat}
  (hlib : ranks.lib.Documented) (hsource : ∀ path source parallel, ranks.varBuilder path = .ok source →
    WeightSource.Shaped source parallel) (run : Tensor.CompletedRun ranks)

include hlib hsource

omit hlib hsource in
/-- What holds of all outcomes of a rank holds of those of a run. -/
theorem tensor_outcome {P : RankOutcome → Prop} {rank : Rank world}
    (h : Always P (ranks.runTensorParallelRankObserved rank)) : P (run.outcome rank) :=
  Proc.Reports.returned run.steps rfl (Proc.Reports.of_always (h.run_exceptT.run_stateT .new))
    (run.ended rank) _ rfl

theorem tensor_caches (hworld : 0 < world)
    (hplanned : TensorPlanned (ranks.spec ranks.manifest.model) ranks.manifest) (hd : ranks.config.Heads d)
    (hdecodes : ∀ rank, (run.report rank).timings.decodeForwardCount = decodes) :
    Spread ((ranks.manifest.promptTokenIds.length + decodes) * positionBytes ranks.config d .f32)
      (fun rank => (run.report rank).finalKvCacheBytes)
      (fun _ => positionBytes (Runtime.KvCache.localConfig ranks.config world) d .f32)
      (fun rank => (run.report rank).memory.kvCacheCapacityBytes) := by
  obtain ⟨hcapacity, budget, headDim, hheads, hranks⟩ := hplanned
  obtain rfl := hheads.unique hd
  have hadmitted : ∀ rank : Rank world, world = ranks.manifest.tensorParallel ∧
      ranks.manifest.partition.ranks[rank.val]? = some (run.outcome rank).memory := by
    intro rank
    have hadmitted := tensor_outcome run (ranks.run_admitted rank)
    simp only [TensorWorld.admitRank, bind_eq_ok, refuse_eq_ok, okOr_eq_ok, exists_const, not_or,
      not_not] at hadmitted
    obtain ⟨-, ⟨hcount, -⟩, hmemory⟩ := hadmitted
    exact ⟨hcount, hmemory⟩
  obtain ⟨hcount, -⟩ := hadmitted ⟨0, hworld⟩
  have hlocal : ranks.localConfig = Runtime.KvCache.localConfig ranks.config world := by
    rw [TensorWorld.localConfig, ← hcount]
  rw [← hcount] at hranks
  have hplan : ∀ rank : Rank world, planTensorShard ranks.config ⟨rank.val, world, 0, 1, 0, 1⟩ =
        .ok (run.outcome rank).memory.shard ∧
      (run.outcome rank).memory.kvCacheCapacityBytes = ranks.manifest.contextCapacity *
        positionBytes (Runtime.KvCache.localConfig ranks.config world) headDim .f32 := by
    intro rank
    obtain ⟨hshard, hcache⟩ := planRank_ok
      (of_mapM_getElem? hranks (List.getElem?_range rank.isLt) (hadmitted rank).2)
    exact ⟨hshard, kvCacheBytes_positions hcache⟩
  obtain ⟨d', hsharded, -⟩ := planTensorShard_ok (hplan ⟨0, hworld⟩).1
  obtain rfl := hsharded.heads.unique hheads
  have hrank : ∀ rank, (run.report rank).finalKvCacheBytes = (ranks.manifest.promptTokenIds.length +
      decodes) * positionBytes (Runtime.KvCache.localConfig ranks.config world) d' .f32 ∧
      decodes < ranks.manifest.effectiveMaxNewTokens := by
    intro rank
    have hlocalHeads : ranks.localConfig.Heads d' := hlocal ▸ hsharded.localHeads
    obtain ⟨hlimited, hbytes⟩ := tensor_outcome run
      (TensorWorld.run_caches rank hlib hsource hlocalHeads)
    have hsteps : (run.outcome rank).decodeForwardCount = decodes := hdecodes rank
    rw [hsteps] at hlimited hbytes
    rw [← hlocal]
    exact ⟨hbytes, hlimited⟩
  refine ⟨?_, fun rank => ?_⟩
  · obtain ⟨k, hk⟩ := hsharded.keys_dvd
    have hkeys : (Runtime.KvCache.localConfig ranks.config world).numKeyValueHeads = k := by
      show ranks.config.numKeyValueHeads / world = k
      rw [hk, Nat.mul_div_cancel_left _ hworld]
    rw [Finset.sum_congr rfl fun rank _ => (hrank rank).1, Finset.sum_const, Finset.card_univ,
      Fintype.card_fin, smul_eq_mul, positionBytes, positionBytes, hkeys, hk]
    show _ * (_ * (2 * ranks.config.numHiddenLayers * k * d' * _)) = _
    ring
  · obtain ⟨hbytes, hlimited⟩ := hrank rank
    have hcapacityBytes : (run.report rank).memory.kvCacheCapacityBytes = _ := (hplan rank).2
    rw [hbytes, hcapacityBytes]
    exact room_of_lt (by omega)

end Tensor

section Topologies

variable {α : Type} [Add α] [Zero α] {found : GenerationWorld α} {request : GenerationRequest}
  {report : GenerationReport}

/-- What one process reports as the bytes of its cache, the ranks of a pipeline report together, and so
do the ranks of a tensor-parallel run, if they have as long a prompt and take as many decodes. Each rank
has room for at least one more position in what is planned for it. -/
theorem cache_bytes_conserved (hlib : found.lib.Documented)
    (hshaped : ∀ vb, found.varBuilder = .ok vb → VarBuilder.Shaped vb)
    (hsingle : found.generate request = .ok report) :
    ∃ d, request.spec.config.headDim = .ok d ∧
      report.finalKvCacheBytes + positionBytes request.spec.config d .f32 ≤
        report.memory.kvCacheCapacityBytes ∧
      (∀ (formatBytes : Nat → String) (launch : PipelineLaunchRequest) (nproc : Nat)
        (engine : DockerEngineReport) (manifest : PipelineManifest) (codec : Codec PipelineControl)
        (resources : Rank nproc → ResourceSnapshot)
        (run : Pipeline.CompletedRun (onRanks found codec resources manifest)),
        pipelineManifest formatBytes found launch nproc engine = .ok manifest → codec.Documented →
        launch.spec.config = request.spec.config →
        manifest.promptTokenIds.length = report.promptTokens →
        (∃ rank, (run.report rank).timings.decodeForwardCount = report.decodeForwardCount) →
        Spread report.finalKvCacheBytes (fun rank => (run.report rank).finalKvCacheBytes)
          (fun rank => positionBytes { request.spec.config with
            numHiddenLayers := (run.report rank).assignment.layerCount } d .f32)
          (fun rank => (run.report rank).memory.kvCacheCapacityBytes)) ∧
      ∀ (world : Nat) (ranks : TensorWorld world α) (run : Tensor.CompletedRun ranks), 0 < world →
        TensorPlanned (ranks.spec ranks.manifest.model) ranks.manifest → ranks.lib.Documented →
        (∀ path source parallel, ranks.varBuilder path = .ok source →
          WeightSource.Shaped source parallel) →
        ranks.config = request.spec.config →
        ranks.manifest.promptTokenIds.length = report.promptTokens →
        (∀ rank, (run.report rank).timings.decodeForwardCount = report.decodeForwardCount) →
        Spread report.finalKvCacheBytes (fun rank => (run.report rank).finalKvCacheBytes)
          (fun _ => positionBytes (Runtime.KvCache.localConfig request.spec.config world) d .f32)
          (fun rank => (run.report rank).memory.kvCacheCapacityBytes) := by
  obtain ⟨tokenizer, promptTokens, model, cache, first, tokens, last, hcompleted⟩ :=
    GenerationWorld.generate_completed hsingle
  obtain ⟨d, hd⟩ := hcompleted.heads
  obtain ⟨hbytes, hroom⟩ := bytes_of_completed hcompleted hlib hshaped hd
  rw [hcompleted.dtype] at hbytes hroom
  refine ⟨d, ModelConfig.headDim_eq_ok.mpr hd, hroom, ?_, ?_⟩
  · intro formatBytes launch nproc engine manifest codec resources run hmanifest hcodec hconfig hprompt
      hdecodes
    obtain ⟨promptTokenIds, hplanned⟩ := planned_of_manifest hmanifest
    obtain ⟨n, rfl⟩ : ∃ n, nproc = n + 1 := ⟨nproc - 1, by have hworld := hplanned.world; omega⟩
    rw [← hconfig] at hd hbytes ⊢
    rw [hbytes, ← hprompt]
    exact pipeline_caches hlib hshaped hcodec hmanifest hd run hdecodes
  · intro world ranks run hworld hplanned hlib' hsource hconfig hprompt hdecodes
    rw [← hconfig] at hd hbytes ⊢
    rw [hbytes, ← hprompt]
    exact tensor_caches hlib' hsource run hworld hplanned hd hdecodes

end Topologies

section TwoRanks

/-- The decisions after the prompt and after the only decode, with their texts. -/
def shardDecisions : List (TokenDecision × String) :=
  [(⟨0, 0, true, true, none⟩, "\x7b\"step\":0,\"token\":0,\"emit\":true," ++
      "\"continue_generation\":true,\"stop_reason\":null\x7d"),
    (⟨1, 0, true, false, some .maxNewTokens⟩, "\x7b\"step\":1,\"token\":0,\"emit\":true," ++
      "\"continue_generation\":false,\"stop_reason\":\"max_new_tokens\"\x7d")]

def shardCodec : Codec TokenDecision where
  toVec decision := match shardDecisions.find? (·.1 = decision) with
    | some entry => .ok entry.2.toUTF8.data.toList
    | none => .error ()
  fromSlice bytes := match shardDecisions.find? (·.2.toUTF8.data.toList = bytes) with
    | some entry => .ok entry.1
    | none => .error ()

def shardRequest : TensorLaunchRequest :=
  ⟨pairSpec, 2, .f32, "hi", 2, ⟨3000⟩, 4294967296, .centralized, "run", "request"⟩

theorem shardManifest_isSome :
    (tensorManifest toString pairFound shardRequest twoRankEngine).toOption.isSome = true := by
  decide +kernel

def shardManifest : TensorParallelManifest :=
  (tensorManifest toString pairFound shardRequest twoRankEngine).toOption.get shardManifest_isSome

/-- Two ranks that have half of the heads each and generate two tokens. -/
def shardWorld : TensorWorld 2 Nat where
  lib := zeroTracking
  argmax _ := Tensor.fromVec [0] [1]
  varBuilder _ := .ok zeroSource
  tokenizer _ := pairFound.tokenizer
  codec := shardCodec
  spec _ := pairSpec
  backend := .tcp
  barrier := Barrier.tcp
  resources _ := ⟨none, none, none, none, none⟩
  manifest := shardManifest

/-- The ranks take turns. -/
def shardLast : World (shardWorld.backend.mailbox 2 Nat) RunEventKind
    (Except TensorParallelError RankOutcome × NativeCollectives) :=
  shardWorld.start.drive (List.replicate 150 (List.finRange 2)).flatten

theorem shardLast_isSome : ∀ rank, (shardLast.proc rank).success.isSome = true := by decide +kernel

theorem shardLast_steps : ReflTransGen (Step ⊤) shardWorld.start shardLast := World.drive_steps _ _

attribute [irreducible] shardLast

def shardResult (rank : Rank 2) : RankOutcome × NativeCollectives :=
  (shardLast.proc rank).success.get (shardLast_isSome rank)

theorem shardLast_success (rank : Rank 2) :
    (shardLast.proc rank).success = some (shardResult rank) := (Option.some_get _).symm

def shardRun : Tensor.CompletedRun shardWorld where
  capacity := ⊤
  last := shardLast
  steps := shardLast_steps
  outcome rank := (shardResult rank).1
  collectives rank := (shardResult rank).2
  ended rank := Proc.success_eq_some (shardLast_success rank)
  peers _ := []
  measured _ := ⟨fun n => n, fun _ => 1⟩
  timings _ := ⟨1, 1, 0, 0, 2⟩

theorem pairFound_counts : ∃ report, pairFound.generate ⟨pairSpec, .f32, "hi", 2, none⟩ = .ok report ∧
    report.promptTokens = 1 ∧ report.decodeForwardCount = 1 := by
  obtain ⟨report, hreport⟩ := pairFound_generate
  have hcounts : (pairFound.generate ⟨pairSpec, .f32, "hi", 2, none⟩).map
      (fun report => (report.promptTokens, report.decodeForwardCount)) = .ok (1, 1) := by decide +kernel
  rw [hreport] at hcounts
  obtain ⟨hprompt, hdecodes⟩ := Prod.mk.inj (Except.ok.inj hcounts)
  exact ⟨report, hreport, hprompt, hdecodes⟩

theorem pairRun_decodes (rank : Rank 2) :
    (Pipeline.pairRun.report rank).timings.decodeForwardCount = 1 := by
  have hall : ∀ rank, (Pipeline.pairRun.report rank).timings.decodeForwardCount = 1 := by decide +kernel
  exact hall rank

theorem shardRun_decodes (rank : Rank 2) :
    (shardRun.report rank).timings.decodeForwardCount = 1 := by
  have hall : ∀ rank, (shardRun.report rank).timings.decodeForwardCount = 1 := by decide +kernel
  exact hall rank

theorem cache_bytes_conserved_pair : ∃ report,
    pairFound.generate ⟨pairSpec, .f32, "hi", 2, none⟩ = .ok report ∧
    ∑ rank, (Pipeline.pairRun.report rank).finalKvCacheBytes = report.finalKvCacheBytes ∧
    ∑ rank, (shardRun.report rank).finalKvCacheBytes = report.finalKvCacheBytes := by
  obtain ⟨report, hsingle, hprompt, hdecodes⟩ := pairFound_counts
  obtain ⟨d, -, -, hstages, hshards⟩ := cache_bytes_conserved zeroTracking_documented
    (fun vb hvb => by obtain rfl := Except.ok.inj hvb; exact zeroBuilder_shaped) hsingle
  refine ⟨report, hsingle, ?_, ?_⟩
  · have hlength : Pipeline.pairManifest.promptTokenIds.length = 1 := by decide +kernel
    exact (hstages toString pairRequest 2 twoRankEngine Pipeline.pairManifest jsonControls
      (fun _ => granted Pipeline.pairManifest) Pipeline.pairRun (ok_of_isSome Pipeline.pairManifest_isSome)
      jsonControls_documented rfl (hlength.trans hprompt.symm)
      ⟨0, (pairRun_decodes 0).trans hdecodes.symm⟩).sum
  · have hlength : shardManifest.promptTokenIds.length = 1 := by decide +kernel
    exact (hshards 2 shardWorld shardRun (by decide)
      (planned_of_tensorManifest (ok_of_isSome shardManifest_isSome)) zeroTracking_documented
      (fun path source parallel h => by
        obtain rfl := Except.ok.inj h
        exact zeroSource_shaped parallel) rfl (hlength.trans hprompt.symm)
      fun rank => (shardRun_decodes rank).trans hdecodes.symm).sum

end TwoRanks

end Dlir.Cli
