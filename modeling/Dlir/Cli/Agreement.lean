import Dlir.Cli.Tensor
import Dlir.Framework.Turns
import Dlir.Runtime.Model.Failures
import Dlir.Tui.Arrivals

namespace Dlir.Cli.Tensor

open Dlir.Collectives Dlir.Framework Dlir.Pipeline Dlir.Runtime Dlir.Runtime.Model Dlir.Tensor
  Dlir.Tui Relation

section Report

variable {n : Nat} {collected : Collected n} {reports : Fin n → TensorParallelRankReport}

/-- The reports in the launcher's report are those of the ranks. -/
theorem ranks_perm (h : ∀ rank, collected.ranks rank = some (reports rank)) :
    (report collected).ranks.Perm ((List.finRange n).map reports) := by
  have hall : (List.finRange n).filterMap collected.ranks = (List.finRange n).map reports := by
    rw [← List.filterMap_eq_map]
    exact List.filterMap_congr fun rank _ => h rank
  rw [← hall]
  exact List.mergeSort_perm _ _

theorem communicationBytes_eq (h : ∀ rank, collected.ranks rank = some (reports rank)) :
    (report collected).communicationBytes = ∑ rank, (reports rank).sentBytes := by
  show ((report collected).ranks.map (·.sentBytes)).sum = _
  rw [((ranks_perm h).map (·.sentBytes)).sum_eq, List.map_map, Fin.sum_univ_def]
  rfl

/-- The tokens of the launcher's report are those of rank 0. -/
theorem generatedTokens_eq (h : ∀ rank, collected.ranks rank = some (reports rank))
    (hrank : ∀ rank, (reports rank).rank = rank.val) (root : Fin n) (hroot : root.val = 0) :
    (report collected).generatedTokens = (reports root).generatedTokens := by
  have hmem : ∀ r, r ∈ (report collected).ranks ↔ ∃ rank, reports rank = r := by
    intro r
    rw [(ranks_perm h).mem_iff, List.mem_map]
    simp
  show (((report collected).ranks.find? fun rank => rank.rank == 0).elim [] (·.generatedTokens)) = _
  cases hfind : (report collected).ranks.find? fun rank => rank.rank == 0 with
  | none =>
    have hnone := List.find?_eq_none.mp hfind (reports root) ((hmem _).mpr ⟨root, rfl⟩)
    rw [hrank, hroot] at hnone
    exact absurd rfl hnone
  | some r =>
    obtain ⟨rank, rfl⟩ := (hmem r).mp (List.mem_of_find?_eq_some hfind)
    have hzero := List.find?_some hfind
    rw [hrank, beq_iff_eq, ← hroot] at hzero
    rw [Fin.ext hzero]
    rfl

end Report

section Run

variable {world : Nat} {α : Type} [Add α] [Zero α]

/-- A run of all ranks in which every rank has ended well, with what the ranks have measured. -/
structure CompletedRun (launch : TensorWorld world α) where
  capacity : ℕ∞
  last : World (launch.backend.mailbox world α) RunEventKind
    (Except TensorParallelError RankOutcome × NativeCollectives)
  steps : ReflTransGen (Step capacity) launch.start last
  outcome : Rank world → RankOutcome
  collectives : Rank world → NativeCollectives
  ended : ∀ rank, last.proc rank = .ret (.ok (outcome rank), collectives rank)
  peers : Rank world → List PeerInfo
  measured : Rank world → Measured
  timings : Rank world → TensorParallelRankTimings

namespace CompletedRun

variable {launch : TensorWorld world α} (run : CompletedRun launch)

/-- The report that a rank returns. -/
def report (rank : Rank world) : TensorParallelRankReport :=
  launch.rankReport rank (run.peers rank) (run.measured rank) (run.timings rank) (run.last.log rank)
    (run.outcome rank)

/-- The launcher has the report of every rank. -/
def Reported (collected : Collected world) : Prop :=
  ∀ rank, collected.ranks rank = some (run.report rank)

/-- The events of all ranks, in an order that keeps the order of each rank. -/
def Arrives (arrived : List PipelineEvent) : Prop :=
  Interleaves (streams fun rank => launch.emitter rank (run.measured rank) (run.last.log rank))
    (arrived.map byRank)

theorem accounted (hcodec : launch.codec.Documented) (rank : Rank world) :
    launch.Accounted rank (run.last.log rank) (run.outcome rank) :=
  Proc.Reports.returned run.steps rfl (launch.run_achieves rank hcodec) (run.ended rank) _ rfl

variable {run} {collected : Collected world} {arrived : List PipelineEvent}

/-- The bytes of all events are those of the launcher's report and those of the decisions. -/
theorem exists_decided (hcodec : launch.codec.Documented) (hreported : run.Reported collected) :
    ∃ decided, ∑ rank, Tensor.sentBytes (run.last.log rank) =
      (Tensor.report collected).communicationBytes + decided ∧ (decided = 0 ↔ world ≤ 1) := by
  have hsent : ∀ rank, ∃ decided, Tensor.sentBytes (run.last.log rank) =
      (run.outcome rank).sentBytes + decided ∧ Decisions rank decided := by
    intro rank
    obtain ⟨-, -, hsent, -⟩ := run.accounted hcodec rank
    exact hsent
  choose decided hsent hdecided using hsent
  refine ⟨∑ rank, decided rank, ?_, ?_⟩
  · rw [communicationBytes_eq hreported, ← Finset.sum_add_distrib]
    exact Finset.sum_congr rfl fun rank _ => hsent rank
  · rw [Finset.sum_eq_zero_iff]
    constructor
    · intro hzero
      by_contra hworld
      have hroot : 0 < decided ⟨0, by omega⟩ := (hdecided ⟨0, by omega⟩).some rfl (by omega)
      have hnone := hzero ⟨0, by omega⟩ (Finset.mem_univ _)
      omega
    · intro hworld rank _
      exact (hdecided rank).none (Or.inr hworld)

theorem sum_tokens (hcodec : launch.codec.Documented) (hreported : run.Reported collected) :
    ∑ rank, Tensor.tokens (run.last.log rank) =
      (Tensor.report collected).generatedTokens.length := by
  have htokens : ∀ rank : Rank world, Tensor.tokens (run.last.log rank) =
      if rank.val = 0 then (run.outcome rank).generatedTokens.length else 0 := by
    intro rank
    obtain ⟨-, -, -, htokens⟩ := run.accounted hcodec rank
    exact htokens
  rw [Finset.sum_congr rfl fun rank _ => htokens rank]
  by_cases hworld : 0 < world
  · have hroot : ∀ rank : Rank world, rank.val = 0 ↔ rank = ⟨0, hworld⟩ :=
      fun rank => ⟨fun h => Fin.ext h, fun h => by rw [h]⟩
    simp only [hroot, Finset.sum_ite_eq', Finset.mem_univ, if_true]
    rw [generatedTokens_eq hreported (fun _ => rfl) ⟨0, hworld⟩ rfl]
    rfl
  · obtain rfl : world = 0 := by omega
    have hnone : (Tensor.report collected).ranks = [] := (ranks_perm hreported).eq_nil
    show _ = (((Tensor.report collected).ranks.find? fun rank => rank.rank == 0).elim []
      (·.generatedTokens)).length
    rw [hnone]
    rfl

/-- The totals of the dashboard are those of the ranks, as long as they fit. -/
theorem dashboard_totals (hcodec : launch.codec.Documented) (harrived : run.Arrives arrived)
    (hfits : (arrived.map fun event => event.event.event.sentBytes).sum < 2 ^ 64)
    (model allReduce : String) :
    ((DashboardState.newTensor model launch.manifest.partition.ranks allReduce).applyAll
        arrived).communicationBytes = ∑ rank, Tensor.sentBytes (run.last.log rank) ∧
      ((DashboardState.newTensor model launch.manifest.partition.ranks allReduce).applyAll
        arrived).generatedTokens = ∑ rank, Tensor.tokens (run.last.log rank) := by
  have hknown : world ≤
      (DashboardState.newTensor model launch.manifest.partition.ranks allReduce).ranks.length := by
    show world ≤ (launch.manifest.partition.ranks.map _).length
    rw [List.length_map]
    by_contra hfew
    obtain ⟨-, hplanned, -, -⟩ := run.accounted hcodec
      ⟨launch.manifest.partition.ranks.length, by omega⟩
    exact Nat.lt_irrefl _ hplanned
  exact DashboardState.applyAll_arrived _ rfl rfl hknown harrived hfits

end CompletedRun

/-- The dashboard of a run of all ranks shows the tokens of the launcher's report. It shows the
bytes of the report only if there is no other rank to send decisions to. -/
theorem dashboard_agrees_iff (launch : TensorWorld world α) (hcodec : launch.codec.Documented)
    (run : CompletedRun launch) (collected : Collected world) (hreported : run.Reported collected)
    (arrived : List PipelineEvent) (harrived : run.Arrives arrived)
    (hfits : (arrived.map fun event => event.event.event.sentBytes).sum < 2 ^ 64)
    (model allReduce : String) :
    ((DashboardState.newTensor model launch.manifest.partition.ranks allReduce).applyAll
        arrived).generatedTokens = (report collected).generatedTokens.length ∧
    (((DashboardState.newTensor model launch.manifest.partition.ranks allReduce).applyAll
        arrived).communicationBytes = (report collected).communicationBytes ↔ world ≤ 1) := by
  obtain ⟨hbytes, htokens⟩ := CompletedRun.dashboard_totals hcodec harrived hfits model allReduce
  obtain ⟨decided, hsum, hdecided⟩ := CompletedRun.exists_decided hcodec hreported
  constructor
  · rw [htokens, CompletedRun.sum_tokens hcodec hreported]
  · rw [hbytes, hsum, ← hdecided]
    omega

end Run

section TwoRanks

/-- The only decision of the run, and its text. -/
def onlyDecision : TokenDecision := ⟨0, 0, true, false, some .maxNewTokens⟩

def onlyDecisionText : String := "\x7b\"step\":0,\"token\":0,\"emit\":true," ++
  "\"continue_generation\":false,\"stop_reason\":\"max_new_tokens\"\x7d"

def onlyDecisionBytes : List UInt8 := onlyDecisionText.toUTF8.data.toList

def onlyDecisionCodec : Codec TokenDecision where
  toVec decision := if decision = onlyDecision then .ok onlyDecisionBytes else .error ()
  fromSlice bytes := if bytes = onlyDecisionBytes then .ok onlyDecision else .error ()

theorem onlyDecisionCodec_documented : onlyDecisionCodec.Documented where
  ne_nil h := by
    simp only [onlyDecisionCodec] at h
    split_ifs at h
    obtain rfl := Except.ok.inj h
    decide +kernel
  round_trip h := by
    simp only [onlyDecisionCodec] at h ⊢
    split_ifs at h with hdecision
    obtain rfl := Except.ok.inj h
    rw [if_pos rfl, hdecision]

/-- A small model of two ranks, with another end-of-sequence token than the first. The registry has
larger ones only, and they diverge in the same way: `dashboard_agrees_iff` is about any spec. -/
def smallSpec : ModelSpec := ⟨.smolLm2_135MInstruct, 116, .bf16, { smallConfig with eosTokenId := 1 }⟩

def smallPlan : TensorParallelPartition :=
  ((TensorParallelPartition.planSpec smallSpec 2 1 none).toOption).getD
    ⟨.smolLm2_135MInstruct, 2, [], 0, 0, 0⟩

/-- Two ranks that generate one token. All weights are zero, so the first token is the best one. -/
def smallWorld : TensorWorld 2 Nat where
  lib := zeroWeights
  argmax _ := Tensor.fromVec [0] [1]
  varBuilder _ := .ok zeroSource
  tokenizer _ := .ok ⟨fun _ => .ok "", fun _ _ => .ok none⟩
  codec := onlyDecisionCodec
  spec _ := smallSpec
  backend := .tcp
  barrier := Barrier.tcp
  resources _ := ⟨none, none, none, none, none⟩
  manifest := {
    schemaVersion := 1
    runId := "run"
    requestId := "request"
    model := .smolLm2_135MInstruct
    dtype := .f32
    tensorParallel := 2
    allReduce := .centralized
    promptTokenIds := [0]
    requestedMaxNewTokens := 1
    effectiveMaxNewTokens := 1
    contextCapacity := 1
    checkpointPath := "model.safetensors"
    tokenizerPath := "tokenizer.json"
    partition := smallPlan }

/-- The ranks take turns. -/
def smallLast : World (smallWorld.backend.mailbox 2 Nat) RunEventKind
    (Except TensorParallelError RankOutcome × NativeCollectives) :=
  smallWorld.start.drive (List.replicate 60 (List.finRange 2)).flatten

theorem smallLast_steps : ReflTransGen (Step ⊤) smallWorld.start smallLast := World.drive_steps _ _

attribute [irreducible] smallLast

theorem smallLast_isSome : ∀ rank, (smallLast.proc rank).success.isSome = true := by decide +kernel

def smallResult (rank : Rank 2) : RankOutcome × NativeCollectives :=
  (smallLast.proc rank).success.get (smallLast_isSome rank)

theorem smallLast_success (rank : Rank 2) :
    (smallLast.proc rank).success = some (smallResult rank) := (Option.some_get _).symm

def smallRun : CompletedRun smallWorld where
  capacity := ⊤
  last := smallLast
  steps := smallLast_steps
  outcome rank := (smallResult rank).1
  collectives rank := (smallResult rank).2
  ended rank := Proc.success_eq_some (smallLast_success rank)
  peers _ := []
  measured _ := ⟨fun n => n, fun _ => 1⟩
  timings _ := ⟨1, 1, 0, 0, 2⟩

/-- The events of rank 0 come first. -/
def smallArrived : List PipelineEvent := (List.finRange 2).flatMap fun rank =>
  (smallWorld.emitter rank (smallRun.measured rank) (smallLast.log rank)).published

def smallCollected : Collected 2 where
  ranks rank := some (smallRun.report rank)
  events := smallArrived.zipIdx.map fun entry => ⟨entry.2, entry.1⟩
  exitCodes _ := some 0
  failures := []

theorem smallArrived_arrives : smallRun.Arrives smallArrived :=
  interleaves_streams smallWorld.manifest.runId smallWorld.manifest.requestId smallRun.measured
    smallLast.log

theorem smallCollected_reported : smallRun.Reported smallCollected := fun _ => rfl

theorem smallLast_sentBytes : ∀ rank, Tensor.sentBytes (smallLast.log rank) =
    if rank.val = 0 then 147 else 52 := by decide +kernel

theorem smallResult_sentBytes : ∀ rank, (smallResult rank).1.sentBytes =
    if rank.val = 0 then 56 else 52 := by decide +kernel

theorem smallLast_total : ∑ rank, Tensor.sentBytes (smallLast.log rank) = 199 :=
  (Finset.sum_congr rfl fun rank _ => smallLast_sentBytes rank).trans rfl

theorem smallArrived_sentBytes :
    (smallArrived.map fun event => event.event.event.sentBytes).sum = 199 :=
  (sum_arrived smallArrived_arrives fun _ kind => by cases kind <;> rfl).trans smallLast_total

/-- The dashboard shows the 91 bytes of the decision, too. -/
theorem dashboard_counts_decisions :
    smallRun.Reported smallCollected ∧ smallRun.Arrives smallArrived ∧
    ((DashboardState.newTensor "smollm2-135m-instruct" smallPlan.ranks "centralized").applyAll
      smallArrived).communicationBytes = 199 ∧
    (report smallCollected).communicationBytes = 108 := by
  refine ⟨smallCollected_reported, smallArrived_arrives, ?_, ?_⟩
  · have htotals := CompletedRun.dashboard_totals onlyDecisionCodec_documented smallArrived_arrives
      (by rw [smallArrived_sentBytes]; decide) "smollm2-135m-instruct" "centralized"
    exact htotals.1.trans smallLast_total
  · rw [communicationBytes_eq smallCollected_reported]
    exact (Finset.sum_congr rfl fun rank _ => smallResult_sentBytes rank).trans rfl

theorem dashboard_agrees_iff_two_ranks :
    ((DashboardState.newTensor "smollm2-135m-instruct" smallPlan.ranks "centralized").applyAll
      smallArrived).generatedTokens = (report smallCollected).generatedTokens.length ∧
    (((DashboardState.newTensor "smollm2-135m-instruct" smallPlan.ranks "centralized").applyAll
      smallArrived).communicationBytes = (report smallCollected).communicationBytes ↔ 2 ≤ 1) :=
  dashboard_agrees_iff smallWorld onlyDecisionCodec_documented smallRun smallCollected
    smallCollected_reported smallArrived smallArrived_arrives
    (by rw [smallArrived_sentBytes]; decide) "smollm2-135m-instruct" "centralized"

end TwoRanks

end Dlir.Cli.Tensor
