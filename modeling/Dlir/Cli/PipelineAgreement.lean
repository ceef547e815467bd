import Dlir.Cli.Pipeline
import Dlir.Cli.Traffic
import Dlir.Framework.Turns
import Dlir.Tui.Arrivals
import Mathlib.Algebra.Order.BigOperators.Group.Finset

namespace Dlir.Cli.Pipeline

open Dlir.Collectives Dlir.Framework Dlir.Pipeline Dlir.Runtime Dlir.Runtime.Model Dlir.Tui Relation

section Report

variable {n : Nat} {collected : Collected n} {reports : Fin n → PipelineRankReport}

theorem ranks_eq (h : ∀ rank, collected.ranks rank = some (reports rank)) :
    (report collected).ranks = (List.finRange n).map reports := by
  rw [← List.filterMap_eq_map]
  exact List.filterMap_congr fun rank _ => h rank

theorem communicationBytes_eq (h : ∀ rank, collected.ranks rank = some (reports rank)) :
    (report collected).communicationBytes = ∑ rank,
      ((reports rank).communication.tensorBytesSent + (reports rank).communication.controlBytesSent) := by
  show ((report collected).ranks.map fun rank =>
    rank.communication.tensorBytesSent + rank.communication.controlBytesSent).sum = _
  rw [ranks_eq h, List.map_map, Fin.sum_univ_def]
  rfl

/-- The tokens of the launcher's report are those of rank 0. -/
theorem generatedTokens_eq {reports : Fin (n + 1) → PipelineRankReport} {collected : Collected (n + 1)}
    (h : ∀ rank, collected.ranks rank = some (reports rank)) :
    (report collected).generatedTokens = (reports 0).generatedTokens := by
  show (((List.finRange (n + 1)).map collected.ranks).head?.join).elim [] (·.generatedTokens) = _
  rw [List.finRange_succ, List.map_cons, List.head?_cons, h 0]
  rfl

end Report

section Run

variable {world : Nat} {α : Type} [Zero α]

/-- A run of all ranks in which every rank has ended well, with what the ranks have measured. -/
structure CompletedRun (launch : PipelineWorld world α) where
  capacity : ℕ∞
  last : World (Backend.tcp.mailbox world α) RunEventKind
    (Except PipelineError PipelineRankOutcome × CommunicationReport)
  steps : ReflTransGen (Step capacity) launch.start last
  outcome : Rank world → PipelineRankOutcome
  communication : Rank world → CommunicationReport
  ended : ∀ rank, last.proc rank = .ret (.ok (outcome rank), communication rank)
  peers : Rank world → List PeerInfo
  measured : Rank world → Measured
  timings : Rank world → PipelineRankTimings
  communicationNs : Rank world → Nat

namespace CompletedRun

variable {launch : PipelineWorld world α} (run : CompletedRun launch)

/-- The report that a rank returns. -/
def report (rank : Rank world) : PipelineRankReport :=
  launch.rankReport rank (run.peers rank) (run.measured rank) (run.timings rank)
    (run.communicationNs rank) (run.last.log rank) (run.outcome rank)

/-- The launcher has the report of every rank. -/
def Reported (collected : Collected world) : Prop :=
  ∀ rank, collected.ranks rank = some (run.report rank)

/-- The events of all ranks, in an order that keeps the order of each rank. -/
def Arrives (arrived : List PipelineEvent) : Prop :=
  Interleaves (streams fun rank => launch.recorder rank (run.measured rank) (run.last.log rank))
    (arrived.map byRank)

theorem accounted (rank : Rank world) :
    launch.Accounted rank (run.last.log rank) (run.outcome rank) :=
  Proc.Reports.returned run.steps rfl (launch.run_accounted rank) (run.ended rank) _ rfl

/-- What the clock does not change is the same in the report of a rank. -/
theorem filterMap_events {β : Type} {f : RunEventKind → Option β}
    (hf : ∀ durationNs kind, f (kind.lasting durationNs) = f kind) (rank : Rank world) :
    ((run.report rank).events.map (·.event.event)).filterMap f = (run.last.log rank).filterMap f := by
  have hevents : (run.report rank).events.map (fun event => f event.event.event) =
      (run.last.log rank).map f := EventRecorder.map_after _ _ _ _ _ hf
  have hall := congrArg (List.filterMap id) hevents
  rw [List.filterMap_map, List.filterMap_map] at hall
  rw [List.filterMap_map]
  exact hall

/-- A rank reports as sent and received what its events show. -/
theorem report_counts (rank : Rank world) : (run.report rank).communication.Counts
    (((run.report rank).events.map (·.event.event)).filterMap RunEventKind.sent)
    (((run.report rank).events.map (·.event.event)).filterMap RunEventKind.received) := by
  rw [run.filterMap_events (fun _ kind => by cases kind <;> rfl),
    run.filterMap_events (fun _ kind => by cases kind <;> rfl)]
  obtain ⟨-, hcommunication, -, -, -⟩ := run.accounted rank
  have hcounts := CommunicationReport.counts_events (run.last.log rank)
  rw [← hcommunication] at hcounts
  -- The time that the rank adds is none of the counters.
  obtain ⟨h1, h2, h3, h4, h5, h6, h7, h8⟩ := hcounts
  exact ⟨h1, h2, h3, h4, h5, h6, h7, h8⟩

/-- As long as they fit, the counters of a rank hold the bytes that its events show as sent. -/
theorem sentBytes_report {rank : Rank world} (h : Tensor.sentBytes (run.last.log rank) < 2 ^ 64) :
    (run.report rank).communication.tensorBytesSent +
      (run.report rank).communication.controlBytesSent = Tensor.sentBytes (run.last.log rank) := by
  have hcounts := run.report_counts rank
  rw [run.filterMap_events (fun _ kind => by cases kind <;> rfl)] at hcounts
  obtain ⟨-, -, hsent, -, -⟩ := run.accounted rank
  rw [ShownMessage.total_add] at hsent
  have htensor := (Nat.le_add_right _ _).trans_eq hsent.symm
  have hcontrol := (Nat.le_add_left _ _).trans_eq hsent.symm
  rw [hcounts.tensorBytesSent, hcounts.controlBytesSent, hsent, Nat.mod_eq_of_lt (htensor.trans_lt h),
    Nat.mod_eq_of_lt (hcontrol.trans_lt h)]

include run in
/-- There are a stage and a plan for every rank. -/
theorem planned : world ≤ launch.manifest.partition.stages.length ∧
    world ≤ launch.manifest.memoryPlans.length := by
  have hparts : ∀ rank : Rank world, world = launch.manifest.partition.stages.length ∧
      rank.val < launch.manifest.memoryPlans.length := by
    intro rank
    obtain ⟨hadmitted, -, -, -, -⟩ := run.accounted rank
    obtain ⟨hworld, -, hplan⟩ := parts_of_admitRank hadmitted
    exact ⟨hworld, (List.getElem?_eq_some_iff.mp hplan).1⟩
  cases world with
  | zero => exact ⟨Nat.zero_le _, Nat.zero_le _⟩
  | succ n => exact ⟨(hparts (Fin.last n)).1.le, (hparts (Fin.last n)).2⟩

theorem tokens_log {spec : ModelSpec} {nproc : Nat}
    (hpartition : PipelinePartition.balanced spec nproc = .ok launch.manifest.partition)
    (rank : Rank world) : Tensor.tokens (run.last.log rank) =
      if rank.val = 0 then (run.outcome rank).generatedTokens.length else 0 := by
  obtain ⟨hadmitted, -, -, htokens, hroot⟩ := run.accounted rank
  rw [htokens]
  split_ifs with hzero
  · rfl
  · obtain ⟨-, -, hstages⟩ := balanced_eq_ok.mp hpartition
    obtain ⟨-, hstage, -⟩ := parts_of_admitRank hadmitted
    rw [hstages] at hstage
    obtain ⟨-, hassignment⟩ := getElem?_stages.mp hstage
    rw [hroot (by rw [hassignment]; exact hzero)]
    rfl

variable {run} {collected : Collected world} {arrived : List PipelineEvent}

/-- All tokens that are shown are those of the launcher's report. -/
theorem sum_tokens {spec : ModelSpec} {nproc : Nat}
    (hpartition : PipelinePartition.balanced spec nproc = .ok launch.manifest.partition)
    (hreported : run.Reported collected) : ∑ rank, Tensor.tokens (run.last.log rank) =
      (Pipeline.report collected).generatedTokens.length := by
  rw [Finset.sum_congr rfl fun rank _ => run.tokens_log hpartition rank]
  cases world with
  | zero => rfl
  | succ n =>
    rw [generatedTokens_eq hreported, Fin.sum_univ_succ]
    simp [report, PipelineWorld.rankReport]

/-- All bytes that are shown are those of the launcher's report, as long as they fit. -/
theorem sum_sentBytes (hreported : run.Reported collected)
    (hfits : ∑ rank, Tensor.sentBytes (run.last.log rank) < 2 ^ 64) :
    (Pipeline.report collected).communicationBytes = ∑ rank, Tensor.sentBytes (run.last.log rank) := by
  rw [communicationBytes_eq hreported]
  refine Finset.sum_congr rfl fun rank _ => run.sentBytes_report ?_
  exact (Finset.single_le_sum (fun _ _ => Nat.zero_le _) (Finset.mem_univ rank)).trans_lt hfits

/-- The dashboard of a run shows the tokens and the bytes of the launcher's report. -/
theorem dashboard_totals {spec : ModelSpec} {nproc : Nat}
    (hpartition : PipelinePartition.balanced spec nproc = .ok launch.manifest.partition)
    (hreported : run.Reported collected) (harrived : run.Arrives arrived)
    (hfits : ∑ rank, Tensor.sentBytes (run.last.log rank) < 2 ^ 64) (model : String) :
    ((DashboardState.new model launch.manifest.partition.stages launch.manifest.memoryPlans).applyAll
        arrived).generatedTokens = (Pipeline.report collected).generatedTokens.length ∧
    ((DashboardState.new model launch.manifest.partition.stages launch.manifest.memoryPlans).applyAll
        arrived).communicationBytes = (Pipeline.report collected).communicationBytes := by
  have hknown : world ≤ (DashboardState.new model launch.manifest.partition.stages
      launch.manifest.memoryPlans).ranks.length := by
    show world ≤ (List.map _ _).length
    rw [List.length_map, List.length_zip]
    exact Nat.le_min.mpr run.planned
  have hsum : (arrived.map fun event => event.event.event.sentBytes).sum =
      ∑ rank, Tensor.sentBytes (run.last.log rank) :=
    sum_arrived harrived fun _ kind => by cases kind <;> rfl
  obtain ⟨hbytes, htokens⟩ :=
    DashboardState.applyAll_arrived _ rfl rfl hknown harrived (by rw [hsum]; exact hfits)
  constructor
  · rw [htokens, sum_tokens hpartition hreported]
  · rw [hbytes, sum_sentBytes hreported hfits]

end CompletedRun

/-- Each rank of a run of all ranks reports the messages that its events show, and the dashboard of
the run shows the tokens and the bytes of the launcher's report. -/
theorem dashboard_agrees (launch : PipelineWorld world α) {spec : ModelSpec} {nproc : Nat}
    (hpartition : PipelinePartition.balanced spec nproc = .ok launch.manifest.partition)
    (run : CompletedRun launch) (collected : Collected world) (hreported : run.Reported collected)
    (arrived : List PipelineEvent) (harrived : run.Arrives arrived)
    (hfits : (arrived.map fun event => event.event.event.sentBytes).sum < 2 ^ 64) (model : String) :
    (∀ rank, (run.report rank).communication.Counts
      (((run.report rank).events.map (·.event.event)).filterMap RunEventKind.sent)
      (((run.report rank).events.map (·.event.event)).filterMap RunEventKind.received)) ∧
    ((DashboardState.new model launch.manifest.partition.stages launch.manifest.memoryPlans).applyAll
        arrived).generatedTokens = (report collected).generatedTokens.length ∧
    ((DashboardState.new model launch.manifest.partition.stages launch.manifest.memoryPlans).applyAll
        arrived).communicationBytes = (report collected).communicationBytes := by
  have hsum : (arrived.map fun event => event.event.event.sentBytes).sum =
      ∑ rank, Tensor.sentBytes (run.last.log rank) :=
    sum_arrived harrived fun _ kind => by cases kind <;> rfl
  exact ⟨run.report_counts,
    CompletedRun.dashboard_totals hpartition hreported harrived (by rw [← hsum]; exact hfits) model⟩

end Run

section TwoRanks

theorem pairManifest_isSome :
    (pipelineManifest toString pairFound pairRequest 2 twoRankEngine).toOption.isSome = true := by
  decide +kernel

def pairManifest : PipelineManifest :=
  (pipelineManifest toString pairFound pairRequest 2 twoRankEngine).toOption.get pairManifest_isSome

theorem pairManifest_balanced :
    PipelinePartition.balanced pairSpec 2 = .ok pairManifest.partition := by decide +kernel

/-- Two ranks that generate two tokens. -/
def pairWorld : PipelineWorld 2 Nat :=
  onRanks pairFound jsonControls (fun _ => granted pairManifest) pairManifest

/-- The ranks take turns. -/
def pairLast : World (Backend.tcp.mailbox 2 Nat) RunEventKind
    (Except PipelineError PipelineRankOutcome × CommunicationReport) :=
  pairWorld.start.drive (List.replicate 80 (List.finRange 2)).flatten

theorem pairLast_steps : ReflTransGen (Step ⊤) pairWorld.start pairLast := World.drive_steps _ _

attribute [irreducible] pairLast

theorem pairLast_isSome : ∀ rank, (pairLast.proc rank).success.isSome = true := by decide +kernel

def pairResult (rank : Rank 2) : PipelineRankOutcome × CommunicationReport :=
  (pairLast.proc rank).success.get (pairLast_isSome rank)

theorem pairLast_success (rank : Rank 2) :
    (pairLast.proc rank).success = some (pairResult rank) := (Option.some_get _).symm

def pairRun : CompletedRun pairWorld where
  capacity := ⊤
  last := pairLast
  steps := pairLast_steps
  outcome rank := (pairResult rank).1
  communication rank := (pairResult rank).2
  ended rank := Proc.success_eq_some (pairLast_success rank)
  peers _ := []
  measured _ := ⟨fun n => n, fun _ => 1⟩
  timings _ := ⟨1, 1, 0, 0, 1, none, 2⟩
  communicationNs _ := 3

/-- The events of rank 0 come first. -/
def pairArrived : List PipelineEvent := (List.finRange 2).flatMap fun rank =>
  (pairWorld.recorder rank (pairRun.measured rank) (pairLast.log rank)).published

def pairCollected : Collected 2 where
  ranks rank := some (pairRun.report rank)
  events := pairArrived.zipIdx.map fun entry => ⟨entry.2, entry.1⟩
  exitCodes _ := some 0
  failures := []

theorem pairArrived_arrives : pairRun.Arrives pairArrived :=
  interleaves_streams pairManifest.runId pairManifest.requestId pairRun.measured pairLast.log

theorem pairCollected_reported : pairRun.Reported pairCollected := fun _ => rfl

theorem pairLast_sentBytes : ∀ rank, Tensor.sentBytes (pairLast.log rank) =
    if rank.val = 0 then 176 else 76 := by decide +kernel

theorem pairArrived_sentBytes :
    (pairArrived.map fun event => event.event.event.sentBytes).sum = 252 := by
  have hsum := sum_arrived pairArrived_arrives (f := RunEventKind.sentBytes)
    fun _ kind => by cases kind <;> rfl
  exact hsum.trans ((Finset.sum_congr rfl fun rank _ => pairLast_sentBytes rank).trans rfl)

theorem dashboard_agrees_pair :
    (∀ rank, (pairRun.report rank).communication.Counts
      (((pairRun.report rank).events.map (·.event.event)).filterMap RunEventKind.sent)
      (((pairRun.report rank).events.map (·.event.event)).filterMap RunEventKind.received)) ∧
    ((DashboardState.new "smollm2-135m-instruct" pairManifest.partition.stages
        pairManifest.memoryPlans).applyAll pairArrived).generatedTokens =
      (report pairCollected).generatedTokens.length ∧
    ((DashboardState.new "smollm2-135m-instruct" pairManifest.partition.stages
        pairManifest.memoryPlans).applyAll pairArrived).communicationBytes =
      (report pairCollected).communicationBytes :=
  dashboard_agrees pairWorld pairManifest_balanced pairRun pairCollected pairCollected_reported
    pairArrived pairArrived_arrives (by rw [pairArrived_sentBytes]; decide) "smollm2-135m-instruct"

end TwoRanks

end Dlir.Cli.Pipeline
