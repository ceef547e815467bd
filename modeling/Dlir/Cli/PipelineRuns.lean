import Dlir.Cli.PipelineAgreement
import Dlir.Pipeline.Accord

namespace Dlir.Pipeline

open Dlir.Collectives Dlir.Framework Dlir.Math Dlir.Runtime Dlir.Runtime.Model PipelineRank

section Durations

variable {n : Nat} {α : Type} (self : PipelineWorld (n + 1) α) (tokenizer : Tokenizer)

/-- No time has passed in what a rank publishes here. -/
theorem lasting_layerEvents (step : Nat) (layers : List Nat) :
    (layerEvents step layers).map (RunEventKind.lasting 0) = layerEvents step layers := by
  induction layers with
  | nil => rfl
  | cons layer layers ih => exact congrArg (_ :: _ :: ·) ih

theorem lasting_stepEvents (rank : Rank (n + 1)) (step token : Nat) (generated : List Nat) :
    (stepEvents self tokenizer rank step generated token).map (RunEventKind.lasting 0) =
      stepEvents self tokenizer rank step generated token := by
  have hinput : (inputEvents self rank.val step).map (RunEventKind.lasting 0) =
      inputEvents self rank.val step := by
    unfold inputEvents
    split_ifs
    · rfl
    · rfl
  have houtput : (outputEvents self rank.val step token).map (RunEventKind.lasting 0) =
      outputEvents self rank.val step token := by
    unfold outputEvents
    split_ifs
    · rfl
    · rfl
  have htoken : (tokenEvents self.config tokenizer generated token).map (RunEventKind.lasting 0) =
      tokenEvents self.config tokenizer generated token := by
    unfold tokenEvents
    split_ifs
    · rfl
    · rfl
  have hdecision : (decisionEvents self rank.val step token tokenizer generated).map
      (RunEventKind.lasting 0) = decisionEvents self rank.val step token tokenizer generated := by
    unfold decisionEvents
    split_ifs
    · rw [List.map_cons, List.map_append, htoken, List.map_map]
      rfl
    · rfl
  unfold stepEvents
  simp only [List.map_cons, List.map_append, hinput, houtput, hdecision, lasting_layerEvents]
  split_ifs
  · rfl
  · rfl

theorem lasting_runEvents (rank : Rank (n + 1)) (step : Nat) (generated tokens : List Nat) :
    (runEvents self tokenizer rank step generated tokens).map (RunEventKind.lasting 0) =
      runEvents self tokenizer rank step generated tokens := by
  induction tokens generalizing step generated with
  | nil => rfl
  | cons token tokens ih => rw [runEvents, List.map_append, lasting_stepEvents, ih]

theorem lasting_rankEvents (rank : Rank (n + 1)) (tokens : List Nat) (reason : StopReason) :
    (rankEvents self tokenizer rank tokens reason).map (RunEventKind.lasting 0) =
      rankEvents self tokenizer rank tokens reason := by
  unfold rankEvents
  simp only [List.map_cons, List.map_append, lasting_runEvents]
  rfl

end Durations

end Dlir.Pipeline

namespace Dlir.Cli.Pipeline

open Dlir.Collectives Dlir.Framework Dlir.Pipeline Dlir.Runtime Dlir.Runtime.Model Dlir.Tui

namespace CompletedRun

variable {world : Nat} {α : Type} [Zero α] {launch : PipelineWorld world α} (run : CompletedRun launch)

/-- The events of a report, without how long they took. -/
def kinds (rank : Rank world) : List RunEventKind :=
  (run.report rank).events.map fun event => event.event.event.lasting 0

theorem counted_report (rank : Rank world) : Counted rank.val (run.report rank).events := by
  obtain ⟨hconsistent, hrank⟩ := EventRecorder.after_consistent rank.val launch.manifest.runId
    launch.manifest.requestId (run.measured rank) (run.last.log rank)
  have hcounted := hconsistent.counted
  rw [hrank] at hcounted
  exact hcounted

theorem kinds_eq (rank : Rank world) :
    run.kinds rank = (run.last.log rank).map (RunEventKind.lasting 0) :=
  EventRecorder.map_after _ _ _ _ _ fun _ kind => by cases kind <;> rfl

theorem sentBytes_kinds (rank : Rank world) :
    Tensor.sentBytes (run.kinds rank) = Tensor.sentBytes (run.last.log rank) := by
  rw [kinds_eq, Tensor.sentBytes, List.map_map]
  exact congrArg List.sum (List.map_congr_left fun kind _ => by cases kind <;> rfl)

/-- One of the counters that the ranks report, over all ranks. -/
def communicated (counter : CommunicationReport → Nat) : Nat :=
  ∑ rank, counter (run.report rank).communication

/-- Counters of which even the sum fits hold what they count. -/
theorem communicated_eq {counter : CommunicationReport → Nat} {total : Rank world → Nat}
    (hcounts : ∀ rank, counter (run.report rank).communication = total rank % 2 ^ 64)
    (hfits : ∑ rank, total rank < 2 ^ 64) : run.communicated counter = ∑ rank, total rank := by
  refine Finset.sum_congr rfl fun rank _ => ?_
  rw [hcounts, Nat.mod_eq_of_lt]
  exact (Finset.single_le_sum (fun _ _ => Nat.zero_le _) (Finset.mem_univ rank)).trans_lt hfits

end CompletedRun

/-- What the ranks of a pipeline report together as sent and received, when each has run this many
decode steps. -/
structure Conserved {n : Nat} {α : Type} [Zero α] {launch : PipelineWorld (n + 1) α}
    (run : CompletedRun launch) (steps : Nat) : Prop where
  tensorBytesSent : run.communicated (·.tensorBytesSent) =
    4 * launch.config.hiddenSize * n * (launch.manifest.promptTokenIds.length + steps)
  tensorBytesReceived : run.communicated (·.tensorBytesReceived) =
    4 * launch.config.hiddenSize * n * (launch.manifest.promptTokenIds.length + steps)
  tensorMessagesSent : run.communicated (·.tensorMessagesSent) = (steps + 1) * n
  tensorMessagesReceived : run.communicated (·.tensorMessagesReceived) = (steps + 1) * n
  controlMessagesSent : run.communicated (·.controlMessagesSent) = (steps + 1) * (n + 1)
  controlMessagesReceived : run.communicated (·.controlMessagesReceived) = (steps + 1) * (n + 1)
  controlBytes : run.communicated (·.controlBytesSent) = run.communicated (·.controlBytesReceived)

section Runs

variable {n : Nat} {α : Type} [Zero α] (launch : PipelineWorld (n + 1) α)
  (hlib : launch.lib.Documented) (hcodec : launch.codec.Documented)
  (hpartition : PipelinePartition.balanced launch.manifest.spec (n + 1) = .ok launch.manifest.partition)
  (run : CompletedRun launch)

include hlib hcodec hpartition run

theorem completed_accord : ∃ tokenizer tokens reason, Accord launch (fun _ _ _ => True) run.last.log
    run.outcome tokenizer tokens reason :=
  ranks_accord hlib hcodec hpartition (fun _ => ⟨trivial, fun _ _ => trivial⟩) run.steps run.ended

/-- The reports of a run in which all ranks succeed. The events of each rank are numbered from zero on
and are those of its part in the steps of the run, every layer is run once in each step, and what a
rank shows as sent to another one is what the other one shows as received from it. -/
theorem pipeline_grammar : ∃ tokenizer tokens reason, launch.tokenizer = .ok tokenizer ∧
    (∀ rank, (run.report rank).assignment = assignmentOf launch rank ∧
      (run.report rank).timings.decodeForwardCount + 1 = tokens.length ∧
      (run.report rank).stopReason = reason ∧
      Counted rank.val (run.report rank).events ∧
      run.kinds rank = rankEvents launch tokenizer rank tokens reason) ∧
    (∀ step layer, step < tokens.length → layer < launch.config.numHiddenLayers →
      ∀ mark, mark = .started step layer ∨ mark = .completed step layer →
        ((List.finRange (n + 1)).flatMap fun rank =>
          (run.kinds rank).filterMap RunEventKind.mark).count mark = 1) ∧
    ∀ source destination : Rank (n + 1),
      fromStream destination.val ((run.kinds source).filterMap RunEventKind.sent) =
        fromStream source.val ((run.kinds destination).filterMap RunEventKind.received) := by
  obtain ⟨tokenizer, tokens, reason, haccord⟩ := completed_accord launch hlib hcodec hpartition run
  have hkinds : ∀ rank, run.kinds rank = rankEvents launch tokenizer rank tokens reason := by
    intro rank
    rw [run.kinds_eq, haccord.events, lasting_rankEvents]
  refine ⟨tokenizer, tokens, reason, haccord.opened, fun rank => ?_, ?_, ?_⟩
  · refine ⟨?_, haccord.decodes rank, haccord.stops rank, run.counted_report rank, hkinds rank⟩
    obtain ⟨hadmitted, -, -, -, -⟩ := run.accounted rank
    obtain ⟨-, hstage, -⟩ := parts_of_admitRank hadmitted
    obtain ⟨-, -, hstages⟩ := balanced_eq_ok.mp hpartition
    rw [hstages] at hstage
    exact (getElem?_stages.mp hstage).2
  · intro step layer hstep hlayer mark hmark
    simp only [hkinds]
    exact layer_once launch tokenizer hstep hlayer reason hmark
  · intro source destination
    rw [hkinds, hkinds, sent_between, received_between]

omit hlib in
theorem completed_conserved {tokenizer : Tokenizer} {tokens : List Nat} {reason : StopReason} {steps : Nat}
    (haccord : Accord launch (fun _ _ _ => True) run.last.log run.outcome tokenizer tokens reason)
    (hsteps : tokens.length = steps + 1)
    (hfits : ∑ rank, Tensor.sentBytes (run.last.log rank) < 2 ^ 64) : Conserved run steps := by
  have hn : 0 < n := by
    obtain ⟨⟨hworld, -⟩, -⟩ := balanced_eq_ok.mp hpartition
    omega
  have hcounts : ∀ rank, (run.report rank).communication.Counts
      ((rankEvents launch tokenizer rank tokens reason).filterMap RunEventKind.sent)
      ((rankEvents launch tokenizer rank tokens reason).filterMap RunEventKind.received) := by
    intro rank
    have hreport := run.report_counts rank
    rw [run.filterMap_events (fun _ kind => by cases kind <;> rfl),
      run.filterMap_events (fun _ kind => by cases kind <;> rfl), haccord.events] at hreport
    exact hreport
  obtain ⟨htensors, htensorBytes, hcontrols⟩ :=
    sum_sent launch tokenizer hn steps hsteps reason
  have hbalanced := fun size => total_balanced launch tokenizer size tokens reason
  -- All bytes together fit, and so do those of one kind.
  have hbytes : ∑ rank, ShownMessage.total (·.tensorBytes)
        ((rankEvents launch tokenizer rank tokens reason).filterMap RunEventKind.sent) +
      ∑ rank, ShownMessage.total (·.controlBytes)
        ((rankEvents launch tokenizer rank tokens reason).filterMap RunEventKind.sent) < 2 ^ 64 := by
    rw [← Finset.sum_add_distrib]
    refine (Finset.sum_congr rfl fun rank _ => ?_).trans_lt hfits
    obtain ⟨-, -, hsent, -, -⟩ := run.accounted rank
    rw [hsent, haccord.events, ShownMessage.total_add]
  have htensorFits := (Nat.le_add_right _ _).trans_lt hbytes
  have hcontrolFits := (Nat.le_add_left _ _).trans_lt hbytes
  -- There are no more messages than control bytes.
  have hmessages : (n + 1) * (steps + 1) < 2 ^ 64 := by
    rw [← hcontrols]
    refine (Finset.sum_le_sum fun rank _ => controls_le launch tokenizer reason ?_).trans_lt hcontrolFits
    intro k token htoken
    obtain ⟨hchosen, hspread⟩ := haccord.written k token htoken
    exact ⟨List.length_pos_iff.mpr (hcodec.ne_nil hchosen), List.length_pos_iff.mpr (hcodec.ne_nil hspread)⟩
  have htensorMessages : n * (steps + 1) < 2 ^ 64 :=
    (Nat.mul_le_mul_right _ (Nat.le_succ n)).trans_lt hmessages
  have hfactors : n * ((launch.manifest.promptTokenIds.length + steps) *
      (launch.config.hiddenSize * 4)) = 4 * launch.config.hiddenSize * n *
        (launch.manifest.promptTokenIds.length + steps) := by ring
  constructor
  · rw [run.communicated_eq (fun rank => (hcounts rank).tensorBytesSent) htensorFits, htensorBytes,
      hfactors]
  · rw [run.communicated_eq (fun rank => (hcounts rank).tensorBytesReceived)
      (by rw [← hbalanced]; exact htensorFits), ← hbalanced, htensorBytes, hfactors]
  · rw [run.communicated_eq (fun rank => (hcounts rank).tensorMessagesSent)
      (by rw [htensors]; exact htensorMessages), htensors, Nat.mul_comm]
  · rw [run.communicated_eq (fun rank => (hcounts rank).tensorMessagesReceived)
      (by rw [← hbalanced, htensors]; exact htensorMessages), ← hbalanced, htensors, Nat.mul_comm]
  · rw [run.communicated_eq (fun rank => (hcounts rank).controlMessagesSent)
      (by rw [hcontrols]; exact hmessages), hcontrols, Nat.mul_comm]
  · rw [run.communicated_eq (fun rank => (hcounts rank).controlMessagesReceived)
      (by rw [← hbalanced, hcontrols]; exact hmessages), ← hbalanced, hcontrols, Nat.mul_comm]
  · rw [run.communicated_eq (fun rank => (hcounts rank).controlBytesSent) hcontrolFits,
      run.communicated_eq (fun rank => (hcounts rank).controlBytesReceived)
        (by rw [← hbalanced]; exact hcontrolFits), hbalanced]

/-- In a run in which all ranks succeed, all that is sent is received, in these amounts, and the
dashboard shows the bytes and the tokens of the launcher's report, whatever the order in which it gets
the events of different ranks. -/
theorem pipeline_conserves (hfits : ∑ rank, Tensor.sentBytes (run.kinds rank) < 2 ^ 64) :
    ∃ steps, (∀ rank, (run.report rank).timings.decodeForwardCount = steps) ∧ Conserved run steps ∧
      ∀ collected, run.Reported collected → ∀ arrived, run.Arrives arrived → ∀ model,
        let dashboard := (DashboardState.new model launch.manifest.partition.stages
          launch.manifest.memoryPlans).applyAll arrived
        dashboard.communicationBytes = (report collected).communicationBytes ∧
          dashboard.generatedTokens = (run.report 0).generatedTokens.length := by
  obtain ⟨tokenizer, tokens, reason, haccord⟩ := completed_accord launch hlib hcodec hpartition run
  rw [Finset.sum_congr rfl fun rank _ => run.sentBytes_kinds rank] at hfits
  have hdecodes : ∀ rank, (run.outcome rank).decodeForwardCount = (run.outcome 0).decodeForwardCount :=
    fun rank => Nat.succ.inj ((haccord.decodes rank).trans (haccord.decodes 0).symm)
  refine ⟨(run.outcome 0).decodeForwardCount, hdecodes, ?_, ?_⟩
  · exact completed_conserved launch hcodec hpartition run haccord (haccord.decodes 0).symm hfits
  · intro collected hreported arrived harrived model
    obtain ⟨htokens, hbytes⟩ := CompletedRun.dashboard_totals hpartition hreported harrived hfits model
    refine ⟨hbytes, htokens.trans ?_⟩
    rw [generatedTokens_eq hreported]

end Runs

section TwoRanks

theorem pairWorld_reliable : Reliable pairWorld := pairFound_reliable _ pairManifest

theorem pairWorld_balanced :
    PipelinePartition.balanced pairWorld.manifest.spec 2 = .ok pairWorld.manifest.partition := by
  decide +kernel

theorem pipeline_grammar_pair : ∃ tokenizer tokens reason, pairWorld.tokenizer = .ok tokenizer ∧
    (∀ rank, (pairRun.report rank).assignment = assignmentOf pairWorld rank ∧
      (pairRun.report rank).timings.decodeForwardCount + 1 = tokens.length ∧
      (pairRun.report rank).stopReason = reason ∧
      Counted rank.val (pairRun.report rank).events ∧
      pairRun.kinds rank = rankEvents pairWorld tokenizer rank tokens reason) ∧
    (∀ step layer, step < tokens.length → layer < pairWorld.config.numHiddenLayers →
      ∀ mark, mark = .started step layer ∨ mark = .completed step layer →
        ((List.finRange 2).flatMap fun rank =>
          (pairRun.kinds rank).filterMap RunEventKind.mark).count mark = 1) ∧
    ∀ source destination : Rank 2,
      fromStream destination.val ((pairRun.kinds source).filterMap RunEventKind.sent) =
        fromStream source.val ((pairRun.kinds destination).filterMap RunEventKind.received) :=
  pipeline_grammar pairWorld pairWorld_reliable.lib pairWorld_reliable.codec pairWorld_balanced pairRun

theorem pairRun_fits : ∑ rank, Tensor.sentBytes (pairRun.kinds rank) < 2 ^ 64 := by
  rw [Finset.sum_congr rfl fun rank _ =>
    (pairRun.sentBytes_kinds rank).trans (pairLast_sentBytes rank)]
  decide

theorem pipeline_conserves_pair :
    ∃ steps, (∀ rank, (pairRun.report rank).timings.decodeForwardCount = steps) ∧
      Conserved pairRun steps ∧
      let dashboard := (DashboardState.new "smollm2-135m-instruct" pairManifest.partition.stages
        pairManifest.memoryPlans).applyAll pairArrived
      dashboard.communicationBytes = (report pairCollected).communicationBytes ∧
        dashboard.generatedTokens = (pairRun.report 0).generatedTokens.length := by
  obtain ⟨steps, hsteps, hconserved, hdashboard⟩ := pipeline_conserves pairWorld
    pairWorld_reliable.lib pairWorld_reliable.codec pairWorld_balanced pairRun pairRun_fits
  exact ⟨steps, hsteps, hconserved, hdashboard pairCollected pairCollected_reported pairArrived
    pairArrived_arrives "smollm2-135m-instruct"⟩

end TwoRanks

end Dlir.Cli.Pipeline
