import Dlir.Cli.Equivalence
import Dlir.Pipeline.Traffic

namespace Dlir.Cli

open Dlir.Collectives Dlir.Framework Dlir.Math Dlir.Pipeline Dlir.Runtime Dlir.Runtime.Model Relation

section Traffic

variable {n : Nat} {α : Type} [Zero α] {formatBytes : Nat → String} {found : GenerationWorld α}
  {codec : Codec PipelineControl} {request : PipelineLaunchRequest} {budget : Option MemoryBudget}
  {engine : DockerEngineReport} {manifest : PipelineManifest} {report : GenerationReport}
  {resources : Rank (n + 1) → ResourceSnapshot}
  (hreliable : Reliable (onRanks found codec resources manifest))
  (hhidden : 0 < request.spec.config.hiddenSize)
  (hsingle : found.generate (request.single budget) = .ok report)
  (hmanifest : pipelineManifest formatBytes found request (n + 1) engine = .ok manifest)
  (hresources : ∀ rank, checkResources rank.val manifest (resources rank) = .ok ())

include hreliable hhidden hsingle hmanifest hresources

/-- What the ranks of a pipeline have published and returned in any state, where one process can serve
the request. -/
theorem ranks_observed (cap : ℕ∞) : ∃ tokenizer tokens, ∃ (plans : Rank (n + 1) → StageMemoryPlan) (own : Rank (n + 1) → Nat),
    found.tokenizer = .ok tokenizer ∧ tokens.length = report.decodeForwardCount + 1 ∧
    report.generatedTokens = tokens.filter (· ≠ request.spec.config.eosTokenId) ∧
    ∑ rank, own rank = report.finalKvCacheBytes ∧
    ∀ w, ReflTransGen (Step cap) (onRanks found codec resources manifest).start w → ∀ rank,
      w.log rank <+: rankEvents (onRanks found codec resources manifest) tokenizer rank tokens
        report.stopReason ∧
      ∀ result, w.proc rank = .ret result →
        result.1 = .ok (outcomeOf (onRanks found codec resources manifest) tokenizer (plans rank) (own rank)
          report.generatedTokens tokens report.stopReason report.completion rank) ∧
        w.log rank = rankEvents (onRanks found codec resources manifest) tokenizer rank tokens
          report.stopReason := by
  obtain ⟨tokenizer, promptTokens, model, cache, first, tokens, last, plans, own, hserves, hcompleted,
    hsum, htogether⟩ := ranks_of_manifest hreliable hhidden hsingle hmanifest hresources
  refine ⟨tokenizer, first :: tokens, plans, own, hcompleted.opened, ?_, ?_, hsum, fun w hrun rank => ?_⟩
  · rw [hcompleted.decodeForwardCount]
    rfl
  · exact generated_eq hcompleted.run
  · obtain ⟨hlog, hreturned⟩ := Together.observed htogether hrun rank
    refine ⟨hlog, fun result hresult => ?_⟩
    obtain ⟨rfl, hall⟩ := hreturned result hresult
    exact ⟨rfl, hall⟩

/-- In the end all ranks have returned. -/
theorem ranks_return (cap : ℕ∞) : ∃ w, ReflTransGen (Step cap)
      (onRanks found codec resources manifest).start w ∧
    ∃ (outcome : Rank (n + 1) → PipelineRankOutcome) (counts : Rank (n + 1) → CommunicationReport),
      ∀ rank, w.proc rank = .ret (.ok (outcome rank), counts rank) := by
  obtain ⟨tokenizer, promptTokens, model, cache, first, tokens, last, plans, own, -, -, -, htogether⟩ :=
    ranks_of_manifest hreliable hhidden hsingle hmanifest hresources
  exact ⟨_, (Together.settles htogether _ cap).completes _ .refl, _, _, fun _ => rfl⟩

/-- In every state of a pipeline that serves a request, each rank has published a first part of the
events that its part of the request has, and all of them where it has returned. -/
theorem pipeline_events (cap : ℕ∞) : ∃ tokenizer tokens, found.tokenizer = .ok tokenizer ∧
    tokens.length = report.decodeForwardCount + 1 ∧
    report.generatedTokens = tokens.filter (· ≠ request.spec.config.eosTokenId) ∧
    ∀ w, ReflTransGen (Step cap) (onRanks found codec resources manifest).start w → ∀ rank,
      w.log rank <+: rankEvents (onRanks found codec resources manifest) tokenizer rank tokens
        report.stopReason ∧
      ∀ result, w.proc rank = .ret result → w.log rank = rankEvents
        (onRanks found codec resources manifest) tokenizer rank tokens report.stopReason := by
  obtain ⟨tokenizer, tokens, plans, own, hopened, hlength, hgenerated, -, hobserved⟩ :=
    ranks_observed hreliable hhidden hsingle hmanifest hresources cap
  refine ⟨tokenizer, tokens, hopened, hlength, hgenerated, fun w hrun rank => ?_⟩
  obtain ⟨hlog, hreturned⟩ := hobserved w hrun rank
  refine ⟨hlog, fun result hresult => ?_⟩
  exact (hreturned result hresult).2

/-- The messages that one rank shows as sent to another one and those that the other one shows as
received from it are first parts of one sequence, and all of it where the rank has returned. -/
theorem pipeline_messages (cap : ℕ∞) : ∃ tokens, tokens.length = report.decodeForwardCount + 1 ∧
    ∀ w, ReflTransGen (Step cap) (onRanks found codec resources manifest).start w →
      ∀ source destination,
        (fromStream destination.val ((w.log source).filterMap RunEventKind.sent) <+:
            messagesBetween (onRanks found codec resources manifest) source destination tokens ∧
          ∀ result, w.proc source = .ret result →
            fromStream destination.val ((w.log source).filterMap RunEventKind.sent) =
              messagesBetween (onRanks found codec resources manifest) source destination tokens) ∧
        (fromStream source.val ((w.log destination).filterMap RunEventKind.received) <+:
            messagesBetween (onRanks found codec resources manifest) source destination tokens ∧
          ∀ result, w.proc destination = .ret result →
            fromStream source.val ((w.log destination).filterMap RunEventKind.received) =
              messagesBetween (onRanks found codec resources manifest) source destination tokens) := by
  obtain ⟨tokenizer, tokens, plans, own, -, hlength, -, -, hobserved⟩ :=
    ranks_observed hreliable hhidden hsingle hmanifest hresources cap
  refine ⟨tokens, hlength, fun w hrun source destination => ?_⟩
  have hsent := sent_between (onRanks found codec resources manifest) tokenizer source destination tokens
    report.stopReason
  have hreceived := received_between (onRanks found codec resources manifest) tokenizer source
    destination tokens report.stopReason
  obtain ⟨hlog, hreturned⟩ := hobserved w hrun source
  obtain ⟨hlog', hreturned'⟩ := hobserved w hrun destination
  refine ⟨⟨?_, fun result hresult => ?_⟩, ?_, fun result hresult => ?_⟩
  · rw [← hsent]
    exact fromStream_mono (hlog.filterMap _)
  · obtain ⟨-, hall⟩ := hreturned result hresult
    rw [hall, hsent]
  · rw [← hreceived]
    exact fromStream_mono (hlog'.filterMap _)
  · obtain ⟨-, hall⟩ := hreturned' result hresult
    rw [hall, hreceived]

/-- In every step each rank runs its own layers, one after the other, and together they are the layers
of the model. -/
theorem pipeline_layers (cap : ℕ∞) :
    (List.range (n + 1)).flatMap (layersAt (onRanks found codec resources manifest)) =
        List.range request.spec.config.numHiddenLayers ∧
      ∀ w, ReflTransGen (Step cap) (onRanks found codec resources manifest).start w → ∀ rank,
        (w.log rank).filterMap RunEventKind.mark <+:
            ((List.range (report.decodeForwardCount + 1)).flatMap fun step =>
              layerMarks step (layersAt (onRanks found codec resources manifest) rank.val)) ∧
          ∀ result, w.proc rank = .ret result → (w.log rank).filterMap RunEventKind.mark =
            (List.range (report.decodeForwardCount + 1)).flatMap fun step =>
              layerMarks step (layersAt (onRanks found codec resources manifest) rank.val) := by
  obtain ⟨promptTokens, hplanned⟩ := planned_of_manifest hmanifest
  obtain ⟨tokenizer, tokens, plans, own, -, hlength, -, -, hobserved⟩ :=
    ranks_observed hreliable hhidden hsingle hmanifest hresources cap
  constructor
  · rw [layersAt_flatMap]
    exact congrArg (fun spec : ModelSpec => List.range spec.config.numHiddenLayers) hplanned.spec
  · intro w hrun rank
    have hmarks := marks_rankEvents (onRanks found codec resources manifest) tokenizer rank tokens
      report.stopReason
    obtain ⟨hlog, hreturned⟩ := hobserved w hrun rank
    rw [← hlength, ← hmarks]
    refine ⟨hlog.filterMap _, fun result hresult => ?_⟩
    obtain ⟨-, hall⟩ := hreturned result hresult
    rw [hall]

/-- What the ranks of a pipeline report as sent and received, up to the width of their counters. -/
theorem pipeline_volumes (cap : ℕ∞) {w : World (Backend.tcp.mailbox (n + 1) α) RunEventKind
      (Except PipelineError PipelineRankOutcome × CommunicationReport)}
    (hrun : ReflTransGen (Step cap) (onRanks found codec resources manifest).start w)
    {outcome : Rank (n + 1) → PipelineRankOutcome} {counts : Rank (n + 1) → CommunicationReport}
    (hreturned : ∀ rank, w.proc rank = .ret (.ok (outcome rank), counts rank)) :
    (∀ rank, Volumes (onRanks found codec resources manifest) rank.val (report.decodeForwardCount + 1)
      (outcome rank).communication) ∧
    (∑ rank, (outcome rank).communication.controlBytesSent) % 2 ^ 64 =
      (∑ rank, (outcome rank).communication.controlBytesReceived) % 2 ^ 64 := by
  obtain ⟨promptTokens, hplanned⟩ := planned_of_manifest hmanifest
  have hworld := hplanned.world
  obtain ⟨tokenizer, tokens, plans, own, -, hlength, -, -, hobserved⟩ :=
    ranks_observed hreliable hhidden hsingle hmanifest hresources cap
  have hcounted : ∀ rank, (outcome rank).communication = (rankEvents
      (onRanks found codec resources manifest) tokenizer rank tokens
        report.stopReason).foldl CommunicationReport.record {} := by
    intro rank
    obtain ⟨hok, -⟩ := (hobserved w hrun rank).2 _ (hreturned rank)
    rw [Except.ok.inj hok]
    rfl
  constructor
  · intro rank
    rw [hcounted, ← hlength]
    exact volumes_rankEvents _ tokenizer (by omega) rank _ hlength report.stopReason
  · simp only [hcounted]
    exact controlBytes_balanced _ tokenizer tokens report.stopReason

end Traffic

section TwoRanks

/-- Two ranks that serve a request. -/
theorem pair_served : ∃ report manifest, pairFound.generate (pairRequest.single none) = .ok report ∧
    pipelineManifest toString pairFound pairRequest 2 twoRankEngine = .ok manifest ∧
    Reliable (onRanks pairFound jsonControls (fun _ : Rank 2 => granted manifest) manifest) ∧
    ∀ rank : Rank 2, checkResources rank.val manifest (granted manifest) = .ok () := by
  obtain ⟨report, hsingle⟩ : ∃ report, pairFound.generate (pairRequest.single none) = .ok report :=
    pairFound_generate
  obtain ⟨manifest, hmanifest⟩ := pairManifest_ok
  exact ⟨report, manifest, hsingle, hmanifest, pairFound_reliable _ manifest,
    fun rank => checkResources_granted rank.val manifest⟩

theorem pipeline_events_pair : ∃ report manifest,
    pairFound.generate (pairRequest.single none) = .ok report ∧
    ∃ tokenizer tokens, tokens.length = report.decodeForwardCount + 1 ∧ ∀ w,
      ReflTransGen (Step 0) (onRanks pairFound jsonControls (fun _ : Rank 2 => granted manifest)
        manifest).start w → ∀ rank, w.log rank <+: rankEvents (onRanks pairFound jsonControls
          (fun _ : Rank 2 => granted manifest) manifest) tokenizer rank tokens report.stopReason := by
  obtain ⟨report, manifest, hsingle, hmanifest, hreliable, hresources⟩ := pair_served
  obtain ⟨tokenizer, tokens, -, hlength, -, hobserved⟩ :=
    pipeline_events hreliable (by decide) hsingle hmanifest hresources 0
  exact ⟨report, manifest, hsingle, tokenizer, tokens, hlength, fun w hrun rank => (hobserved w hrun rank).1⟩

theorem pipeline_messages_pair : ∃ report manifest,
    pairFound.generate (pairRequest.single none) = .ok report ∧
    ∃ tokens, tokens.length = report.decodeForwardCount + 1 ∧ ∀ w,
      ReflTransGen (Step 0) (onRanks pairFound jsonControls (fun _ : Rank 2 => granted manifest)
        manifest).start w → ∀ source destination,
          fromStream destination.val ((w.log source).filterMap RunEventKind.sent) <+:
            messagesBetween (onRanks pairFound jsonControls (fun _ : Rank 2 => granted manifest)
              manifest) source destination tokens := by
  obtain ⟨report, manifest, hsingle, hmanifest, hreliable, hresources⟩ := pair_served
  obtain ⟨tokens, hlength, hmessages⟩ :=
    pipeline_messages hreliable (by decide) hsingle hmanifest hresources 0
  exact ⟨report, manifest, hsingle, tokens, hlength,
    fun w hrun source destination => (hmessages w hrun source destination).1.1⟩

theorem pipeline_layers_pair : ∃ report manifest,
    pairFound.generate (pairRequest.single none) = .ok report ∧
    pipelineManifest toString pairFound pairRequest 2 twoRankEngine = .ok manifest ∧
    (List.range 2).flatMap (layersAt (onRanks pairFound jsonControls (fun _ : Rank 2 => granted manifest)
      manifest)) = List.range 2 ∧ ∀ w, ReflTransGen (Step 0) (onRanks pairFound jsonControls
        (fun _ : Rank 2 => granted manifest) manifest).start w → ∀ rank,
      (w.log rank).filterMap RunEventKind.mark <+:
        (List.range (report.decodeForwardCount + 1)).flatMap fun step => layerMarks step (layersAt
          (onRanks pairFound jsonControls (fun _ : Rank 2 => granted manifest) manifest) rank.val) := by
  obtain ⟨report, manifest, hsingle, hmanifest, hreliable, hresources⟩ := pair_served
  obtain ⟨hlayers, hmarks⟩ :=
    pipeline_layers hreliable (by decide) hsingle hmanifest hresources 0
  exact ⟨report, manifest, hsingle, hmanifest, hlayers, fun w hrun rank => (hmarks w hrun rank).1⟩

theorem pipeline_volumes_pair : ∃ report manifest,
    pairFound.generate (pairRequest.single none) = .ok report ∧
    ∃ outcome : Rank 2 → PipelineRankOutcome, ∀ rank, Volumes (onRanks pairFound jsonControls
      (fun _ : Rank 2 => granted manifest) manifest) rank.val (report.decodeForwardCount + 1)
        (outcome rank).communication := by
  obtain ⟨report, manifest, hsingle, hmanifest, hreliable, hresources⟩ := pair_served
  obtain ⟨w, hrun, outcome, counts, hreturned⟩ :=
    ranks_return hreliable (by decide) hsingle hmanifest hresources ⊤
  exact ⟨report, manifest, hsingle, outcome,
    (pipeline_volumes hreliable (by decide) hsingle hmanifest hresources ⊤ hrun hreturned).1⟩

end TwoRanks

end Dlir.Cli
