import Dlir.Pipeline.Loop

namespace Dlir.Pipeline

open Dlir.Collectives Dlir.Framework Dlir.Math Dlir.Runtime Dlir.Runtime.Model PipelineRank

section Run

variable {n : Nat} {α : Type} {self : PipelineWorld (n + 1) α}
  {model : Llama (Tensor α) (RotaryEmbedding α)} {tokenizer : Tokenizer}

def barrierEvents (shown : Nat) : List RunEventKind :=
  [.collectiveStarted .barrier shown, .collectiveCompleted .barrier shown 0]

theorem observedBarrier_performs {generation : Nat} (hfits : generation + 1 < 2 ^ 64) (shown : Nat)
    (rank : Rank (n + 1)) :
    Performs (project rank (TcpTransport.barrierTrace n α generation))
      (observedBarrier rank shown generation) (barrierEvents shown) (generation + 1) := by
  unfold observedBarrier barrierEvents
  refine .published (fun _ => rfl) ?_
  intro s
  rw [← List.append_nil (project rank _)]
  exact Enacts.talked (TcpTransport.barrier_plays hfits rank) (Enacts.published (Enacts.pure _ s))

/-- What a rank publishes in a run that chooses these tokens. -/
def rankEvents (self : PipelineWorld (n + 1) α) (tokenizer : Tokenizer) (rank : Rank (n + 1))
    (tokens : List Nat) (reason : StopReason) : List RunEventKind :=
  self.memorySample rank :: .modelLoadStarted :: .modelLoadFinished :: self.memorySample rank ::
    (barrierEvents 0 ++ (runEvents self tokenizer rank 0 [] tokens ++
      .generationFinished reason :: barrierEvents 1))

/-- What is ready when the ranks of a run start. -/
structure Prepared [Zero α] (run : PipelineWorld (n + 1) α)
    (whole : Llama (Tensor α) (RotaryEmbedding α)) (text : Tokenizer) (kv : Nat → Model.KvCache α)
    (plans : Rank (n + 1) → StageMemoryPlan) : Prop where
  admitted : ∀ rank, admitRank rank.val (n + 1) run.manifest (run.resources rank) =
    .ok (assignmentOf run rank, plans rank)
  dtype : run.manifest.dtype = .f32
  load : ∀ rank, run.load (assignmentOf run rank) = .ok (partAt run whole rank.val, kv rank.val)
  opened : run.tokenizer = .ok text

/-- What a rank reports of a run that chooses these tokens. -/
def outcomeOf (self : PipelineWorld (n + 1) α) (tokenizer : Tokenizer) (memory : StageMemoryPlan)
    (finalKvCacheBytes : Nat) (generated tokens : List Nat) (reason : StopReason) (completion : String)
    (rank : Rank (n + 1)) : PipelineRankOutcome where
  assignment := assignmentOf self rank
  memory := memory
  finalKvCacheBytes := finalKvCacheBytes
  communication := (rankEvents self tokenizer rank tokens reason).foldl CommunicationReport.record {}
  decodeForwardCount := tokens.length - 1
  generatedTokens := if rank = rankZero then generated else []
  completion := if rank = rankZero then completion else ""
  stopReason := reason

/-- A whole run of a rank. -/
theorem run_enacts [Zero α] {kv kv' : Nat → Model.KvCache α} {plans : Rank (n + 1) → StageMemoryPlan}
    (hprepared : Prepared self model tokenizer kv plans) {rank : Rank (n + 1)}
    {trace : List (Rank (n + 1) × Rank (n + 1) × WireFrame α)} {tokens generated : List Nat}
    {reason : StopReason} {s : PipelineGeneration α} {completion : String} {bytes : Nat}
    (hloop : Performs (project rank trace) (self.generationLoop rank (assignmentOf self rank)
      (partAt self model rank.val) (if rank = 0 then some tokenizer else none) (2 ^ 60 + 1) 0
      ⟨kv rank.val, [], none, 0⟩) (runEvents self tokenizer rank 0 [] tokens) (s, reason))
    (hfinished : Finished rank tokens.length generated kv' s)
    (hdecode : tokenizer.decode generated = .ok completion)
    (hbytes : (kv' rank.val).usedBytes self.config self.manifest.dtype.bytes = .ok bytes) :
    Enacts (project rank (TcpTransport.barrierTrace n α 0 ++ (trace ++ TcpTransport.barrierTrace n α 1)))
      (self.runPipelineRank rank) {} (rankEvents self tokenizer rank tokens reason)
      (outcomeOf self tokenizer (plans rank) bytes generated tokens reason completion rank)
      ((rankEvents self tokenizer rank tokens reason).foldl CommunicationReport.record {}) := by
  have hdtype : self.manifest.spec.validateCpuDtype self.manifest.dtype = .ok () :=
    if_neg (not_not.mpr hprepared.dtype)
  have hopen : self.openTokenizer (assignmentOf self rank) =
      .ok (if rank = 0 then some tokenizer else none) := by
    unfold PipelineWorld.openTokenizer
    by_cases hfirst : rank = 0
    · have hval : (assignmentOf self rank).rank = 0 := congrArg Fin.val hfirst
      rw [if_pos hfirst, if_pos hval, hprepared.opened]
      rfl
    · have hval : (assignmentOf self rank).rank ≠ 0 := fun h => hfirst (Fin.ext h)
      rw [if_neg hfirst, if_neg hval]
  have hcomplete : PipelineWorld.complete (if rank = 0 then some tokenizer else none) s.generatedTokens =
      .ok (if rank = 0 then completion else "") := by
    by_cases hfirst : rank = 0
    · rw [if_pos hfirst, if_pos hfirst, hfinished.generated, if_pos hfirst]
      show (tokenizer.decode generated).mapError _ = _
      rw [hdecode]
      rfl
    · rw [if_neg hfirst, if_neg hfirst]
      rfl
  have hused : s.cache.usedBytes self.config self.manifest.dtype.bytes = .ok bytes := by
    rw [hfinished.cache]
    exact hbytes
  have hfold : (rankEvents self tokenizer rank tokens reason).foldl CommunicationReport.record {} =
      (barrierEvents 1).foldl CommunicationReport.record ((runEvents self tokenizer rank 0 [] tokens).foldl
        CommunicationReport.record ((barrierEvents 0).foldl CommunicationReport.record {})) := by
    unfold rankEvents
    rw [List.foldl_cons, List.foldl_cons, List.foldl_cons, List.foldl_cons, List.foldl_append,
      List.foldl_append, List.foldl_cons]
    rfl
  rw [outcomeOf, hfold, ← hfinished.decodes, ← hfinished.generated, project_append, project_append]
  unfold PipelineWorld.runPipelineRank rankEvents
  refine Enacts.settled (hprepared.admitted rank) (Enacts.settled hdtype ?_)
  refine Enacts.published (Enacts.published ?_)
  refine Enacts.settled (hprepared.load rank) ?_
  refine Enacts.published (Enacts.published ?_)
  refine (observedBarrier_performs (by decide) 0 rank {}).bind ?_
  refine Enacts.settled hopen ?_
  refine (hloop _).bind ?_
  refine Enacts.settled hcomplete (Enacts.published ?_)
  rw [← List.append_nil (project rank _), ← List.append_nil (barrierEvents 1)]
  refine (observedBarrier_performs (by decide) 1 rank _).bind ?_
  refine Enacts.settled hused ?_
  rw [List.append_nil]
  exact Plays.done _

end Run

end Dlir.Pipeline
