import Dlir.Runtime.Model.Conduct
import Dlir.Tensor.Runner

namespace Dlir.Runtime.RunEventKind

/-- The bytes of an event that reports something as sent. -/
def sentBytes : RunEventKind → Nat
  | .tensorSent _ _ _ _ _ bytes _ => bytes
  | .controlSent _ _ _ _ bytes _ => bytes
  | .tensorCollectiveCompleted _ _ sentBytes _ _ => sentBytes
  | _ => 0

/-- The tokens that an event reports. -/
def tokens : RunEventKind → Nat
  | .tokenGenerated _ _ => 1
  | _ => 0

end Dlir.Runtime.RunEventKind

namespace Dlir.Tensor

open Dlir.Collectives Dlir.Framework Dlir.Pipeline Dlir.Runtime Dlir.Runtime.Model

variable {world : Nat} {α : Type}

/-- What the traces of a rank show as sent. -/
def tracedBytes (s : NativeCollectives) : Nat := (s.traces.map (·.sentBytes)).sum

def sentBytes (os : List RunEventKind) : Nat := (os.map RunEventKind.sentBytes).sum

def tokens (os : List RunEventKind) : Nat := (os.map RunEventKind.tokens).sum

@[simp]
theorem sentBytes_append (os os' : List RunEventKind) :
    sentBytes (os ++ os') = sentBytes os + sentBytes os' := by simp [sentBytes]

@[simp]
theorem tokens_append (os os' : List RunEventKind) :
    tokens (os ++ os') = tokens os + tokens os' := by simp [tokens]

/-- The events of collectives show their traces and no token. -/
def Traced (s : NativeCollectives) (os : List RunEventKind) (s' : NativeCollectives) : Prop :=
  Tallied RunEventKind.sentBytes (·.sentBytes) s os s' ∧
    Tallied RunEventKind.tokens (fun _ => 0) s os s'

theorem traced_composable : Composable Traced where
  refl _ := ⟨rfl, rfl⟩
  trans h h' := ⟨(tallied_composable _ _).trans h.1 h'.1, (tallied_composable _ _).trans h.2 h'.2⟩

theorem Traced.sum {s s' : NativeCollectives} {os : List RunEventKind} (h : Traced s os s') :
    tracedBytes s' = tracedBytes s + sentBytes os ∧ tokens os = 0 := by
  obtain ⟨hsent, htokens⟩ := h
  refine ⟨hsent, ?_⟩
  simpa [Tallied, tokens] using htokens.symm

theorem communicator_traced [Add α] (endpoint : Endpoint world RunEventKind)
    (hobserver : endpoint.observer = collectiveEvent) :
    (communicator endpoint : CollectiveCommunicator _ α).Keeps Traced := by
  have hsent : Shows endpoint.observer RunEventKind.sentBytes (·.sentBytes) := by
    rw [hobserver]
    exact ⟨fun _ => rfl, fun _ => rfl⟩
  have htokens : Shows endpoint.observer RunEventKind.tokens fun _ => 0 := by
    rw [hobserver]
    exact ⟨fun _ => rfl, fun _ => rfl⟩
  constructor
  · intro t algorithm s
    exact (endpoint.allReduce_keeps hsent t algorithm s).and
      (endpoint.allReduce_keeps htokens t algorithm s)
  · intro t axis s
    exact (endpoint.allGather_keeps hsent t axis s).and (endpoint.allGather_keeps htokens t axis s)

theorem layerObserver_traced (phase : ExecutionPhase) (step : Nat) :
    (layerObserver phase step : LayerObserver
      (StateT NativeCollectives (Proc (Rank world) (WireFrame α) RunEventKind))).Keeps Traced :=
  ⟨fun _ _ => ⟨rfl, rfl⟩, fun _ _ => ⟨rfl, rfl⟩⟩

/-- The part of a count that belongs to rank 0. -/
def ofRoot (rank : Rank world) (n : Nat) : Nat := if rank.globalRank = 0 then n else 0

/-- The bytes of decisions: rank 0 sends some to the other ranks. -/
structure Decisions (rank : Rank world) (bytes : Nat) : Prop where
  none : rank.globalRank ≠ 0 ∨ world ≤ 1 → bytes = 0
  some : rank.globalRank = 0 → 1 < world → 0 < bytes

namespace TensorWorld

variable (self : TensorWorld world α) (rank : Rank world)

section Decide

theorem sendDecision_achieves (step : Nat) (bytes : List UInt8) (peer : Nat)
    (s : NativeCollectives) :
    Achieves (sendDecision rank step bytes peer : RankCode world α Unit) s fun os _ s' =>
      os = [.controlSent peer .tensorDecision (phaseOf step) step bytes.length 0] ∧ s' = s := by
  unfold sendDecision
  refine Achieves.bind (Q := fun os _ s' => os = [] ∧ s' = s)
    (Achieves.settleWith fun _ _ => ⟨rfl, rfl⟩) fun os packet s' h => ?_
  obtain ⟨rfl, rfl⟩ := h
  refine Achieves.bind (Q := fun os _ s'' => os = [] ∧ s'' = s')
    (Achieves.converse (sendControl_silent rank peer _ packet) fun _ _ => ⟨rfl, rfl⟩)
    fun os _ s'' h => ?_
  obtain ⟨rfl, rfl⟩ := h
  exact Achieves.publish ⟨rfl, rfl⟩

theorem sum_decisions (peers : List Nat) (step : Nat) (phase : ExecutionPhase) (bytes : Nat) :
    sentBytes (peers.map fun peer => .controlSent peer .tensorDecision phase step bytes 0) =
        peers.length * bytes ∧
      tokens (peers.map fun peer => .controlSent peer .tensorDecision phase step bytes 0) = 0 := by
  induction peers with
  | nil => simp [sentBytes, tokens]
  | cons peer peers ih =>
    simp only [sentBytes, tokens, List.map_cons, List.sum_cons, List.length_cons] at ih ⊢
    rw [ih.1, ih.2, Nat.add_mul]
    simp [RunEventKind.sentBytes, RunEventKind.tokens, Nat.add_comm]

theorem shareDecision_achieves (hcodec : self.codec.Documented)
    (hworld : self.manifest.tensorParallel = world) (step : Nat) (logits : Tensor α)
    (s : NativeCollectives) :
    Achieves (self.shareDecision rank step logits) s fun os _ s' =>
      Decisions rank (sentBytes os) ∧ tokens os = 0 ∧ s' = s := by
  unfold shareDecision
  split_ifs with hrank
  · refine Achieves.bind (Q := fun os _ s' => os = [] ∧ s' = s)
      (Achieves.settleWith fun _ _ => ⟨rfl, rfl⟩) fun os decision s' h => ?_
    obtain ⟨rfl, rfl⟩ := h
    refine Achieves.bind (Q := fun os bytes s'' => os = [] ∧ bytes ≠ [] ∧ s'' = s')
      (Achieves.settleWith fun _ h => ⟨rfl, hcodec.ne_nil h, rfl⟩) fun os bytes s'' h => ?_
    obtain ⟨rfl, hbytes, rfl⟩ := h
    refine Achieves.bind (Achieves.forM (sendDecision_achieves rank step bytes · s'') _)
      fun os _ s' h => ?_
    obtain ⟨rfl, rfl⟩ := h
    refine Achieves.pure ?_
    obtain ⟨hsum, htokens⟩ := sum_decisions (List.range' 1 (world - 1)) step (phaseOf step)
      bytes.length
    have hpos := List.length_pos_iff.mpr hbytes
    rw [List.length_range'] at hsum
    rw [hworld, List.append_nil, List.nil_append, List.nil_append, hsum, htokens]
    refine ⟨⟨fun h => ?_, fun _ hlt => ?_⟩, rfl, rfl⟩
    · rw [show world - 1 = 0 by omega, Nat.zero_mul]
    · exact Nat.mul_pos (by omega) hpos
  · refine Achieves.bind (Q := fun os _ s' => os = [] ∧ s' = s)
      (Achieves.converse (recvControl_silent _ _ _ _) fun _ _ => ⟨rfl, rfl⟩) fun os packet s' h => ?_
    obtain ⟨rfl, rfl⟩ := h
    refine Achieves.bind (Achieves.publish (Q := fun os _ s'' => sentBytes os = 0 ∧ tokens os = 0 ∧
      s'' = s') ⟨rfl, rfl, rfl⟩) fun os _ s'' h => ?_
    obtain ⟨hsum, htokens, rfl⟩ := h
    refine Achieves.settleWith fun decision _ => ?_
    simp only [List.nil_append, List.append_nil, hsum, htokens]
    exact ⟨⟨fun _ => rfl, fun h => absurd h hrank⟩, trivial, trivial⟩

end Decide

section Steps

variable [Add α] (model : TensorParallelLlama (Tensor α) (RotaryEmbedding α))

theorem forward_achieves (step : Nat) (g : Generation α) (s : NativeCollectives) :
    Achieves (self.forward rank model step g) s fun os _ s' => Traced s os s' := by
  have hkeeps := forwardObserved_keeps traced_composable self.lib
    (communicator_traced (self.endpoint rank) rfl) (layerObserver_traced (phaseOf step) step) model
    g.input g.position g.cache
  refine Achieves.of_keeps (Keeps.bind traced_composable hkeeps fun r => ?_) fun _ _ _ h => h
  exact Keeps.pure traced_composable _

/-- What some part of a run does to the books of a rank: the events show the traces, the decisions
and the tokens of rank 0. -/
structure Books (s : NativeCollectives) (before : List Nat) (os : List RunEventKind)
    (s' : NativeCollectives) (after : List Nat) (decided : Nat) : Prop where
  sent : tracedBytes s + sentBytes os = tracedBytes s' + decided
  tokens : ofRoot rank before.length + tokens os = ofRoot rank after.length

variable {rank}

theorem Books.trans {s s' s'' : NativeCollectives} {before between after : List Nat}
    {os os' : List RunEventKind} {decided decided' : Nat} (h : Books rank s before os s' between decided)
    (h' : Books rank s' between os' s'' after decided') :
    Books rank s before (os ++ os') s'' after (decided + decided') where
  sent := by
    have := h.sent
    have := h'.sent
    rw [sentBytes_append]
    omega
  tokens := by
    have := h.tokens
    have := h'.tokens
    rw [tokens_append]
    omega

variable (rank) (hcodec : self.codec.Documented) (hworld : self.manifest.tensorParallel = world)

include hcodec hworld

theorem generationStep_achieves (step : Nat) (g : Generation α) (s : NativeCollectives) :
    Achieves (self.generationStep rank model step g) s fun os r s' => ∃ decided,
      Books rank s g.generatedTokens os s' r.1.generatedTokens decided ∧ Decisions rank decided := by
  unfold generationStep
  refine Achieves.bind (Q := fun os _ s' => sentBytes os = 0 ∧ tokens os = 0 ∧ s' = s)
    (Achieves.publish ?_) fun os₁ _ s₁ h₁ => ?_
  · split_ifs <;> exact ⟨rfl, rfl, rfl⟩
  obtain ⟨hsent₁, htokens₁, rfl⟩ := h₁
  refine Achieves.bind (self.forward_achieves rank model step g s₁) fun os₂ r s₂ h₂ => ?_
  obtain ⟨logits, cache⟩ := r
  obtain ⟨hsent₂, htokens₂⟩ := h₂.sum
  refine Achieves.bind (self.shareDecision_achieves rank hcodec hworld step logits s₂)
    fun os₃ decision s₃ h₃ => ?_
  obtain ⟨hdecisions, htokens₃, rfl⟩ := h₃
  refine Achieves.bind (Q := fun os _ s' => os = [] ∧ s' = s₃)
    (Achieves.settleWith fun _ _ => ⟨rfl, rfl⟩) fun os₄ _ s₄ h₄ => ?_
  obtain ⟨rfl, rfl⟩ := h₄
  refine Achieves.bind (Q := fun os _ s' => sentBytes os = 0 ∧
    tokens os = ofRoot rank (if decision.emit then 1 else 0) ∧ s' = s₄)
    (Achieves.publishWhen ?_) fun os₅ _ s₅ h₅ => ?_
  · cases decision.emit <;> by_cases hroot : rank.globalRank = 0 <;>
      simp [hroot, ofRoot, sentBytes, tokens, RunEventKind.sentBytes, RunEventKind.tokens]
  obtain ⟨hsent₅, htokens₅, rfl⟩ := h₅
  refine Achieves.bind (Q := fun os _ s' => sentBytes os = 0 ∧ tokens os = 0 ∧ s' = s₅)
    (Achieves.publish ?_) fun os₆ _ s₆ h₆ => ?_
  · split_ifs <;> exact ⟨rfl, rfl, rfl⟩
  obtain ⟨hsent₆, htokens₆, rfl⟩ := h₆
  have hbooks : Books rank s₁ g.generatedTokens (os₁ ++ (os₂ ++ (os₃ ++ ([] ++ (os₅ ++ os₆))))) s₆
      (if decision.emit then g.generatedTokens ++ [decision.token] else g.generatedTokens)
      (sentBytes os₃) := by
    constructor
    · simp only [sentBytes_append, List.nil_append, hsent₁, hsent₅, hsent₆, hsent₂]
      omega
    · simp only [tokens_append, List.nil_append, htokens₁, htokens₂, htokens₃, htokens₅, htokens₆]
      cases decision.emit <;> by_cases hroot : rank.globalRank = 0 <;> simp [ofRoot, hroot]
  dsimp only
  by_cases hgo : decision.continueGeneration = true
  · rw [if_pos hgo]
    refine Achieves.bind (Q := fun os g' s' => os = [] ∧ g'.generatedTokens =
      (if decision.emit then g.generatedTokens ++ [decision.token] else g.generatedTokens) ∧ s' = s₆)
      (Achieves.settleWith fun g' hg' => ⟨rfl, ?_, rfl⟩) fun os₇ g' s₇ h₇ => ?_
    · simp only [advance, bind_eq_ok, pure_eq_ok] at hg'
      obtain ⟨length, -, input, -, rfl⟩ := hg'
      rfl
    · obtain ⟨rfl, hgenerated, rfl⟩ := h₇
      refine Achieves.pure ⟨_, ?_, hdecisions⟩
      rw [hgenerated]
      simpa using hbooks
  · rw [if_neg hgo]
    refine Achieves.bind (Q := fun os _ s' => os = [] ∧ s' = s₆)
      (Achieves.settleWith fun _ _ => ⟨rfl, rfl⟩) fun os₇ reason s₇ h₇ => ?_
    obtain ⟨rfl, rfl⟩ := h₇
    exact Achieves.pure ⟨_, by simpa using hbooks, hdecisions⟩

theorem generationLoop_achieves (remaining step : Nat) (g : Generation α) (s : NativeCollectives) :
    Achieves (self.generationLoop rank model remaining step g) s fun os r s' =>
      ∀ reason, r.2 = some reason → ∃ decided,
        Books rank s g.generatedTokens os s' r.1.generatedTokens decided ∧ Decisions rank decided := by
  induction remaining generalizing step g s with
  | zero => exact Achieves.pure fun reason hreason => by cases hreason
  | succ remaining ih =>
    unfold generationLoop
    refine Achieves.bind (self.generationStep_achieves rank model hcodec hworld step g s)
      fun os r s' hstep => ?_
    obtain ⟨g', stop⟩ := r
    obtain ⟨decided, hbooks, hdecided⟩ := hstep
    cases stop with
    | some reason =>
      refine Achieves.pure fun _ _ => ⟨decided, ?_, hdecided⟩
      rw [List.append_nil]
      exact hbooks
    | none =>
      refine (ih (step + 1) g' s').imp fun os' r' s'' hloop reason hreason => ?_
      obtain ⟨decided', hbooks', hdecided'⟩ := hloop reason hreason
      refine ⟨decided + decided', hbooks.trans hbooks', ?_, ?_⟩
      · intro h
        rw [hdecided.none h, hdecided'.none h]
      · intro hroot hlt
        have := hdecided.some hroot hlt
        omega

end Steps

theorem observedBarrier_achieves (shown generation : Nat) (s : NativeCollectives) :
    Achieves (self.observedBarrier rank shown generation) s fun os _ s' =>
      sentBytes os = 0 ∧ tokens os = 0 ∧ s' = s := by
  unfold observedBarrier
  refine Achieves.bind (Q := fun os _ s' => os = [.collectiveStarted .barrier shown] ∧ s' = s)
    (Achieves.publish ⟨rfl, rfl⟩) fun os _ s' h => ?_
  obtain ⟨rfl, rfl⟩ := h
  refine Achieves.bind (Q := fun os _ s'' => os = [] ∧ s'' = s')
    (Achieves.converse ((self.barrier rank).silent generation) fun _ _ => ⟨rfl, rfl⟩)
    fun os next s'' h => ?_
  obtain ⟨rfl, rfl⟩ := h
  refine Achieves.bind (Q := fun os _ s' => os = [.collectiveCompleted .barrier shown 0] ∧ s' = s'')
    (Achieves.publish ⟨rfl, rfl⟩) fun os _ s' h => ?_
  obtain ⟨rfl, rfl⟩ := h
  exact Achieves.pure ⟨rfl, rfl, rfl⟩

section Run

variable [Add α] [Zero α]

/-- What the events of a rank that succeeds show of what it reports. -/
structure Accounted (os : List RunEventKind) (outcome : RankOutcome) : Prop where
  world_eq : self.manifest.tensorParallel = world
  planned : rank.globalRank < self.manifest.partition.ranks.length
  sent : ∃ decided, sentBytes os = outcome.sentBytes + decided ∧ Decisions rank decided
  tokens : tokens os = ofRoot rank outcome.generatedTokens.length

/-- Every run of a rank that ends well is accounted for by its events. -/
theorem run_achieves (hcodec : self.codec.Documented) :
    Achieves (self.runTensorParallelRankObserved rank) .new fun os outcome _ =>
      self.Accounted rank os outcome := by
  unfold runTensorParallelRankObserved
  refine Achieves.bind (Q := fun os _ s => os = [] ∧ self.manifest.tensorParallel = world ∧
    rank.globalRank < self.manifest.partition.ranks.length ∧ s = .new)
    (Achieves.settleWith fun memory hmemory => ?_) fun os memory s h => ?_
  · simp only [admitRank, bind_eq_ok, refuse_eq_ok, okOr_eq_ok, exists_const, not_or, not_not]
      at hmemory
    obtain ⟨-, ⟨hworld, -⟩, hplan⟩ := hmemory
    exact ⟨rfl, hworld.symm, (List.getElem?_eq_some_iff.mp hplan).1, rfl⟩
  obtain ⟨rfl, hworld, hplanned, rfl⟩ := h
  refine Achieves.bind (Q := fun os _ s => sentBytes os = 0 ∧ tokens os = 0 ∧ s = .new)
    (Achieves.publish ⟨rfl, rfl, rfl⟩) fun os₁ _ s h => ?_
  obtain ⟨hsent₁, htokens₁, rfl⟩ := h
  refine Achieves.bind (Q := fun os _ s => sentBytes os = 0 ∧ tokens os = 0 ∧ s = .new)
    (Achieves.publish ⟨rfl, rfl, rfl⟩) fun os₂ _ s h => ?_
  obtain ⟨hsent₂, htokens₂, rfl⟩ := h
  refine Achieves.bind (Q := fun os _ s => os = [] ∧ s = .new)
    (Achieves.settleWith fun _ _ => ⟨rfl, rfl⟩) fun os r s h => ?_
  obtain ⟨model, cache⟩ := r
  obtain ⟨rfl, rfl⟩ := h
  refine Achieves.bind (Q := fun os _ s => sentBytes os = 0 ∧ tokens os = 0 ∧ s = .new)
    (Achieves.publish ⟨rfl, rfl, rfl⟩) fun os₃ _ s h => ?_
  obtain ⟨hsent₃, htokens₃, rfl⟩ := h
  refine Achieves.bind (self.observedBarrier_achieves rank 0 0 .new) fun os₄ generation s h => ?_
  obtain ⟨hsent₄, htokens₄, rfl⟩ := h
  refine Achieves.bind (Q := fun os _ s => os = [] ∧ s = .new)
    (Achieves.settleWith fun _ _ => ⟨rfl, rfl⟩) fun os prompt s h => ?_
  obtain ⟨rfl, rfl⟩ := h
  refine Achieves.bind (Q := fun os _ s => os = [] ∧ s = .new)
    (Achieves.settleWith fun _ _ => ⟨rfl, rfl⟩) fun os tokenizer s h => ?_
  obtain ⟨rfl, rfl⟩ := h
  refine Achieves.bind (self.generationLoop_achieves rank model hcodec hworld _ 0 _ .new)
    fun os₅ r s₁ hloop => ?_
  obtain ⟨g, stop⟩ := r
  refine Achieves.bind (Q := fun os reason s => os = [] ∧ stop = some reason ∧ s = s₁)
    (Achieves.settleWith fun reason h => ⟨rfl, okOr_eq_ok.mp h, rfl⟩) fun os reason s h => ?_
  obtain ⟨rfl, hstop, rfl⟩ := h
  obtain ⟨decided, hbooks, hdecided⟩ := hloop reason hstop
  refine Achieves.bind (Q := fun os _ s' => sentBytes os = 0 ∧ tokens os = 0 ∧ s' = s)
    (Achieves.publish ⟨rfl, rfl, rfl⟩) fun os₆ _ s' h => ?_
  obtain ⟨hsent₆, htokens₆, rfl⟩ := h
  refine Achieves.bind (self.observedBarrier_achieves rank 1 generation s') fun os₇ _ s h => ?_
  obtain ⟨hsent₇, htokens₇, rfl⟩ := h
  refine Achieves.bind (Q := fun os traces _ => os = [] ∧ traces = s.traces)
    (show Achieves takeTraces s _ from ?_) fun os traces s' h => ?_
  · intro b hb
    obtain rfl := Except.ok.inj hb
    exact ⟨rfl, rfl⟩
  obtain ⟨rfl, rfl⟩ := h
  refine Achieves.settleWith fun outcome houtcome => ?_
  simp only [summarize, bind_eq_ok, pure_eq_ok, mapError_eq_ok, u64_eq_ok] at houtcome
  obtain ⟨sent, ⟨-, rfl⟩, received, -, completion, -, kv, -, rfl⟩ := houtcome
  have hsent := hbooks.sent
  have htokens := hbooks.tokens
  refine ⟨hworld, hplanned, ⟨decided, ?_, hdecided⟩, ?_⟩
  · simp only [sentBytes_append, hsent₁, hsent₂, hsent₃, hsent₄, hsent₆, hsent₇]
    simpa [tracedBytes, NativeCollectives.new, sentBytes] using hsent
  · simp only [tokens_append, htokens₁, htokens₂, htokens₃, htokens₄, htokens₆, htokens₇]
    simpa [ofRoot, Tensor.tokens] using htokens

end Run

end TensorWorld

end Dlir.Tensor
