import Dlir.Pipeline.Transactions
import Dlir.Runtime.Model.Passes

namespace Dlir.Pipeline

open Dlir.Collectives Dlir.Framework Dlir.Math Dlir.Runtime Dlir.Runtime.Model PipelineRank

section Step

variable {n : Nat} {α : Type} (self : PipelineWorld (n + 1) α) (rank : Rank (n + 1)) (step : Nat)

/-- What a rank does until it has its input. -/
def entering (hidden : Tensor α) : Dealings (Rank (n + 1)) (WireFrame α) RunEventKind :=
  if rank.val = 0 then .none
  else ⟨[], [(rankBefore rank, tensorFrame (rankBefore rank) rank (activationTagAt step) hidden)],
    [.tensorReceived (rank.val - 1) .activation (phaseOf step) step hidden.shape
      (hidden.data.length * 4) 0]⟩

/-- What a rank does when it has its output. -/
def leaving (hidden : Tensor α) (feedback : ControlPacket) :
    Dealings (Rank (n + 1)) (WireFrame α) RunEventKind :=
  if h : rank.val < n then
    ⟨[(rankAfter rank h, tensorFrame rank (rankAfter rank h) (activationTagAt step) hidden)], [],
      [.tensorSent (rank.val + 1) .activation (phaseOf step) step hidden.shape
        (hidden.data.length * 4) 0]⟩
  else ⟨[(rankZero, controlFrame (tokenTagAt step) feedback rank rankZero)], [],
    [.controlSent 0 .tokenFeedback (phaseOf step) step feedback.bytes.length 0]⟩

/-- What a rank does until it knows how to go on. -/
def deciding (tokenizer : Tokenizer) (generated : List Nat) (token : Nat)
    (feedback notice : ControlPacket) : Dealings (Rank (n + 1)) (WireFrame α) RunEventKind :=
  if rank.val = 0 then
    ⟨(others rankZero).map fun d => (d, controlFrame (decisionTagAt step) notice rankZero d),
      [(Fin.last n, controlFrame (tokenTagAt step) feedback (Fin.last n) rankZero)],
      .controlReceived n .tokenFeedback (phaseOf step) step feedback.bytes.length 0 ::
        (tokenEvents self.config tokenizer generated token ++
          (List.range' 1 n).map fun destination =>
            .controlSent destination .decision (phaseOf step) step notice.bytes.length 0)⟩
  else ⟨[], [(rankZero, controlFrame (decisionTagAt step) notice rankZero rank)],
    [.controlReceived 0 .decision (phaseOf step) step notice.bytes.length 0]⟩

/-- What a rank has to do with in a step. -/
structure StepView (α : Type) where
  rows : Nat
  input : Tensor α
  output : Tensor α
  token : Nat
  feedback : ControlPacket
  decision : PipelineDecision
  notice : ControlPacket

/-- What a rank does in a step. -/
def StepView.dealings (view : StepView α) (tokenizer : Tokenizer) (generated : List Nat) :
    Dealings (Rank (n + 1)) (WireFrame α) RunEventKind :=
  ⟨[], [], [if step = 0 then .prefillStarted self.manifest.promptTokenIds.length
      else .decodeStepStarted step]⟩ ++
    (entering rank step view.input ++ ⟨[], [], layerEvents step (layersAt self rank.val)⟩ ++
      (leaving rank step view.output view.feedback ++
        (deciding self rank step tokenizer generated view.token view.feedback view.notice ++
          ⟨[], [], [if step = 0 then .prefillFinished else .decodeStepFinished step,
            self.memorySample rank]⟩)))

/-- What a rank knows of a step that it has done. -/
structure StepView.Seen (run : PipelineWorld (n + 1) α) (rank : Rank (n + 1)) (step : Nat)
    (view : StepView α) : Prop where
  small : step < 2 ^ 60
  output : view.output.shape = [1, view.rows, run.config.hiddenSize]
  sendable : rank.val < n → view.output.Sendable
  first : rank.val = 0 → view.rows = rowsOf run step
  input : rank.val ≠ 0 → view.input.shape = view.output.shape ∧ view.input.Sendable
  told : rank.val = 0 → run.codec.fromSlice view.feedback.bytes = .ok (.token step view.token)
  chosen : ¬ rank.val < n → run.codec.toVec (.token step view.token) = .ok view.feedback.bytes
  decided : rank.val = 0 → view.decision = decisionOf run step view.token
  spread : rank.val = 0 → run.codec.toVec (.decision step view.decision) = .ok view.notice.bytes
  followed : rank.val ≠ 0 →
    run.codec.fromSlice view.notice.bytes = .ok (.decision step view.decision)

section Code

variable {self rank step} {stage : LlamaStage (Tensor α) (RotaryEmbedding α)} {s : PipelineGeneration α}
  (c : CommunicationReport)

/-- A stage as it is loaded for a rank. -/
structure Staged (run : PipelineWorld (n + 1) α) (rank : Rank (n + 1))
    (stage : LlamaStage (Tensor α) (RotaryEmbedding α)) : Prop where
  start : stage.layerStart = (assignmentOf run rank).layerStart
  count : stage.blocks.length = (assignmentOf run rank).layerCount
  embeddings : ∀ table, stage.embeddings = some table → table.hiddenSize = run.config.hiddenSize

theorem Staged.notes (h : Staged self rank stage) :
    stageNotes stage (rankLayerObserver step) = layerNotes (n + 1) α step (layersAt self rank.val) := by
  unfold stageNotes
  rw [h.start, h.count]
  rfl

/-- The input of rank 0 has as many rows as the step adds positions. -/
theorem stepInput_shape {input : TokenTensor} {previous : Option Nat}
    (h : self.stepInput step previous = .ok input) : input.ids.shape = [1, rowsOf self step] := by
  unfold PipelineWorld.stepInput at h
  unfold rowsOf
  split_ifs at h ⊢
  · exact tokenRow_shape (mapError_eq_ok.mp h)
  · simp only [bind_eq_ok, mapError_eq_ok] at h
    obtain ⟨token, -, hrow⟩ := h
    exact tokenRow_shape hrow

/-- An activation that is let through has one row of hidden states for each position. -/
theorem validateActivation_shape {hidden : Tensor α} {size : Nat} {phase : ExecutionPhase} {u : Unit}
    (h : validateActivation hidden size phase = .ok u) : ∃ rows, hidden.shape = [1, rows, size] := by
  unfold validateActivation at h
  split at h
  · rename_i batch sequence width hshape
    have hgood := refuse_eq_ok.mp h
    refine ⟨sequence, ?_⟩
    rw [hshape]
    simp only [not_or, not_not] at hgood
    rw [hgood.1, hgood.2.1]
  · cases h

/-- A call of the stage of a rank: where it starts and where it ends. -/
def Calls (self : PipelineWorld (n + 1) α) (stage : LlamaStage (Tensor α) (RotaryEmbedding α))
    (rows : Nat) (kv : Model.KvCache α) (y : Tensor α) (kv' : Model.KvCache α) : Prop :=
  y.shape = [1, rows, self.config.hiddenSize] ∧ ∃ x : Tensor α, x.shape = y.shape ∧
    LlamaStage.onHidden self.lib silent () stage x kv = (.ok y, kv')

theorem forward_transacts (hlib : self.lib.Documented) (hstaged : Staged self rank stage) :
    Transacts (self.forward rank (assignmentOf self rank) stage step s) c fun d r _ =>
      ∃ rows input, Calls self stage rows s.cache r.1 r.2 ∧
        (rank.val = 0 → rows = rowsOf self step) ∧
        (rank.val ≠ 0 → input.shape = r.1.shape ∧ input.Sendable) ∧
        d = entering rank step input ++ ⟨[], [], layerEvents step (layersAt self rank.val)⟩ := by
  have hrank : (assignmentOf self rank).rank = rank.val := rfl
  unfold PipelineWorld.forward
  rw [hrank]
  split_ifs with hfirst
  · refine .settled fun input hinput => ?_
    obtain ⟨notes, result, hends, hresult⟩ := forwardTokens_passes hlib stage (rankLayerObserver step)
      silent () s.cache (stepInput_shape hinput) hstaged.embeddings
    refine (overCache_transacts hends (fun y hy => (hresult y hy).1.trans hstaged.notes) c).imp
      fun d r _ h => ?_
    obtain ⟨hok, rfl⟩ := h
    obtain ⟨-, x, hx, hshape, hcall⟩ := hresult r.1 (by rw [hok])
    rw [hok] at hcall
    refine ⟨rowsOf self step, x, ⟨hshape.trans hx, x, hshape.symm, hcall⟩, fun _ => rfl,
      fun h => absurd hfirst h, ?_⟩
    rw [entering, if_pos hfirst]
    rfl
  · refine (recvActivation_transacts rank (rank.val - 1) step c).bind fun d hidden c' h => ?_
    obtain ⟨-, peer, hpeer, hs, rfl⟩ := h
    obtain rfl : peer = rankBefore rank := Fin.ext hpeer
    refine .settled fun _ hvalid => ?_
    obtain ⟨rows, hrows⟩ := validateActivation_shape hvalid
    obtain ⟨notes, result, hends, hresult⟩ := forwardHidden_passes hlib stage (rankLayerObserver step)
      silent () s.cache hidden
    refine (overCache_transacts hends (fun y hy => (hresult y hy).1.trans hstaged.notes) c').imp
      fun d r _ h => ?_
    obtain ⟨hok, rfl⟩ := h
    obtain ⟨-, hshape, hcall⟩ := hresult r.1 (by rw [hok])
    rw [hok] at hcall
    refine ⟨rows, hidden, ⟨hshape.trans hrows, hidden, hshape.symm, hcall⟩, fun h => absurd h hfirst,
      fun _ => ⟨hshape.symm, hs⟩, ?_⟩
    rw [entering, if_neg hfirst]

theorem passOn_transacts (hidden : Tensor α) :
    Transacts (self.passOn rank (assignmentOf self rank) stage step hidden) c fun d _ _ =>
      ∃ token feedback, (rank.val < n → hidden.Sendable) ∧
        (¬ rank.val < n → self.codec.toVec (.token step token) = .ok feedback.bytes) ∧
        d = leaving rank step hidden feedback := by
  have hrank : (assignmentOf self rank).rank = rank.val := rfl
  have hworld : (assignmentOf self rank).worldSize = n + 1 := rfl
  unfold PipelineWorld.passOn
  rw [hrank, hworld]
  split_ifs with hmore
  · have hlt := Nat.lt_of_succ_lt_succ hmore
    refine (sendActivation_transacts rank (rank.val + 1) hidden step c).imp fun d _ _ h => ?_
    obtain ⟨-, peer, hpeer, hs, rfl⟩ := h
    obtain rfl : peer = rankAfter rank hlt := Fin.ext hpeer
    refine ⟨0, ⟨[], Nat.zero_le _⟩, fun _ => hs, fun h => absurd hlt h, ?_⟩
    rw [leaving, dif_pos hlt]
  · have hlast : ¬ rank.val < n := fun h => hmore (Nat.succ_lt_succ h)
    refine .settled fun logits _ => .settled fun token _ => .settled fun tag htag => ?_
    obtain ⟨-, rfl⟩ := stepTag_eq_ok htag
    refine (sendControl_transacts rank self.codec 0 _ (.token step token) .tokenFeedback step c).imp
      fun d _ _ h => ?_
    obtain ⟨hwritten, peer, hpeer, rfl⟩ := h
    obtain rfl : peer = rankZero := Fin.ext hpeer
    refine ⟨token, _, fun h => absurd h hlast, fun _ => hwritten, ?_⟩
    rw [leaving, dif_neg hlast]
    rfl

/-- Rank 0 decides as the tokens so far demand. -/
theorem decide_transacts (tokenizer : Tokenizer) (token : Nat) (hlength : s.generatedTokens.length = step) :
    Transacts (self.decide tokenizer s token : PipelineRankCode (n + 1) α _) c fun d r _ =>
      r = (afterToken self s token, decisionOf self step token) ∧
        d = ⟨[], [], tokenEvents self.config tokenizer s.generatedTokens token⟩ := by
  unfold PipelineWorld.decide afterToken decisionOf tokenEvents
  split_ifs with heos
  · exact .pure ⟨rfl, rfl⟩
  · have hcount : (s.generatedTokens ++ [token]).length = step + 1 := by
      rw [List.length_append, hlength, List.length_singleton]
    refine .settled fun text htext => .published (.pure ⟨?_, ?_⟩)
    · rw [← hcount]
    · rw [textOf_eq htext]
      rfl

theorem expectToken_eq_ok {control : PipelineControl} {token : Nat}
    (h : expectToken step control = .ok token) : control = .token step token := by
  cases control with
  | token actual id =>
    simp only [expectToken, bind_eq_ok, refuse_eq_ok, pure_eq_ok, exists_const, not_not] at h
    obtain ⟨rfl, rfl⟩ := h
    rfl
  | decision actual decision => cases h

theorem expectDecision_eq_ok {control : PipelineControl} {decision : PipelineDecision}
    (h : expectDecision step control = .ok decision) : control = .decision step decision := by
  cases control with
  | decision actual d =>
    simp only [expectDecision, bind_eq_ok, refuse_eq_ok, pure_eq_ok, exists_const, not_not] at h
    obtain ⟨rfl, rfl⟩ := h
    rfl
  | token actual id => cases h

/-- Rank 0 tells every other rank. -/
theorem sendDecisions_transacts (hrank : rank.val = 0) (decision : PipelineDecision) :
    Transacts ((List.range' 1 n).forM (self.sendDecision rank step decision)) c fun d _ _ =>
      (0 < n → self.codec.toVec (.decision step decision) =
        .ok (controlPacket self.codec (.decision step decision)).bytes) ∧
      d = ⟨(others rankZero).map fun destination => (destination, controlFrame (decisionTagAt step)
          (controlPacket self.codec (.decision step decision)) rankZero destination), [],
        (List.range' 1 n).map fun destination => .controlSent destination .decision (phaseOf step) step
          (controlPacket self.codec (.decision step decision)).bytes.length 0⟩ := by
  have hothers : List.range' 1 n = (others (0 : Rank (n + 1))).map Fin.val :=
    (map_val_others_zero (n := n + 1)).symm
  obtain rfl : rank = rankZero := Fin.ext hrank
  have hsend : ∀ destination ∈ others (0 : Rank (n + 1)), ∀ c,
      Transacts (self.sendDecision rankZero step decision destination.val) c fun d _ _ =>
        d = ⟨[(destination, controlFrame (decisionTagAt step)
            (controlPacket self.codec (.decision step decision)) rankZero destination)], [],
          [.controlSent destination.val .decision (phaseOf step) step
            (controlPacket self.codec (.decision step decision)).bytes.length 0]⟩ ∧
        self.codec.toVec (.decision step decision) =
          .ok (controlPacket self.codec (.decision step decision)).bytes := by
    intro destination _ c
    unfold PipelineWorld.sendDecision
    refine .settled fun tag htag => ?_
    obtain ⟨-, rfl⟩ := stepTag_eq_ok htag
    refine (sendControl_transacts rankZero self.codec destination.val _ (.decision step decision) .decision
      step c).imp fun d _ _ h => ?_
    obtain ⟨hwritten, peer, hpeer, rfl⟩ := h
    obtain rfl : peer = destination := Fin.ext hpeer
    exact ⟨rfl, hwritten⟩
  rw [hothers]
  refine (Transacts.forM_map hsend c).imp fun d _ _ h => ?_
  obtain ⟨rfl, hwritten⟩ := h
  refine ⟨fun hn => hwritten (Fin.last n) (mem_others.mpr ?_), ?_⟩
  · rw [Ne, Fin.ext_iff]
    exact hn.ne'
  · rw [Dealings.foldr_send, List.map_map]
    rfl

/-- The end of a pass through the loop. -/
theorem agree_transacts (hn : 0 < n) (tokenizer : Tokenizer)
    (hlength : rank.val = 0 → s.generatedTokens.length = step) :
    Transacts (self.agree rank (assignmentOf self rank) (if rank = 0 then some tokenizer else none) step s)
      c fun d r _ => ∃ token feedback notice, step < 2 ^ 60 ∧
        r.1 = agreed self rank s token ∧
        (rank.val = 0 → self.codec.fromSlice feedback.bytes = .ok (.token step token) ∧
          r.2 = decisionOf self step token ∧ self.codec.toVec (.decision step r.2) = .ok notice.bytes) ∧
        (rank.val ≠ 0 → self.codec.fromSlice notice.bytes = .ok (.decision step r.2)) ∧
        d = deciding self rank step tokenizer s.generatedTokens token feedback notice := by
  unfold agreed PipelineWorld.agree
  by_cases hfirst : rank.val = 0
  · obtain rfl : rank = rankZero := Fin.ext hfirst
    rw [if_pos rfl]
    show Transacts (self.lead rankZero _ tokenizer step s) c _
    unfold PipelineWorld.lead
    refine .settled fun tag htag => ?_
    obtain ⟨hstep, rfl⟩ := stepTag_eq_ok htag
    refine (recvControl_transacts rankZero self.codec n (tokenTagAt step) .tokenFeedback step c).bind
      fun d control c' h => ?_
    obtain ⟨peer, feedback, hpeer, hread, rfl⟩ := h
    obtain rfl : peer = Fin.last n := Fin.ext hpeer
    refine .settled fun token htoken => ?_
    obtain rfl := expectToken_eq_ok htoken
    refine (decide_transacts c' tokenizer token (hlength hfirst)).bind fun d r c'' h => ?_
    obtain ⟨rfl, rfl⟩ := h
    refine (sendDecisions_transacts c'' hfirst (decisionOf self step token)).bind fun d _ _ h => ?_
    obtain ⟨hwritten, rfl⟩ := h
    refine .pure ⟨token, feedback, controlPacket self.codec (.decision step (decisionOf self step token)),
      hstep, ?_, fun _ => ⟨hread, rfl, hwritten hn⟩, fun h => absurd hfirst h, ?_⟩
    · rw [if_pos rfl]
    · rw [deciding, if_pos hfirst]
      refine Dealings.ext (List.append_nil _) rfl ?_
      exact congrArg (_ :: ·) (congrArg (tokenEvents self.config tokenizer s.generatedTokens token ++ ·)
        (List.append_nil _))
  · have hother : rank ≠ 0 := fun h => hfirst (congrArg Fin.val h)
    rw [if_neg hother]
    show Transacts (self.follow rank step >>= fun decision => pure (s, decision)) c _
    unfold PipelineWorld.follow
    rw [bind_assoc]
    refine .settled fun tag htag => ?_
    obtain ⟨hstep, rfl⟩ := stepTag_eq_ok htag
    rw [bind_assoc]
    refine (recvControl_transacts rank self.codec 0 (decisionTagAt step) .decision step c).bind
      fun d control c' h => ?_
    obtain ⟨peer, notice, hpeer, hread, rfl⟩ := h
    obtain rfl : peer = rankZero := Fin.ext hpeer
    refine .settled fun decision hdecision => .pure ?_
    obtain rfl := expectDecision_eq_ok hdecision
    refine ⟨0, notice, notice, hstep, ?_, fun h => absurd h hfirst, fun _ => hread, ?_⟩
    · rw [if_neg hother]
    · rw [deciding, if_neg hfirst]
      rfl

/-- One pass through the loop. -/
theorem generationStep_transacts (hlib : self.lib.Documented) (hn : 0 < n)
    (hstaged : Staged self rank stage) (tokenizer : Tokenizer) {generated : List Nat}
    (hgenerated : rank.val = 0 → s.generatedTokens = generated ∧ generated.length = step) :
    Transacts (self.generationStep rank (assignmentOf self rank) stage
        (if rank = 0 then some tokenizer else none) step s) c
      fun d r _ => ∃ (view : StepView α) (kv : Model.KvCache α),
      view.Seen self rank step ∧ view.decision = r.2 ∧ Calls self stage view.rows s.cache view.output kv ∧
        r.1 = afterStep self rank step s kv view.token ∧
        d = view.dealings self rank step tokenizer generated := by
  unfold PipelineWorld.generationStep
  refine .published ?_
  refine (forward_transacts c hlib hstaged).bind fun d r c' h => ?_
  obtain ⟨rows, input, hcalls, hrows, hinput, rfl⟩ := h
  obtain ⟨hidden, kv⟩ := r
  refine (passOn_transacts c' hidden).bind fun d _ c'' h => ?_
  obtain ⟨chosen, sent, hsendable, hchosen, rfl⟩ := h
  refine (agree_transacts c'' hn tokenizer ?_).bind fun d r c''' h => ?_
  · intro hfirst
    rw [(hgenerated hfirst).1]
    exact (hgenerated hfirst).2
  obtain ⟨told, received, notice, hstep, hnext, hlead, hfollow, rfl⟩ := h
  refine .published (.published (.pure ?_))
  by_cases hfirst : rank.val = 0
  · have hmore : rank.val < n := by omega
    obtain ⟨hread, hdecision, hwritten⟩ := hlead hfirst
    refine ⟨⟨rows, input, hidden, told, received, r.2, notice⟩, kv, ⟨hstep, hcalls.1, hsendable, hrows,
      hinput, fun _ => hread, fun h => absurd hmore h, fun _ => hdecision, fun _ => hwritten,
      fun h => absurd hfirst h⟩, rfl, hcalls, hnext, ?_⟩
    have hleaving : leaving rank step hidden sent = leaving rank step hidden received := by
      rw [leaving, leaving, dif_pos hmore, dif_pos hmore]
    rw [StepView.dealings, hleaving, (hgenerated hfirst).1]
    rfl
  · have hagreed : ∀ token, agreed self rank { s with
        cache := kv
        decodeForwardCount := if step = 0 then s.decodeForwardCount else s.decodeForwardCount + 1 } token =
        { s with
          cache := kv
          decodeForwardCount := if step = 0 then s.decodeForwardCount else s.decodeForwardCount + 1 } :=
      fun token => if_neg fun h => hfirst (congrArg Fin.val h)
    refine ⟨⟨rows, input, hidden, chosen, sent, r.2, notice⟩, kv, ⟨hstep, hcalls.1, hsendable, hrows,
      hinput, fun h => absurd h hfirst, hchosen, fun h => absurd h hfirst, fun h => absurd h hfirst,
      hfollow⟩, rfl, hcalls, ?_, ?_⟩
    · rw [hnext, hagreed]
      exact (hagreed _).symm
    · have hdeciding : deciding (α := α) self rank step tokenizer s.generatedTokens told received notice =
          deciding self rank step tokenizer generated chosen sent notice := by
        rw [deciding, deciding, if_neg hfirst, if_neg hfirst]
      rw [StepView.dealings, ← hdeciding]
      rfl

end Code

end Step

section Loop

variable {n : Nat} {α : Type} (self : PipelineWorld (n + 1) α) (rank : Rank (n + 1))

/-- What a rank does in some steps. -/
def viewsDealings (tokenizer : Tokenizer) :
    Nat → List Nat → List (StepView α) → Dealings (Rank (n + 1)) (WireFrame α) RunEventKind
  | _, _, [] => .none
  | step, generated, view :: views => view.dealings self rank step tokenizer generated ++
      viewsDealings tokenizer (step + 1) (generatedWith self.config generated view.token) views

/-- What a rank knows of its steps: it goes on up to the last one. -/
structure Views (run : PipelineWorld (n + 1) α) (rank : Rank (n + 1)) (step : Nat)
    (views : List (StepView α)) (reason : StopReason) : Prop where
  nonempty : views ≠ []
  seen : ∀ (i : Nat) (view : StepView α), views[i]? = some view → view.Seen run rank (step + i)
  goes : ∀ (i : Nat) (view : StepView α), views[i]? = some view →
    view.decision = if i + 1 = views.length then .stop reason else .continueGeneration

variable {self rank}

theorem Views.last {step : Nat} {view : StepView α} {reason : StopReason}
    (hseen : view.Seen self rank step) (hstop : view.decision = .stop reason) :
    Views self rank step [view] reason where
  nonempty := List.cons_ne_nil _ _
  seen i v hv := by
    obtain ⟨hi, rfl⟩ := List.getElem?_eq_some_iff.mp hv
    obtain rfl : i = 0 := by simpa using hi
    exact hseen
  goes i v hv := by
    obtain ⟨hi, rfl⟩ := List.getElem?_eq_some_iff.mp hv
    obtain rfl : i = 0 := by simpa using hi
    exact hstop

theorem Views.next {step : Nat} {view : StepView α} {views : List (StepView α)} {reason : StopReason}
    (hseen : view.Seen self rank step) (hgo : view.decision = .continueGeneration)
    (h : Views self rank (step + 1) views reason) : Views self rank step (view :: views) reason where
  nonempty := List.cons_ne_nil _ _
  seen i v hv := by
    cases i with
    | zero =>
      obtain rfl := Option.some.inj hv
      exact hseen
    | succ i =>
      rw [Nat.add_comm i 1, ← Nat.add_assoc]
      exact h.seen i v hv
  goes i v hv := by
    cases i with
    | zero =>
      obtain rfl := Option.some.inj hv
      have hmore := List.length_pos_iff.mpr h.nonempty
      rw [hgo, if_neg (by rw [List.length_cons]; omega)]
    | succ i =>
      rw [h.goes i v hv, List.length_cons]
      simp only [Nat.add_right_cancel_iff]

theorem afterStep_generated (step : Nat) (s : PipelineGeneration α) (kv : Model.KvCache α) (token : Nat)
    (hfirst : rank.val = 0) : (afterStep self rank step s kv token).generatedTokens =
      generatedWith self.config s.generatedTokens token := by
  obtain rfl : rank = rankZero := Fin.ext hfirst
  unfold afterStep agreed afterToken generatedWith
  rw [if_pos rfl]
  by_cases heos : token = self.config.eosTokenId
  · rw [if_pos heos, if_pos heos]
  · rw [if_neg heos, if_neg heos]

variable (self rank) in
theorem afterStep_rest (step : Nat) (s : PipelineGeneration α) (kv : Model.KvCache α) (token : Nat)
    (hcount : s.decodeForwardCount = step - 1) :
    (afterStep self rank step s kv token).cache = kv ∧
      (afterStep self rank step s kv token).decodeForwardCount = step := by
  have hnext : (if step = 0 then s.decodeForwardCount else s.decodeForwardCount + 1) = step := by
    rw [hcount]
    split_ifs <;> omega
  unfold afterStep agreed afterToken
  rw [hnext]
  split_ifs
  · exact ⟨rfl, rfl⟩
  · exact ⟨rfl, rfl⟩
  · exact ⟨rfl, rfl⟩

section Code

variable {stage : LlamaStage (Tensor α) (RotaryEmbedding α)} {I : Nat → Model.KvCache α → Prop}

/-- The loop of a rank, with what its calls keep of the cache. -/
theorem generationLoop_transacts (hlib : self.lib.Documented) (hn : 0 < n)
    (hstaged : Staged self rank stage)
    (hcalls : ∀ {m rows kv y kv'}, I m kv → Calls self stage rows kv y kv' → I (m + rows) kv')
    (tokenizer : Tokenizer) (passes step m : Nat) (s : PipelineGeneration α) (c : CommunicationReport)
    (generated : List Nat)
    (hgenerated : rank.val = 0 → s.generatedTokens = generated ∧ generated.length = step)
    (hcount : s.decodeForwardCount = step - 1) (hcache : I m s.cache) :
    Transacts (self.generationLoop rank (assignmentOf self rank) stage
        (if rank = 0 then some tokenizer else none) passes step s) c fun d r _ =>
      ∃ views : List (StepView α), Views self rank step views r.2 ∧
        I (m + (views.map (·.rows)).sum) r.1.cache ∧
        r.1.decodeForwardCount + 1 = step + views.length ∧
        d = viewsDealings self rank tokenizer step generated views := by
  induction passes generalizing step m s c generated with
  | zero => exact .throw
  | succ passes ih =>
    unfold PipelineWorld.generationLoop
    refine (generationStep_transacts c hlib hn hstaged tokenizer hgenerated).bind fun d r c' h => ?_
    obtain ⟨view, kv, hseen, hdecision, hcall, hnext, rfl⟩ := h
    obtain ⟨s', decision⟩ := r
    obtain ⟨hcache', hcount'⟩ := afterStep_rest self rank step s kv view.token hcount
    rw [← hnext] at hcache' hcount'
    have hkept := hcalls hcache hcall
    rw [← hcache'] at hkept
    cases decision with
    | stop reason =>
      refine .pure ⟨[view], .last hseen hdecision, by simpa using hkept, by rw [hcount']; rfl, rfl⟩
    | continueGeneration =>
      refine (ih (step + 1) _ s' c' (generatedWith self.config generated view.token)
        (fun hfirst => ?_) hcount' hkept).imp fun e r _ h => ?_
      · obtain ⟨rfl, hlength⟩ := hgenerated hfirst
        have hne : view.token ≠ self.config.eosTokenId := by
          intro heos
          have hdecided := hseen.decided hfirst
          rw [hdecision, decisionOf, if_pos heos] at hdecided
          cases hdecided
        have htokens : s'.generatedTokens = _ := congrArg PipelineGeneration.generatedTokens hnext
        refine ⟨htokens.trans (afterStep_generated step s kv view.token hfirst), ?_⟩
        rw [generatedWith, if_neg hne, List.length_append, hlength, List.length_singleton]
      · obtain ⟨views, hviews, hkept', hdecodes, rfl⟩ := h
        refine ⟨view :: views, .next hseen hdecision hviews, ?_, ?_, rfl⟩
        · rw [List.map_cons, List.sum_cons, ← Nat.add_assoc]
          exact hkept'
        · rw [hdecodes, List.length_cons]
          omega

end Code

section Run

/-- What a rank of a run that succeeds has done and what it reports, in terms of its steps. -/
structure Viewed (run : PipelineWorld (n + 1) α) (rank : Rank (n + 1)) (I : Nat → Model.KvCache α → Prop)
    (tokenizer : Tokenizer) (views : List (StepView α))
    (d : Dealings (Rank (n + 1)) (WireFrame α) RunEventKind) (outcome : PipelineRankOutcome) : Prop where
  admitted : admitRank rank.val (n + 1) run.manifest (run.resources rank) =
    .ok (outcome.assignment, outcome.memory)
  opened : rank.val = 0 → run.tokenizer = .ok tokenizer
  steps : Views run rank 0 views outcome.stopReason
  decodes : outcome.decodeForwardCount + 1 = views.length
  cached : ∃ kv, I (views.map (·.rows)).sum kv ∧
    kv.usedBytes run.config run.manifest.dtype.bytes = .ok outcome.finalKvCacheBytes
  sent : ∀ x ∈ d.sent, x.2.isBarrier = true ∨ x ∈ (viewsDealings run rank tokenizer 0 [] views).sent
  taken : ∀ x ∈ (viewsDealings run rank tokenizer 0 [] views).taken, x ∈ d.taken
  shown : d.seen = run.memorySample rank :: .modelLoadStarted :: .modelLoadFinished ::
    run.memorySample rank :: (barrierEvents 0 ++
      ((viewsDealings run rank tokenizer 0 [] views).seen ++
        .generationFinished outcome.stopReason :: barrierEvents 1))

variable [Zero α]

/-- A stage that is loaded for a rank. -/
theorem staged_of_load {stage : LlamaStage (Tensor α) (RotaryEmbedding α)} {kv : Model.KvCache α}
    (h : self.load (assignmentOf self rank) = .ok (stage, kv)) : Staged self rank stage := by
  simp only [PipelineWorld.load, bind_eq_ok, mapError_eq_ok, pure_eq_ok] at h
  obtain ⟨vb, -, loaded, hload, cache, -, heq⟩ := h
  obtain ⟨rfl, rfl⟩ := Prod.mk.inj heq
  obtain ⟨hstart, hcount, htable⟩ := Asking.always_iff.mp (stage_parts _ _ _ _ _) [] _ hload
  exact ⟨hstart, hcount, htable⟩

omit [Zero α] in
/-- Only rank 0 opens the tokenizer. -/
theorem openTokenizer_eq_ok {found : Option Tokenizer}
    (h : self.openTokenizer (assignmentOf self rank) = .ok found) : ∃ tokenizer,
      (rank.val = 0 → self.tokenizer = .ok tokenizer) ∧
        found = if rank = 0 then some tokenizer else none := by
  have hrank : (assignmentOf self rank).rank = rank.val := rfl
  unfold PipelineWorld.openTokenizer at h
  rw [hrank] at h
  by_cases hfirst : rank.val = 0
  · rw [if_pos hfirst, mapError_eq_ok] at h
    simp only [map_eq_pure_bind, bind_eq_ok, pure_eq_ok] at h
    obtain ⟨tokenizer, hopened, rfl⟩ := h
    exact ⟨tokenizer, fun _ => hopened, (if_pos (Fin.ext hfirst)).symm⟩
  · rw [if_neg hfirst] at h
    obtain rfl := Except.ok.inj h
    refine ⟨⟨fun _ => .ok "", fun _ _ => .ok none⟩, fun h => absurd h hfirst, (if_neg ?_).symm⟩
    exact fun h => hfirst (congrArg Fin.val h)

/-- A whole run of a rank, with what its calls keep of the cache. -/
theorem run_transacts {I : Nat → Model.KvCache α → Prop} (hlib : self.lib.Documented) (hn : 0 < n)
    (hpartition : PipelinePartition.balanced self.manifest.spec (n + 1) = .ok self.manifest.partition)
    (hcache : ∀ {stage kv}, self.load (assignmentOf self rank) = .ok (stage, kv) → I 0 kv ∧
      ∀ {m rows kv y kv'}, I m kv → Calls self stage rows kv y kv' → I (m + rows) kv') :
    Transacts (self.runPipelineRank rank) {} fun d outcome _ =>
      ∃ tokenizer views, Viewed self rank I tokenizer views d outcome := by
  unfold PipelineWorld.runPipelineRank
  refine .settled fun r hadmitted => ?_
  obtain ⟨assignment, memory⟩ := r
  obtain ⟨-, hstage, -⟩ := parts_of_admitRank hadmitted
  obtain ⟨-, -, hstages⟩ := balanced_eq_ok.mp hpartition
  rw [hstages] at hstage
  obtain ⟨-, rfl⟩ := getElem?_stages.mp hstage
  refine .settled fun _ _ => .published (.published (.settled fun r hload => ?_))
  obtain ⟨stage, cache⟩ := r
  have hstaged := staged_of_load hload
  obtain ⟨hnew, hkeeps⟩ := hcache hload
  refine .published (.published ?_)
  refine (observedBarrier_transacts rank 0 0 {}).bind fun before generation c hbefore => ?_
  refine .settled fun found hfound => ?_
  obtain ⟨tokenizer, hopened, rfl⟩ := openTokenizer_eq_ok hfound
  refine (generationLoop_transacts hlib hn hstaged hkeeps tokenizer (2 ^ 60 + 1) 0 0 ⟨cache, [], none, 0⟩ c
    [] (fun _ => ⟨rfl, rfl⟩) rfl hnew).bind fun d r c' h => ?_
  obtain ⟨views, hviews, hkept, hdecodes, rfl⟩ := h
  obtain ⟨s, reason⟩ := r
  refine .settled fun completion _ => .published ?_
  refine (observedBarrier_transacts rank 1 generation c').bind fun after _ c'' hafter => ?_
  refine .settled fun bytes hbytes => ?_
  intro outcome houtcome
  obtain rfl := Except.ok.inj houtcome
  rw [Nat.zero_add] at hkept hdecodes
  refine ⟨tokenizer, views, hadmitted, hopened, hviews, hdecodes, ⟨s.cache, hkept, hbytes⟩, ?_, ?_, ?_⟩
  · intro x hx
    simp only [Dealings.sent_append, List.nil_append, List.append_nil, List.mem_append, Dealings.none] at hx
    rcases hx with hx | hx | hx
    · exact .inl (hbefore.1 x (List.mem_append_left _ hx))
    · exact .inr hx
    · exact .inl (hafter.1 x (List.mem_append_left _ hx))
  · intro x hx
    simp only [Dealings.taken_append, List.nil_append, List.append_nil, List.mem_append, Dealings.none]
    exact .inr (.inl hx)
  · simp only [Dealings.seen_append, hbefore.2, hafter.2]
    rfl

end Run

end Loop

end Dlir.Pipeline
