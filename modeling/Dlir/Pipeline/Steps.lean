import Dlir.Pipeline.Composition
import Dlir.Pipeline.Turns

namespace Dlir.Pipeline

open Dlir.Collectives Dlir.Framework Dlir.Math Dlir.Runtime Dlir.Runtime.Model PipelineRank

section Chain

variable {n : Nat} {μ : Type}

/-- The rank after another one that is not the last. -/
def rankAfter (rank : Rank (n + 1)) (h : rank.val < n) : Rank (n + 1) := ⟨rank.val + 1, by omega⟩

/-- The rank before another one that is not the first. -/
def rankBefore (rank : Rank (n + 1)) : Rank (n + 1) := ⟨rank.val - 1, by omega⟩

theorem finRange_split (rank : Rank (n + 1)) :
    (List.finRange (n + 1)).take rank.val ++ rank :: (List.finRange (n + 1)).drop (rank.val + 1) =
      List.finRange (n + 1) := by
  have hlt : rank.val < (List.finRange (n + 1)).length := by
    rw [List.length_finRange]
    exact rank.isLt
  have hget : (List.finRange (n + 1))[rank.val] = rank := by simp
  have hdrop := List.getElem_cons_drop hlt
  rw [hget] at hdrop
  rw [hdrop, List.take_append_drop]

/-- What a rank has to do with a chain of all ranks. -/
theorem project_chain (m : Rank (n + 1) → Rank (n + 1) → μ) (rank : Rank (n + 1)) :
    project rank (relayTrace m (List.finRange (n + 1))) =
      (if rank.val = 0 then [] else [.get (rankBefore rank) (m (rankBefore rank) rank)]) ++
        if h : rank.val < n then [.put (rankAfter rank h) (m rank (rankAfter rank h))] else [] := by
  have hsplit := finRange_split rank
  have hnodup := List.nodup_finRange (n + 1)
  rw [← hsplit] at hnodup
  have hmoves := project_relay (m := m) hnodup
  rw [hsplit, List.head?_drop, List.getLast?_take] at hmoves
  rw [hmoves]
  refine congrArg₂ (· ++ ·) ?_ ?_
  · by_cases hfirst : rank.val = 0
    · rw [if_pos hfirst, if_pos hfirst]
      rfl
    · have hprev : (List.finRange (n + 1))[rank.val - 1]? = some (rankBefore rank) := by
        rw [List.getElem?_eq_getElem (by rw [List.length_finRange]; omega)]
        simp [rankBefore]
      rw [if_neg hfirst, if_neg hfirst, hprev]
      rfl
  · by_cases hlast : rank.val < n
    · have hnext : (List.finRange (n + 1))[rank.val + 1]? = some (rankAfter rank hlast) := by
        rw [List.getElem?_eq_getElem (by rw [List.length_finRange]; omega)]
        simp [rankAfter]
      rw [dif_pos hlast, hnext]
      rfl
    · have hnone : (List.finRange (n + 1))[rank.val + 1]? = none :=
        List.getElem?_eq_none (by simp; omega)
      rw [dif_neg hlast, hnone]
      rfl

end Chain

section Step

variable {n : Nat} {α : Type} (self : PipelineWorld (n + 1) α)
  (model : Llama (Tensor α) (RotaryEmbedding α))

def assignmentOf (rank : Rank (n + 1)) : StageAssignment :=
  stageOf self.manifest.spec (n + 1) rank.val

def partAt (r : Nat) : LlamaStage (Tensor α) (RotaryEmbedding α) :=
  stagePart self.manifest.spec (n + 1) model r

/-- The layers of a rank. -/
def layersAt (r : Nat) : List Nat :=
  let stage := stageOf self.manifest.spec (n + 1) r
  List.range' stage.layerStart stage.layerCount

/-- How many positions a step adds. -/
def rowsOf (step : Nat) : Nat := if step = 0 then self.manifest.promptTokenIds.length else 1

/-- How the ranks go on after the token of a step. -/
def decisionOf (step token : Nat) : PipelineDecision :=
  if token = self.config.eosTokenId then .stop .eos else self.limit (step + 1)

section Events

variable (rank step token : Nat)

def controlLength (control : PipelineControl) : Nat := (encoded self.codec control).length

/-- What a rank publishes before its layers. -/
def inputEvents : List RunEventKind :=
  if rank = 0 then []
  else [.tensorReceived (rank - 1) .activation (phaseOf step) step
    [1, rowsOf self step, self.config.hiddenSize] (rowsOf self step * self.config.hiddenSize * 4) 0]

/-- What a rank publishes after its layers. -/
def outputEvents : List RunEventKind :=
  if rank < n then [.tensorSent (rank + 1) .activation (phaseOf step) step
    [1, rowsOf self step, self.config.hiddenSize] (rowsOf self step * self.config.hiddenSize * 4) 0]
  else [.controlSent 0 .tokenFeedback (phaseOf step) step (controlLength self (.token step token)) 0]

/-- What a rank publishes of the decision after a token. -/
def decisionEvents (tokenizer : Tokenizer) (generated : List Nat) : List RunEventKind :=
  let length := controlLength self (.decision step (decisionOf self step token))
  if rank = 0 then
    .controlReceived n .tokenFeedback (phaseOf step) step (controlLength self (.token step token)) 0 ::
      (tokenEvents self.config tokenizer generated token ++ (List.range' 1 n).map fun destination =>
        .controlSent destination .decision (phaseOf step) step length 0)
  else [.controlReceived 0 .decision (phaseOf step) step length 0]

/-- What a rank publishes in a step. -/
def stepEvents (tokenizer : Tokenizer) (rank : Rank (n + 1)) (step : Nat) (generated : List Nat)
    (token : Nat) : List RunEventKind :=
  (if step = 0 then .prefillStarted self.manifest.promptTokenIds.length else .decodeStepStarted step) ::
    (inputEvents self rank.val step ++ layerEvents step (layersAt self rank.val) ++
      outputEvents self rank.val step token ++
      decisionEvents self rank.val step token tokenizer generated ++
      [if step = 0 then .prefillFinished else .decodeStepFinished step, self.memorySample rank])

end Events

/-- The activations of a step, of which each rank but the last sends one. -/
def activationFrame (step : Nat) (xs : Nat → Tensor α) (i j : Rank (n + 1)) : WireFrame α :=
  tensorFrame i j (activationTagAt step) (xs (i.val + 1))

def tokenFrame (step token : Nat) (i j : Rank (n + 1)) : WireFrame α :=
  controlFrame (tokenTagAt step) (controlPacket self.codec (.token step token)) i j

def decisionFrame (step token : Nat) (i j : Rank (n + 1)) : WireFrame α :=
  controlFrame (decisionTagAt step)
    (controlPacket self.codec (.decision step (decisionOf self step token))) i j

/-- The messages of a step: activations from rank to rank, the token of the last rank, and the
decisions of rank 0. -/
def stepTrace (step : Nat) (xs : Nat → Tensor α) (token : Nat) :
    List (Rank (n + 1) × Rank (n + 1) × WireFrame α) :=
  relayTrace (activationFrame step xs) (List.finRange (n + 1)) ++
    ((Fin.last n, rankZero, tokenFrame self step token (Fin.last n) rankZero) ::
      scatterTrace rankZero (others rankZero) (decisionFrame self step token rankZero))

/-- What one call of the model is made of, rank by rank. -/
structure Turn (run : PipelineWorld (n + 1) α) (whole : Llama (Tensor α) (RotaryEmbedding α))
    (step : Nat) (input : TokenTensor) (xs : Nat → Tensor α) (kv kv' : Nat → Model.KvCache α)
    (token : Nat) : Prop where
  shapes : ∀ r ≤ n + 1, (xs r).shape = [1, rowsOf run step, run.config.hiddenSize]
  tokens : Ends (LlamaStage.forwardTokens run.lib (partAt run whole 0) (rankLayerObserver step) input
    (kv 0).len) (kv 0) (layerNotes (n + 1) α step (layersAt run 0)) (.ok (xs 1), kv' 0)
  hidden : ∀ r, 0 < r → r ≤ n → Ends (LlamaStage.forwardHidden run.lib (partAt run whole r)
    (rankLayerObserver step) (xs r) (kv r).len) (kv r) (layerNotes (n + 1) α step (layersAt run r))
    (.ok (xs (r + 1)), kv' r)
  chosen : ∃ logits, LlamaStage.finish run.lib (partAt run whole n) (xs (n + 1)) = .ok logits ∧
    greedyToken run.argmax logits = .ok token
  small : token < 2 ^ 32

section Moves

variable (rank : Rank (n + 1)) (step : Nat) (xs : Nat → Tensor α) (token : Nat)

/-- The message that a rank needs for its input. -/
def inputMoves : List (Move (Rank (n + 1)) (WireFrame α)) :=
  if rank.val = 0 then [] else [.get (rankBefore rank) (activationFrame step xs (rankBefore rank) rank)]

/-- The message that a rank sends when it has its output. -/
def outputMoves : List (Move (Rank (n + 1)) (WireFrame α)) :=
  if h : rank.val < n then [.put (rankAfter rank h) (activationFrame step xs rank (rankAfter rank h))]
  else [.put rankZero (tokenFrame self step token rank rankZero)]

/-- The messages after which a rank has the decision. -/
def decisionMoves : List (Move (Rank (n + 1)) (WireFrame α)) :=
  if rank = rankZero then .get (Fin.last n) (tokenFrame self step token (Fin.last n) rankZero) ::
    (others rankZero).map fun d => .put d (decisionFrame self step token rankZero d)
  else [.get rankZero (decisionFrame self step token rankZero rank)]

/-- The part of a rank in a step. -/
theorem project_step (hn : 0 < n) :
    project rank (stepTrace self step xs token) = inputMoves rank step xs ++
      (outputMoves self rank step xs token ++ decisionMoves self rank step token) := by
  have hlast : ∀ rank : Rank (n + 1), rank = Fin.last n ↔ ¬ rank.val < n := by
    intro rank
    rw [Fin.ext_iff, Fin.val_last]
    have hle := rank.isLt
    omega
  unfold stepTrace inputMoves outputMoves decisionMoves
  rw [project_append, project_chain, List.append_assoc, List.append_cancel_left_eq]
  by_cases hfirst : rank = 0
  · have hroot : project rank (scatterTrace 0 (others 0) (decisionFrame self step token 0)) =
        (others 0).map fun d => .put d (decisionFrame self step token 0 d) := by
      rw [hfirst]
      exact project_scatter_root _
    have hmore : rank.val < n := by
      rw [hfirst]
      exact hn
    have hne : rank ≠ Fin.last n := fun h => (hlast rank).mp h hmore
    rw [dif_pos hmore, dif_pos hmore, if_pos hfirst, project, if_neg hne, if_pos hfirst]
    rw [hroot]
  · have hpeer := project_scatter_peer (decisionFrame self step token 0) (nodup_others 0)
      (mem_others.mpr hfirst) hfirst
    rw [if_neg hfirst, project, if_neg hfirst, hpeer]
    by_cases hmore : rank.val < n
    · have hne : rank ≠ Fin.last n := fun h => (hlast rank).mp h hmore
      rw [dif_pos hmore, dif_pos hmore, if_neg hne]
    · have heq := (hlast rank).mpr hmore
      rw [dif_neg hmore, dif_neg hmore, if_pos heq, ← heq]
      rfl

end Moves

section Performs

variable {self model} {step : Nat} {input : TokenTensor} {xs : Nat → Tensor α}
  {kv kv' : Nat → Model.KvCache α} {token : Nat} (hturn : Turn self model step input xs kv kv' token)
  (hstep : step < 2 ^ 60) (rank : Rank (n + 1))

include hturn hstep

/-- The hidden states of a rank. -/
theorem forward_performs {s : PipelineGeneration α} (hcache : s.cache = kv rank.val)
    (hinput : rank = 0 → self.stepInput step s.previousToken = .ok input) :
    Performs (inputMoves rank step xs)
      (self.forward rank (assignmentOf self rank) (partAt self model rank.val) step s)
      (inputEvents self rank.val step ++ layerEvents step (layersAt self rank.val))
      (xs (rank.val + 1), kv' rank.val) := by
  have hrank : (assignmentOf self rank).rank = rank.val := rfl
  unfold inputMoves inputEvents PipelineWorld.forward
  rw [hrank, hcache]
  by_cases hfirst : rank.val = 0
  · rw [if_pos hfirst, if_pos hfirst, if_pos hfirst, hfirst]
    exact .settled (hinput (Fin.ext hfirst)) (overCache_performs hturn.tokens)
  · have hle : rank.val ≤ n := Nat.le_of_lt_succ rank.isLt
    have hprev : (rankBefore rank).val + 1 = rank.val := Nat.sub_add_cancel (Nat.pos_of_ne_zero hfirst)
    have hne : rankBefore rank ≠ rank := by
      rw [Ne, Fin.ext_iff]
      omega
    have hshape := hturn.shapes rank.val (by omega)
    have hvalid : validateActivation (xs rank.val) self.config.hiddenSize (phaseOf step) = .ok () := by
      unfold validateActivation
      rw [hshape]
      refine if_neg ?_
      unfold phaseOf rowsOf
      split_ifs <;> simp
    rw [if_neg hfirst, if_neg hfirst, if_neg hfirst]
    have hrecv := recvActivation_performs hne hstep hshape
    have hpass := overCache_performs (hturn.hidden rank.val (Nat.pos_of_ne_zero hfirst) hle)
    have hall := hrecv.bind (f := fun hidden => settleWith id (validateActivation hidden
      self.config.hiddenSize (phaseOf step)) >>= fun _ => overCache (LlamaStage.forwardHidden self.lib
        (partAt self model rank.val) (rankLayerObserver step) hidden (kv rank.val).len) (kv rank.val))
      (Performs.settled hvalid hpass)
    rw [List.append_nil] at hall
    unfold activationFrame
    rw [hprev]
    exact hall

/-- What a rank does with its hidden states. -/
theorem passOn_performs (hn : 0 < n) (hcompact : Compact self.codec) :
    Performs (outputMoves self rank step xs token)
      (self.passOn rank (assignmentOf self rank) (partAt self model rank.val) step (xs (rank.val + 1)))
      (outputEvents self rank.val step token) () := by
  have hrank : (assignmentOf self rank).rank = rank.val := rfl
  have hworld : (assignmentOf self rank).worldSize = n + 1 := rfl
  unfold outputMoves outputEvents PipelineWorld.passOn
  rw [hrank, hworld]
  by_cases hmore : rank.val < n
  · have hne : rankAfter rank hmore ≠ rank := by
      rw [Ne, Fin.ext_iff]
      show ¬ rank.val + 1 = rank.val
      omega
    rw [dif_pos hmore, if_pos hmore, if_pos (Nat.succ_lt_succ hmore)]
    exact sendActivation_performs hne hstep (hturn.shapes (rank.val + 1) (by omega))
  · obtain ⟨logits, hfinish, htoken⟩ := hturn.chosen
    have hlast : rank.val = n := by
      have hle := rank.isLt
      omega
    have hne : (0 : Rank (n + 1)) ≠ rank := by
      rw [Ne, Fin.ext_iff, hlast]
      exact hn.ne
    rw [dif_neg hmore, if_neg hmore, if_neg (by omega), hlast]
    refine .settled hfinish (.settled htoken (.settled (tokenTag_eq hstep) ?_))
    exact sendControl_performs hcompact ⟨hstep, hturn.small⟩ hne

/-- What rank 0 makes of the token of a step. -/
def afterToken (self : PipelineWorld (n + 1) α) (s : PipelineGeneration α) (token : Nat) :
    PipelineGeneration α :=
  if token = self.config.eosTokenId then s
  else { s with generatedTokens := s.generatedTokens ++ [token], previousToken := some token }

omit hturn hstep in
theorem decide_performs {tokenizer : Tokenizer} {s : PipelineGeneration α}
    (hlength : s.generatedTokens.length = step)
    (htext : token ≠ self.config.eosTokenId → ∃ text, tokenizer.step s.generatedTokens token = .ok text) :
    Performs [] (self.decide tokenizer s token)
      (tokenEvents self.config tokenizer s.generatedTokens token)
      (afterToken self s token, decisionOf self step token) := by
  unfold PipelineWorld.decide afterToken decisionOf tokenEvents
  by_cases heos : token = self.config.eosTokenId
  · rw [if_pos heos, if_pos heos, if_pos heos, if_pos heos]
    exact .pure _
  · obtain ⟨text, htext⟩ := htext heos
    have hcount : (s.generatedTokens ++ [token]).length = step + 1 := by
      rw [List.length_append, hlength, List.length_singleton]
    rw [if_neg heos, if_neg heos, if_neg heos, if_neg heos, textOf_eq htext]
    refine .settled htext (.published (fun _ => rfl) ?_)
    rw [← hcount]
    exact .pure _

/-- Rank 0 takes the token and tells the others. -/
theorem lead_performs (hn : 0 < n) (hcodec : self.codec.Documented) (hcompact : Compact self.codec)
    {tokenizer : Tokenizer} {s : PipelineGeneration α} (hlength : s.generatedTokens.length = step)
    (htext : token ≠ self.config.eosTokenId → ∃ text, tokenizer.step s.generatedTokens token = .ok text) :
    Performs (decisionMoves self 0 step token) (self.lead 0 (assignmentOf self 0) tokenizer step s)
      (decisionEvents self 0 step token tokenizer s.generatedTokens)
      (afterToken self s token, decisionOf self step token) := by
  have hlast : Fin.last n ≠ 0 := by
    rw [Ne, Fin.ext_iff]
    exact hn.ne'
  have hothers : List.range' 1 n = (others (0 : Rank (n + 1))).map Fin.val :=
    (map_val_others_zero (n := n + 1)).symm
  have hexpect : expectToken step (.token step token) = .ok token := by
    show (refuse (step ≠ step) _ >>= fun _ => pure token) = _
    rw [show refuse (step ≠ step) _ = .ok () from if_neg (by simp)]
    rfl
  have hrecv : Performs [.get (Fin.last n) (tokenFrame self step token (Fin.last n) 0)]
      (recvControl 0 self.codec n (tokenTagAt step) .tokenFeedback step :
        PipelineRankCode (n + 1) α PipelineControl)
      [.controlReceived n .tokenFeedback (phaseOf step) step
        (controlLength self (.token step token)) 0] (.token step token) :=
    recvControl_performs hcodec hcompact ⟨hstep, hturn.small⟩ hlast
  have hsend : ∀ d ∈ others (0 : Rank (n + 1)),
      Performs [.put d (decisionFrame self step token 0 d)]
        (self.sendDecision 0 step (decisionOf self step token) d.val)
        [.controlSent d.val .decision (phaseOf step) step
          (controlLength self (.decision step (decisionOf self step token))) 0] () := by
    intro d hd
    refine .settled (decisionTag_eq hstep) ?_
    exact sendControl_performs hcompact hstep (mem_others.mp hd)
  have hsends := Performs.forM_map (g := Fin.val) hsend
  rw [← hothers] at hsends
  unfold decisionMoves decisionEvents PipelineWorld.lead
  rw [if_pos rfl, if_pos rfl, hothers, List.map_map]
  refine .settled (tokenTag_eq hstep) ?_
  refine hrecv.bind ?_
  refine .settled hexpect ?_
  refine (decide_performs hlength htext).before ?_
  have hall := hsends.bind (f := fun _ => pure (afterToken self s token, decisionOf self step token))
    (Performs.pure _)
  rw [List.append_nil, List.append_nil] at hall
  exact hall

omit hturn in
/-- The others are told. -/
theorem follow_performs {rank : Rank (n + 1)} (hcodec : self.codec.Documented)
    (hcompact : Compact self.codec) (hrank : rank ≠ 0) :
    Performs (decisionMoves self rank step token) (self.follow rank step)
      [.controlReceived 0 .decision (phaseOf step) step
        (controlLength self (.decision step (decisionOf self step token))) 0]
      (decisionOf self step token) := by
  have hexpect : expectDecision step (.decision step (decisionOf self step token)) =
      .ok (decisionOf self step token) := by
    show (refuse (step ≠ step) _ >>= fun _ => pure _) = _
    rw [show refuse (step ≠ step) _ = .ok () from if_neg (by simp)]
    rfl
  have hrecv : Performs [.get 0 (decisionFrame self step token 0 rank)]
      (recvControl rank self.codec 0 (decisionTagAt step) .decision step :
        PipelineRankCode (n + 1) α PipelineControl)
      [.controlReceived 0 .decision (phaseOf step) step
        (controlLength self (.decision step (decisionOf self step token))) 0]
      (.decision step (decisionOf self step token)) :=
    recvControl_performs hcodec hcompact hstep hrank.symm
  unfold decisionMoves PipelineWorld.follow
  rw [if_neg hrank]
  refine .settled (decisionTag_eq hstep) ?_
  exact hrecv.bind (.settle hexpect)

/-- The variables of a rank after it knows how to go on. -/
def agreed (self : PipelineWorld (n + 1) α) (rank : Rank (n + 1)) (s : PipelineGeneration α)
    (token : Nat) : PipelineGeneration α :=
  if rank = rankZero then afterToken self s token else s

theorem agree_performs (hn : 0 < n) (hcodec : self.codec.Documented) (hcompact : Compact self.codec)
    {tokenizer : Tokenizer} {s : PipelineGeneration α} {generated : List Nat}
    (hgenerated : rank = 0 → s.generatedTokens = generated) (hlength : generated.length = step)
    (htext : token ≠ self.config.eosTokenId → ∃ text, tokenizer.step generated token = .ok text) :
    Performs (decisionMoves self rank step token)
      (self.agree rank (assignmentOf self rank) (if rank = 0 then some tokenizer else none) step s)
      (decisionEvents self rank.val step token tokenizer generated)
      (agreed self rank s token, decisionOf self step token) := by
  unfold agreed PipelineWorld.agree
  by_cases hfirst : rank = 0
  · obtain rfl := hgenerated hfirst
    rw [if_pos hfirst, if_pos hfirst, hfirst]
    exact lead_performs hturn hstep hn hcodec hcompact hlength htext
  · have hval : rank.val ≠ 0 := fun h => hfirst (Fin.ext h)
    have hfollow : Performs (decisionMoves self rank step token) (self.follow rank step) _ _ :=
      follow_performs hstep hcodec hcompact hfirst
    have hall := hfollow.bind (f := fun decision => pure (s, decision)) (Performs.pure _)
    rw [List.append_nil, List.append_nil] at hall
    unfold decisionEvents
    rw [if_neg hfirst, if_neg hfirst, if_neg hval]
    exact hall

/-- The variables of a rank after a step. -/
def afterStep (self : PipelineWorld (n + 1) α) (rank : Rank (n + 1)) (step : Nat)
    (s : PipelineGeneration α) (cache : Model.KvCache α) (token : Nat) : PipelineGeneration α :=
  agreed self rank { s with
    cache := cache
    decodeForwardCount := if step = 0 then s.decodeForwardCount else s.decodeForwardCount + 1 } token

/-- What a rank does in a step. -/
theorem generationStep_performs (hn : 0 < n) (hcodec : self.codec.Documented)
    (hcompact : Compact self.codec) {tokenizer : Tokenizer} {s : PipelineGeneration α}
    {generated : List Nat} (hcache : s.cache = kv rank.val)
    (hinput : rank = 0 → self.stepInput step s.previousToken = .ok input)
    (hgenerated : rank = 0 → s.generatedTokens = generated) (hlength : generated.length = step)
    (htext : token ≠ self.config.eosTokenId → ∃ text, tokenizer.step generated token = .ok text) :
    Performs (project rank (stepTrace self step xs token))
      (self.generationStep rank (assignmentOf self rank) (partAt self model rank.val)
        (if rank = 0 then some tokenizer else none) step s)
      (stepEvents self tokenizer rank step generated token)
      (afterStep self rank step s (kv' rank.val) token, decisionOf self step token) := by
  have hforward := forward_performs hturn hstep rank hcache hinput
  have hpass := passOn_performs hturn hstep rank hn hcompact
  have hagree := @agree_performs _ _ _ _ _ _ _ _ _ _ hturn hstep rank hn hcodec hcompact tokenizer { s with
      cache := kv' rank.val
      decodeForwardCount := if step = 0 then s.decodeForwardCount else s.decodeForwardCount + 1 } _
    hgenerated hlength htext
  rw [project_step self rank step xs token hn]
  unfold PipelineWorld.generationStep stepEvents
  refine .published (fun s => by split_ifs <;> rfl) ?_
  rw [List.append_assoc, List.append_assoc]
  refine hforward.bind ?_
  refine hpass.bind ?_
  rw [← List.append_nil (decisionMoves self rank step token)]
  refine hagree.bind ?_
  refine .published (fun s => by split_ifs <;> rfl) ?_
  exact .published (fun _ => rfl) (.pure _)

end Performs

end Step

end Dlir.Pipeline
