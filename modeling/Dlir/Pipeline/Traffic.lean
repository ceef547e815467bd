import Dlir.Framework.Matching
import Dlir.Pipeline.Accounts
import Dlir.Pipeline.Run

namespace Dlir.Runtime

/-- A layer as the events of its bounds show it. -/
inductive LayerMark
  | started (step layer : Nat)
  | completed (step layer : Nat)
  deriving DecidableEq, Repr

/-- The layer that an event shows, with its step. -/
def RunEventKind.mark : RunEventKind → Option LayerMark
  | .layerStarted layer _ step => some (.started step layer)
  | .layerCompleted layer _ step _ => some (.completed step layer)
  | _ => none

end Dlir.Runtime

namespace Dlir.Pipeline

open Dlir.Collectives Dlir.Framework Dlir.Math Dlir.Runtime Dlir.Runtime.Model PipelineRank

section Traffic

variable {n : Nat} {α : Type} (self : PipelineWorld (n + 1) α) (tokenizer : Tokenizer)

def shownActivation (step : Nat) : ShownMessage :=
  .tensor .activation (phaseOf step) step [1, rowsOf self step, self.config.hiddenSize]
    (rowsOf self step * self.config.hiddenSize * 4)

def shownToken (step token : Nat) : ShownMessage :=
  .control .tokenFeedback (phaseOf step) step (controlLength self (.token step token))

def shownDecision (step token : Nat) : ShownMessage :=
  .control .decision (phaseOf step) step (controlLength self (.decision step (decisionOf self step token)))

/-- What a rank sends in a step. -/
def stepSends (rank step token : Nat) : List (Nat × ShownMessage) :=
  (if rank < n then [(rank + 1, shownActivation self step)] else [(0, shownToken self step token)]) ++
    if rank = 0 then (List.range' 1 n).map fun destination => (destination, shownDecision self step token)
    else []

/-- What a rank receives in a step. -/
def stepReceives (rank step token : Nat) : List (Nat × ShownMessage) :=
  if rank = 0 then [(n, shownToken self step token)]
  else [(rank - 1, shownActivation self step), (0, shownDecision self step token)]

/-- What a reading sees of a step, when it sees nothing of its bounds. -/
theorem filterMap_stepEvents {β : Type} {f : RunEventKind → Option β}
    (hstart : ∀ count, f (.prefillStarted count) = none ∧ f (.decodeStepStarted count) = none)
    (hfinish : f .prefillFinished = none ∧ ∀ step, f (.decodeStepFinished step) = none)
    (hmemory : ∀ current limit, f (.memorySample current limit) = none) (rank : Rank (n + 1))
    (step token : Nat) (generated : List Nat) :
    (stepEvents self tokenizer rank step generated token).filterMap f =
      (inputEvents self rank.val step).filterMap f ++
        ((layerEvents step (layersAt self rank.val)).filterMap f ++
          ((outputEvents self rank.val step token).filterMap f ++
            (decisionEvents self rank.val step token tokenizer generated).filterMap f)) := by
  have hopen : f (if step = 0 then .prefillStarted self.manifest.promptTokenIds.length
      else .decodeStepStarted step) = none := by
    split_ifs
    · exact (hstart _).1
    · exact (hstart _).2
  have hclose : [if step = 0 then .prefillFinished else .decodeStepFinished step,
      self.memorySample rank].filterMap f = [] := by
    have hfirst : f (if step = 0 then .prefillFinished else .decodeStepFinished step) = none := by
      split_ifs
      · exact hfinish.1
      · exact hfinish.2 step
    have hsecond : f (self.memorySample rank) = none := hmemory _ _
    rw [List.filterMap_cons_none hfirst, List.filterMap_cons_none hsecond, List.filterMap_nil]
  unfold stepEvents
  rw [List.filterMap_cons_none hopen]
  simp only [List.filterMap_append, hclose, List.append_nil, List.append_assoc]

/-- A reading that sees nothing of the layers. -/
theorem filterMap_layerEvents {β : Type} {f : RunEventKind → Option β}
    (h : ∀ layer phase step, f (.layerStarted layer phase step) = none ∧
      f (.layerCompleted layer phase step 0) = none) (step : Nat) (layers : List Nat) :
    (layerEvents step layers).filterMap f = [] := by
  rw [List.filterMap_eq_nil_iff]
  intro event hevent
  obtain ⟨layer, -, hevent⟩ := List.mem_flatMap.mp hevent
  obtain ⟨hstarted, hcompleted⟩ := h layer (phaseOf step) step
  rcases List.mem_cons.mp hevent with heq | hevent
  · rw [heq]
    exact hstarted
  · rw [List.mem_singleton.mp hevent]
    exact hcompleted

theorem filterMap_tokenEvents {β : Type} {f : RunEventKind → Option β}
    (h : ∀ token text, f (.tokenGenerated token text) = none) (generated : List Nat) (token : Nat) :
    (tokenEvents self.config tokenizer generated token).filterMap f = [] := by
  unfold tokenEvents
  split_ifs
  · rfl
  · rw [List.filterMap_cons_none (h _ _), List.filterMap_nil]

theorem sent_stepEvents (rank : Rank (n + 1)) (step token : Nat) (generated : List Nat) :
    (stepEvents self tokenizer rank step generated token).filterMap RunEventKind.sent =
      stepSends self rank.val step token := by
  have hinput : (inputEvents self rank.val step).filterMap RunEventKind.sent = [] := by
    unfold inputEvents
    split_ifs
    · rfl
    · rfl
  have houtput : (outputEvents self rank.val step token).filterMap RunEventKind.sent =
      if rank.val < n then [(rank.val + 1, shownActivation self step)] else [(0, shownToken self step token)] := by
    unfold outputEvents
    split_ifs
    · rfl
    · rfl
  have hdecision : (decisionEvents self rank.val step token tokenizer generated).filterMap
      RunEventKind.sent = if rank.val = 0 then
        (List.range' 1 n).map fun destination => (destination, shownDecision self step token) else [] := by
    unfold decisionEvents
    split_ifs
    · rw [List.filterMap_cons_none rfl, List.filterMap_append,
        filterMap_tokenEvents self tokenizer (fun _ _ => rfl), List.nil_append, List.filterMap_map]
      show (List.range' 1 n).filterMap
        (some ∘ fun destination => (destination, shownDecision self step token)) = _
      rw [List.filterMap_eq_map]
    · rfl
  rw [filterMap_stepEvents self tokenizer (fun _ => ⟨rfl, rfl⟩) ⟨rfl, fun _ => rfl⟩ (fun _ _ => rfl),
    filterMap_layerEvents fun _ _ _ => ⟨rfl, rfl⟩, hinput, houtput, hdecision, List.nil_append,
    List.nil_append, stepSends]

theorem received_stepEvents (rank : Rank (n + 1)) (step token : Nat) (generated : List Nat) :
    (stepEvents self tokenizer rank step generated token).filterMap RunEventKind.received =
      stepReceives self rank.val step token := by
  have houtput : (outputEvents self rank.val step token).filterMap RunEventKind.received = [] := by
    unfold outputEvents
    split_ifs
    · rfl
    · rfl
  rw [filterMap_stepEvents self tokenizer (fun _ => ⟨rfl, rfl⟩) ⟨rfl, fun _ => rfl⟩ (fun _ _ => rfl),
    filterMap_layerEvents fun _ _ _ => ⟨rfl, rfl⟩, houtput, List.nil_append, List.nil_append]
  unfold inputEvents decisionEvents stepReceives
  by_cases hfirst : rank.val = 0
  · have hdecisions : ((List.range' 1 n).map fun destination => RunEventKind.controlSent destination
        .decision (phaseOf step) step (controlLength self (.decision step (decisionOf self step token)))
        0).filterMap RunEventKind.received = [] := by
      rw [List.filterMap_map, List.filterMap_eq_nil_iff]
      exact fun _ _ => rfl
    have htoken : RunEventKind.received (.controlReceived n .tokenFeedback (phaseOf step) step
        (controlLength self (.token step token)) 0) = some (n, shownToken self step token) := rfl
    rw [if_pos hfirst, if_pos hfirst, if_pos hfirst, List.filterMap_nil, List.nil_append,
      List.filterMap_cons_some htoken, List.filterMap_append,
      filterMap_tokenEvents self tokenizer (fun _ _ => rfl), List.nil_append, hdecisions]
  · rw [if_neg hfirst, if_neg hfirst, if_neg hfirst]
    rfl

/-- What a rank sends another one in a step, the other one receives from it. -/
theorem step_matched (source destination : Rank (n + 1)) (step token : Nat) :
    fromStream destination.val (stepSends self source.val step token) =
      fromStream source.val (stepReceives self destination.val step token) := by
  have hsource := source.isLt
  have hdestination := destination.isLt
  have hdecisions : fromStream destination.val (if source.val = 0 then
      (List.range' 1 n).map fun destination => (destination, shownDecision self step token) else []) =
      if source.val = 0 ∧ destination.val ≠ 0 then [shownDecision self step token] else [] := by
    by_cases hfirst : source.val = 0
    · rw [if_pos hfirst, fromStream_map_const List.nodup_range']
      have hmem : destination.val ∈ List.range' 1 n ↔ source.val = 0 ∧ destination.val ≠ 0 := by
        rw [List.mem_range'_1]
        omega
      simp only [hmem]
    · have hneither : ¬ (source.val = 0 ∧ destination.val ≠ 0) := fun h => hfirst h.1
      rw [if_neg hfirst, if_neg hneither, fromStream_nil]
  unfold stepSends stepReceives
  rw [fromStream_append, hdecisions]
  by_cases htarget : destination.val = 0
  · have hnone : ¬ (source.val = 0 ∧ destination.val ≠ 0) := fun h => h.2 htarget
    rw [if_pos htarget, if_neg hnone, List.append_nil, fromStream_cons, fromStream_nil]
    by_cases hlast : source.val < n
    · have hnext : source.val + 1 ≠ destination.val := by omega
      have hother : n ≠ source.val := by omega
      rw [if_pos hlast, fromStream_cons, if_neg hnext, if_neg hother, fromStream_nil]
    · have hself : n = source.val := by omega
      rw [if_neg hlast, fromStream_cons, if_pos htarget.symm, if_pos hself, fromStream_nil]
  · have hlead : source.val = 0 ∧ destination.val ≠ 0 ↔ 0 = source.val := by omega
    rw [if_neg htarget, fromStream_cons, fromStream_cons, fromStream_nil]
    simp only [hlead]
    by_cases hnext : source.val + 1 = destination.val
    · have hmore : source.val < n := by omega
      have hbefore : destination.val - 1 = source.val := by omega
      rw [if_pos hmore, fromStream_cons, if_pos hnext, if_pos hbefore, fromStream_nil]
      rfl
    · have hbefore : destination.val - 1 ≠ source.val := by omega
      have hactivation : fromStream destination.val (if source.val < n then
          [(source.val + 1, shownActivation self step)] else [(0, shownToken self step token)]) = [] := by
        split_ifs
        · rw [fromStream_cons, if_neg hnext, fromStream_nil]
        · rw [fromStream_cons, if_neg (Ne.symm htarget), fromStream_nil]
      rw [hactivation, if_neg hbefore, List.nil_append]

theorem filterMap_runEvents {β : Type} {f : RunEventKind → Option β} {g : Nat → Nat → List β}
    {rank : Rank (n + 1)} (h : ∀ step token generated,
      (stepEvents self tokenizer rank step generated token).filterMap f = g step token) (step : Nat)
    (generated tokens : List Nat) : (runEvents self tokenizer rank step generated tokens).filterMap f =
      (tokens.zipIdx step).flatMap fun entry => g entry.2 entry.1 := by
  induction tokens generalizing step generated with
  | nil => rfl
  | cons token tokens ih =>
    rw [runEvents, List.filterMap_append, h, ih, List.zipIdx_cons, List.flatMap_cons]

/-- A reading of a whole run, when it only sees its steps. -/
theorem filterMap_rankEvents {β : Type} {f : RunEventKind → Option β} {g : Nat → Nat → List β}
    {rank : Rank (n + 1)} (h : ∀ step token generated,
      (stepEvents self tokenizer rank step generated token).filterMap f = g step token)
    (hload : f .modelLoadStarted = none ∧ f .modelLoadFinished = none)
    (hbarrier : ∀ shown, (barrierEvents shown).filterMap f = [])
    (hfinish : ∀ reason, f (.generationFinished reason) = none)
    (hmemory : ∀ current limit, f (.memorySample current limit) = none) (tokens : List Nat)
    (reason : StopReason) : (rankEvents self tokenizer rank tokens reason).filterMap f =
      tokens.zipIdx.flatMap fun entry => g entry.2 entry.1 := by
  have hsample : f (self.memorySample rank) = none := hmemory _ _
  unfold rankEvents
  rw [List.filterMap_cons_none hsample, List.filterMap_cons_none hload.1,
    List.filterMap_cons_none hload.2, List.filterMap_cons_none hsample, List.filterMap_append, hbarrier,
    List.nil_append, List.filterMap_append, List.filterMap_cons_none (hfinish reason), hbarrier,
    List.append_nil, filterMap_runEvents self tokenizer h]

theorem sent_rankEvents (rank : Rank (n + 1)) (tokens : List Nat) (reason : StopReason) :
    (rankEvents self tokenizer rank tokens reason).filterMap RunEventKind.sent =
      tokens.zipIdx.flatMap fun entry => stepSends self rank.val entry.2 entry.1 :=
  filterMap_rankEvents self tokenizer (fun _ _ _ => sent_stepEvents self tokenizer rank _ _ _)
    ⟨rfl, rfl⟩ (fun _ => rfl) (fun _ => rfl) (fun _ _ => rfl) tokens reason

theorem received_rankEvents (rank : Rank (n + 1)) (tokens : List Nat) (reason : StopReason) :
    (rankEvents self tokenizer rank tokens reason).filterMap RunEventKind.received =
      tokens.zipIdx.flatMap fun entry => stepReceives self rank.val entry.2 entry.1 :=
  filterMap_rankEvents self tokenizer (fun _ _ _ => received_stepEvents self tokenizer rank _ _ _)
    ⟨rfl, rfl⟩ (fun _ => rfl) (fun _ => rfl) (fun _ _ => rfl) tokens reason

/-- The messages from one rank to another one in a run that chooses these tokens. -/
def messagesBetween (source destination : Rank (n + 1)) (tokens : List Nat) : List ShownMessage :=
  tokens.zipIdx.flatMap fun entry =>
    fromStream destination.val (stepSends self source.val entry.2 entry.1)

theorem sent_between (source destination : Rank (n + 1)) (tokens : List Nat) (reason : StopReason) :
    fromStream destination.val
        ((rankEvents self tokenizer source tokens reason).filterMap RunEventKind.sent) =
      messagesBetween self source destination tokens := by
  rw [sent_rankEvents, fromStream_flatMap]
  rfl

theorem received_between (source destination : Rank (n + 1)) (tokens : List Nat) (reason : StopReason) :
    fromStream source.val
        ((rankEvents self tokenizer destination tokens reason).filterMap RunEventKind.received) =
      messagesBetween self source destination tokens := by
  rw [received_rankEvents, fromStream_flatMap]
  exact List.flatMap_congr fun entry _ => (step_matched self source destination entry.2 entry.1).symm

/-- What is shown of some layers in a step: each is completed before the next one is started. -/
def layerMarks (step : Nat) (layers : List Nat) : List LayerMark :=
  layers.flatMap fun layer => [.started step layer, .completed step layer]

theorem marks_stepEvents (rank : Rank (n + 1)) (step token : Nat) (generated : List Nat) :
    (stepEvents self tokenizer rank step generated token).filterMap RunEventKind.mark =
      layerMarks step (layersAt self rank.val) := by
  have hlayers : ∀ layers, (layerEvents step layers).filterMap RunEventKind.mark = layerMarks step layers := by
    intro layers
    induction layers with
    | nil => rfl
    | cons layer layers ih => exact congrArg (.started step layer :: .completed step layer :: ·) ih
  have hinput : (inputEvents self rank.val step).filterMap RunEventKind.mark = [] := by
    unfold inputEvents
    split_ifs
    · rfl
    · rfl
  have houtput : (outputEvents self rank.val step token).filterMap RunEventKind.mark = [] := by
    unfold outputEvents
    split_ifs
    · rfl
    · rfl
  have hdecision : (decisionEvents self rank.val step token tokenizer generated).filterMap
      RunEventKind.mark = [] := by
    unfold decisionEvents
    split_ifs
    · rw [List.filterMap_cons_none rfl, List.filterMap_append,
        filterMap_tokenEvents self tokenizer (fun _ _ => rfl), List.nil_append, List.filterMap_map,
        List.filterMap_eq_nil_iff]
      exact fun _ _ => rfl
    · rfl
  rw [filterMap_stepEvents self tokenizer (fun _ => ⟨rfl, rfl⟩) ⟨rfl, fun _ => rfl⟩ (fun _ _ => rfl),
    hinput, hlayers, houtput, hdecision, List.nil_append, List.append_nil, List.append_nil]

/-- A rank shows its layers in every step. -/
theorem marks_rankEvents (rank : Rank (n + 1)) (tokens : List Nat) (reason : StopReason) :
    (rankEvents self tokenizer rank tokens reason).filterMap RunEventKind.mark =
      (List.range tokens.length).flatMap fun step => layerMarks step (layersAt self rank.val) := by
  rw [filterMap_rankEvents self tokenizer (fun _ _ _ => marks_stepEvents self tokenizer rank _ _ _)
    ⟨rfl, rfl⟩ (fun _ => rfl) (fun _ => rfl) (fun _ _ => rfl), List.range_eq_range',
    ← List.zipIdx_map_snd 0 tokens, List.flatMap_map]

/-- The layers of the ranks are those of the model. -/
theorem layersAt_flatMap :
    (List.range (n + 1)).flatMap (layersAt self) = List.range self.config.numHiddenLayers := by
  have hslices := flatMap_slices (layerBound self.manifest.spec (n + 1)) layerBound_monotone
    layerBound_zero (List.range self.config.numHiddenLayers) (n + 1)
  have hend : layerBound self.manifest.spec (n + 1) (n + 1) = self.config.numHiddenLayers :=
    layerBound_end (Nat.succ_pos n)
  rw [hend, List.take_of_length_le List.length_range.le] at hslices
  rw [← hslices]
  refine List.flatMap_congr fun rank hrank => ?_
  have hnext := layerEnd_le self.manifest.spec (List.mem_range.mp hrank)
  have hle : layerBound self.manifest.spec (n + 1) rank ≤ layerBound self.manifest.spec (n + 1) (rank + 1) :=
    layerBound_monotone (Nat.le_succ rank)
  exact (range_slice ((Nat.add_sub_cancel' hle).trans_le hnext)).symm

theorem count_layerMarks (step step' layer : Nat) (layers : List Nat) :
    (layerMarks step' layers).count (.started step layer) =
        (if step' = step then layers.count layer else 0) ∧
      (layerMarks step' layers).count (.completed step layer) =
        if step' = step then layers.count layer else 0 := by
  induction layers with
  | nil => simp [layerMarks]
  | cons head layers ih =>
    obtain ⟨hstarted, hcompleted⟩ := ih
    have hcons : layerMarks step' (head :: layers) =
        .started step' head :: .completed step' head :: layerMarks step' layers := rfl
    by_cases hstep : step' = step
    · rw [if_pos hstep] at hstarted hcompleted
      rw [hcons, if_pos hstep, hstep]
      rw [hstep] at hstarted hcompleted
      simp [List.count_cons, hstarted, hcompleted]
    · rw [if_neg hstep] at hstarted hcompleted
      rw [hcons, if_neg hstep]
      simp [hstarted, hcompleted, hstep]

/-- In every step each layer of the model is started and completed once, at one of the ranks. -/
theorem layer_once {tokens : List Nat} {step layer : Nat} (hstep : step < tokens.length)
    (hlayer : layer < self.config.numHiddenLayers) (reason : StopReason) {mark : LayerMark}
    (hmark : mark = .started step layer ∨ mark = .completed step layer) :
    ((List.finRange (n + 1)).flatMap fun rank =>
      (rankEvents self tokenizer rank tokens reason).filterMap RunEventKind.mark).count mark = 1 := by
  have hcount : ∀ step' layers, (layerMarks step' layers).count mark =
      if step' = step then layers.count layer else 0 := by
    intro step' layers
    obtain ⟨hstarted, hcompleted⟩ := count_layerMarks step step' layer layers
    rcases hmark with rfl | rfl
    · exact hstarted
    · exact hcompleted
  have hrank : ∀ rank : Rank (n + 1), ((rankEvents self tokenizer rank tokens reason).filterMap
      RunEventKind.mark).count mark = (layersAt self rank.val).count layer := by
    intro rank
    rw [marks_rankEvents, List.count_flatMap]
    show ((List.range tokens.length).map fun step' =>
      (layerMarks step' (layersAt self rank.val)).count mark).sum = _
    simp only [hcount]
    show ∑ step' ∈ Finset.range tokens.length,
      (if step' = step then (layersAt self rank.val).count layer else 0) = _
    rw [Finset.sum_ite_eq' (Finset.range tokens.length), if_pos (Finset.mem_range.mpr hstep)]
  have hall : (List.finRange (n + 1)).flatMap (fun rank => layersAt self rank.val) =
      List.range self.config.numHiddenLayers := by
    rw [← layersAt_flatMap, ← List.map_coe_finRange_eq_range, List.flatMap_map]
  rw [List.count_flatMap]
  show ((List.finRange (n + 1)).map fun rank => ((rankEvents self tokenizer rank tokens
    reason).filterMap RunEventKind.mark).count mark).sum = 1
  simp only [hrank]
  have hmodel := congrArg (List.count layer) hall
  rw [List.count_flatMap] at hmodel
  exact hmodel.trans (List.count_eq_one_of_mem List.nodup_range (List.mem_range.mpr hlayer))

section Volumes

theorem total_stepSends (size : ShownMessage → Nat) (rank step token : Nat) :
    ShownMessage.total size (stepSends self rank step token) =
      (if rank < n then size (shownActivation self step) else size (shownToken self step token)) +
        if rank = 0 then n * size (shownDecision self step token) else 0 := by
  have hdecisions : ShownMessage.total size
      ((List.range' 1 n).map fun destination => (destination, shownDecision self step token)) =
      n * size (shownDecision self step token) := by
    rw [ShownMessage.total, List.map_map]
    show ((List.range' 1 n).map fun _ => size (shownDecision self step token)).sum = _
    rw [List.map_const', List.sum_replicate, List.length_range', smul_eq_mul]
  unfold stepSends
  rw [ShownMessage.total_append]
  congr 1
  · split_ifs
    · simp
    · simp
  · split_ifs
    · exact hdecisions
    · rfl

theorem total_stepReceives (size : ShownMessage → Nat) (rank step token : Nat) :
    ShownMessage.total size (stepReceives self rank step token) =
      if rank = 0 then size (shownToken self step token)
      else size (shownActivation self step) + size (shownDecision self step token) := by
  unfold stepReceives
  split_ifs
  · simp
  · simp

/-- A total over the steps of a run that does not depend on its tokens. -/
theorem total_steps {size : ShownMessage → Nat} {messages : Nat → Nat → List (Nat × ShownMessage)}
    {g : Nat → Nat} (h : ∀ step token, ShownMessage.total size (messages step token) = g step)
    (tokens : List Nat) :
    ShownMessage.total size (tokens.zipIdx.flatMap fun entry => messages entry.2 entry.1) =
      ∑ step ∈ Finset.range tokens.length, g step := by
  have hmap : (tokens.zipIdx.map fun entry => ShownMessage.total size (messages entry.2 entry.1)) =
      (tokens.zipIdx.map Prod.snd).map g := by
    rw [List.map_map]
    exact List.map_congr_left fun entry _ => h entry.2 entry.1
  rw [ShownMessage.total_flatMap, hmap, List.zipIdx_map_snd, ← List.range_eq_range']
  rfl

/-- The same in every step. -/
theorem total_steps_const {size : ShownMessage → Nat} {messages : Nat → Nat → List (Nat × ShownMessage)}
    {count : Nat} (h : ∀ step token, ShownMessage.total size (messages step token) = count)
    (tokens : List Nat) :
    ShownMessage.total size (tokens.zipIdx.flatMap fun entry => messages entry.2 entry.1) =
      tokens.length * count := by
  rw [total_steps (g := fun _ => count) h, Finset.sum_const, Finset.card_range, smul_eq_mul]

/-- The steps of a run add the positions of the prompt, and one more each after the first. -/
theorem sum_rowsOf (steps : Nat) : ∑ step ∈ Finset.range (steps + 1), rowsOf self step =
    self.manifest.promptTokenIds.length + steps := by
  induction steps with
  | zero => rfl
  | succ steps ih =>
    rw [Finset.sum_range_succ, ih]
    rfl

/-- What a rank has sent and received in a run of some steps, but for the lengths of its control
messages. Its counters have 64 bits. -/
structure Volumes (run : PipelineWorld (n + 1) α) (rank steps : Nat) (report : CommunicationReport) :
    Prop where
  tensorMessagesSent : report.tensorMessagesSent = (if rank < n then steps else 0) % 2 ^ 64
  tensorMessagesReceived : report.tensorMessagesReceived = (if rank = 0 then 0 else steps) % 2 ^ 64
  tensorBytesSent : report.tensorBytesSent = (if rank < n then
    (run.manifest.promptTokenIds.length + (steps - 1)) * (run.config.hiddenSize * 4) else 0) % 2 ^ 64
  tensorBytesReceived : report.tensorBytesReceived = (if rank = 0 then 0 else
    (run.manifest.promptTokenIds.length + (steps - 1)) * (run.config.hiddenSize * 4)) % 2 ^ 64
  controlMessagesSent : report.controlMessagesSent =
    (if rank = 0 then steps * n else if rank < n then 0 else steps) % 2 ^ 64
  controlMessagesReceived : report.controlMessagesReceived = steps % 2 ^ 64

/-- The same as the events of a rank show it. -/
structure Shown (run : PipelineWorld (n + 1) α) (rank steps : Nat)
    (sent received : List (Nat × ShownMessage)) : Prop where
  tensorsSent : ShownMessage.total (·.tensors) sent = if rank < n then steps else 0
  tensorsReceived : ShownMessage.total (·.tensors) received = if rank = 0 then 0 else steps
  tensorBytesSent : ShownMessage.total (·.tensorBytes) sent = if rank < n then
    (run.manifest.promptTokenIds.length + (steps - 1)) * (run.config.hiddenSize * 4) else 0
  tensorBytesReceived : ShownMessage.total (·.tensorBytes) received = if rank = 0 then 0 else
    (run.manifest.promptTokenIds.length + (steps - 1)) * (run.config.hiddenSize * 4)
  controlsSent : ShownMessage.total (·.controls) sent =
    if rank = 0 then steps * n else if rank < n then 0 else steps
  controlsReceived : ShownMessage.total (·.controls) received = steps

theorem shown_rankEvents (hn : 0 < n) (rank : Rank (n + 1)) (steps : Nat) {tokens : List Nat}
    (hsteps : tokens.length = steps + 1) (reason : StopReason) :
    Shown self rank.val tokens.length
      ((rankEvents self tokenizer rank tokens reason).filterMap RunEventKind.sent)
      ((rankEvents self tokenizer rank tokens reason).filterMap RunEventKind.received) := by
  rw [sent_rankEvents, received_rankEvents]
  have hrows : ∑ step ∈ Finset.range tokens.length, rowsOf self step * self.config.hiddenSize * 4 =
      (self.manifest.promptTokenIds.length + (tokens.length - 1)) * (self.config.hiddenSize * 4) := by
    simp only [Nat.mul_assoc]
    rw [← Finset.sum_mul, hsteps, sum_rowsOf, Nat.add_sub_cancel]
  have hsent : ∀ {size : ShownMessage → Nat} {c : Nat}, (∀ step token,
      ShownMessage.total size (stepSends self rank.val step token) = c) → ShownMessage.total size
        (tokens.zipIdx.flatMap fun entry => stepSends self rank.val entry.2 entry.1) =
          tokens.length * c := fun h => total_steps_const h tokens
  have hreceived : ∀ {size : ShownMessage → Nat} {c : Nat}, (∀ step token,
      ShownMessage.total size (stepReceives self rank.val step token) = c) → ShownMessage.total size
        (tokens.zipIdx.flatMap fun entry => stepReceives self rank.val entry.2 entry.1) =
          tokens.length * c := fun h => total_steps_const h tokens
  constructor
  · rw [hsent (c := if rank.val < n then 1 else 0)]
    · split_ifs
      · rw [Nat.mul_one]
      · rfl
    · intro step token
      rw [total_stepSends]
      simp [shownActivation, shownToken, shownDecision]
  · rw [hreceived (c := if rank.val = 0 then 0 else 1)]
    · split_ifs
      · rfl
      · rw [Nat.mul_one]
    · intro step token
      rw [total_stepReceives]
      simp [shownActivation, shownToken, shownDecision]
  · rw [total_steps
      (g := fun step => if rank.val < n then rowsOf self step * self.config.hiddenSize * 4 else 0)]
    · split_ifs
      · rw [hrows]
      · rw [Finset.sum_const_zero]
    · intro step token
      rw [total_stepSends]
      simp [shownActivation, shownToken, shownDecision]
  · rw [total_steps
      (g := fun step => if rank.val = 0 then 0 else rowsOf self step * self.config.hiddenSize * 4)]
    · split_ifs
      · rw [Finset.sum_const_zero]
      · rw [hrows]
    · intro step token
      rw [total_stepReceives]
      simp [shownActivation, shownToken, shownDecision]
  · rw [hsent (c := if rank.val = 0 then n else if rank.val < n then 0 else 1)]
    · split_ifs
      · rfl
      · rfl
      · rw [Nat.mul_one]
    · intro step token
      rw [total_stepSends]
      by_cases hfirst : rank.val = 0
      · simp [shownActivation, shownDecision, hfirst, hn]
      · simp [shownActivation, shownToken, hfirst]
  · rw [hreceived (c := 1), Nat.mul_one]
    intro step token
    rw [total_stepReceives]
    simp [shownActivation, shownToken, shownDecision]

theorem volumes_rankEvents (hn : 0 < n) (rank : Rank (n + 1)) (steps : Nat) {tokens : List Nat}
    (hsteps : tokens.length = steps + 1) (reason : StopReason) :
    Volumes self rank.val tokens.length
      ((rankEvents self tokenizer rank tokens reason).foldl CommunicationReport.record {}) := by
  have hcounts := CommunicationReport.counts_events (rankEvents self tokenizer rank tokens reason)
  have hshown := shown_rankEvents self tokenizer hn rank steps hsteps reason
  constructor
  · rw [hcounts.tensorMessagesSent, hshown.tensorsSent]
  · rw [hcounts.tensorMessagesReceived, hshown.tensorsReceived]
  · rw [hcounts.tensorBytesSent, hshown.tensorBytesSent]
  · rw [hcounts.tensorBytesReceived, hshown.tensorBytesReceived]
  · rw [hcounts.controlMessagesSent, hshown.controlsSent]
  · rw [hcounts.controlMessagesReceived, hshown.controlsReceived]

theorem peer_of_sent {rank : Rank (n + 1)} {step token : Nat} {entry : Nat × ShownMessage}
    (h : entry ∈ stepSends self rank.val step token) : entry.1 < n + 1 := by
  rcases List.mem_append.mp h with hout | hdecision
  · split_ifs at hout with hmore
    · rw [List.mem_singleton.mp hout]
      exact Nat.succ_lt_succ hmore
    · rw [List.mem_singleton.mp hout]
      exact Nat.succ_pos n
  · split_ifs at hdecision
    · obtain ⟨destination, hdestination, rfl⟩ := List.mem_map.mp hdecision
      have hrange := List.mem_range'_1.mp hdestination
      show destination < n + 1
      omega
    · cases hdecision

theorem peer_of_received {rank : Rank (n + 1)} {step token : Nat} {entry : Nat × ShownMessage}
    (h : entry ∈ stepReceives self rank.val step token) : entry.1 < n + 1 := by
  have hrank := rank.isLt
  unfold stepReceives at h
  split_ifs at h
  · rw [List.mem_singleton.mp h]
    exact Nat.lt_succ_self n
  · rcases List.mem_cons.mp h with heq | hrest
    · rw [heq]
      show rank.val - 1 < n + 1
      omega
    · rw [List.mem_singleton.mp hrest]
      exact Nat.succ_pos n

/-- As much is received as is sent. -/
theorem total_balanced (size : ShownMessage → Nat) (tokens : List Nat) (reason : StopReason) :
    ∑ rank : Rank (n + 1), ShownMessage.total size
        ((rankEvents self tokenizer rank tokens reason).filterMap RunEventKind.sent) =
      ∑ rank : Rank (n + 1), ShownMessage.total size
        ((rankEvents self tokenizer rank tokens reason).filterMap RunEventKind.received) := by
  refine sum_matched size (fun source destination =>
    (sent_between self tokenizer source destination tokens reason).trans
      (received_between self tokenizer source destination tokens reason).symm) ?_ ?_
  · intro rank entry hentry
    rw [sent_rankEvents] at hentry
    obtain ⟨step, -, hentry⟩ := List.mem_flatMap.mp hentry
    exact peer_of_sent self hentry
  · intro rank entry hentry
    rw [received_rankEvents] at hentry
    obtain ⟨step, -, hentry⟩ := List.mem_flatMap.mp hentry
    exact peer_of_received self hentry

/-- What all ranks of a run send together. -/
theorem sum_sent (hn : 0 < n) (steps : Nat) {tokens : List Nat} (hsteps : tokens.length = steps + 1)
    (reason : StopReason) :
    ∑ rank : Rank (n + 1), ShownMessage.total (·.tensors)
        ((rankEvents self tokenizer rank tokens reason).filterMap RunEventKind.sent) = n * (steps + 1) ∧
    ∑ rank : Rank (n + 1), ShownMessage.total (·.tensorBytes)
        ((rankEvents self tokenizer rank tokens reason).filterMap RunEventKind.sent) =
      n * ((self.manifest.promptTokenIds.length + steps) * (self.config.hiddenSize * 4)) ∧
    ∑ rank : Rank (n + 1), ShownMessage.total (·.controls)
        ((rankEvents self tokenizer rank tokens reason).filterMap RunEventKind.sent) =
      (n + 1) * (steps + 1) := by
  have hshown := fun rank => shown_rankEvents self tokenizer hn rank steps hsteps reason
  have hbelow : ∀ c : Nat, (∑ rank : Rank (n + 1), if rank.val < n then c else 0) = n * c := by
    intro c
    rw [Fin.sum_univ_castSucc]
    simp
  refine ⟨?_, ?_, ?_⟩
  · rw [Finset.sum_congr rfl fun rank _ => (hshown rank).tensorsSent, hbelow, hsteps]
  · rw [Finset.sum_congr rfl fun rank _ => (hshown rank).tensorBytesSent, hbelow, hsteps,
      Nat.add_sub_cancel]
  · rw [total_balanced, Finset.sum_congr rfl fun rank _ => (hshown rank).controlsReceived, hsteps]
    simp

/-- Where every message has some bytes, there are no more messages than bytes. -/
theorem controls_le {rank : Rank (n + 1)} {tokens : List Nat} (reason : StopReason)
    (hwritten : ∀ k token : Nat, tokens[k]? = some token → 0 < controlLength self (.token k token) ∧
      0 < controlLength self (.decision k (decisionOf self k token))) :
    ShownMessage.total (·.controls)
        ((rankEvents self tokenizer rank tokens reason).filterMap RunEventKind.sent) ≤
      ShownMessage.total (·.controlBytes)
        ((rankEvents self tokenizer rank tokens reason).filterMap RunEventKind.sent) := by
  rw [sent_rankEvents, ShownMessage.total_flatMap, ShownMessage.total_flatMap]
  refine List.sum_le_sum fun entry hentry => ?_
  obtain ⟨htoken, hdecision⟩ :=
    hwritten entry.2 entry.1 (List.mem_zipIdx_iff_getElem?.mp hentry)
  rw [total_stepSends, total_stepSends]
  refine Nat.add_le_add ?_ ?_
  · split_ifs
    · exact Nat.zero_le _
    · exact htoken
  · split_ifs
    · exact Nat.mul_le_mul_left n hdecision
    · exact Nat.le_refl 0

/-- As many control bytes are received as are sent. -/
theorem controlBytes_balanced (tokens : List Nat) (reason : StopReason) :
    (∑ rank : Rank (n + 1), ((rankEvents self tokenizer rank tokens reason).foldl
        CommunicationReport.record {}).controlBytesSent) % 2 ^ 64 =
      (∑ rank : Rank (n + 1), ((rankEvents self tokenizer rank tokens reason).foldl
        CommunicationReport.record {}).controlBytesReceived) % 2 ^ 64 := by
  have hcounts := fun rank : Rank (n + 1) =>
    CommunicationReport.counts_events (rankEvents self tokenizer rank tokens reason)
  rw [Finset.sum_congr rfl fun rank _ => (hcounts rank).controlBytesSent,
    Finset.sum_congr rfl fun rank _ => (hcounts rank).controlBytesReceived, ← Finset.sum_nat_mod,
    ← Finset.sum_nat_mod]
  exact congrArg (· % 2 ^ 64) (total_balanced self tokenizer ShownMessage.controlBytes tokens reason)

end Volumes

end Traffic

end Dlir.Pipeline
