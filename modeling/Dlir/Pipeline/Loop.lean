import Dlir.Pipeline.Calls

namespace Dlir.Pipeline

open Dlir.Collectives Dlir.Framework Dlir.Math Dlir.Runtime Dlir.Runtime.Model PipelineRank

section Loop

variable {n : Nat} {α : Type} (self : PipelineWorld (n + 1) α) (tokenizer : Tokenizer)

/-- The decision after a token says whether a generation stops there. -/
theorem decisionOf_eq (step token : Nat) : decisionOf self step token =
    match stopsAt self.config self.manifest.requestedMaxNewTokens
      self.manifest.effectiveMaxNewTokens step token with
    | some reason => .stop reason
    | none => .continueGeneration := by
  unfold decisionOf stopsAt PipelineWorld.limit
  by_cases heos : token = self.config.eosTokenId
  · rw [if_pos heos, if_pos heos]
  · rw [if_neg heos, if_neg heos]
    by_cases hlimit : step + 1 ≥ self.manifest.effectiveMaxNewTokens
    · rw [if_pos hlimit, if_pos hlimit]
      rfl
    · rw [if_neg hlimit, if_neg hlimit]

/-- What a rank publishes in the steps that choose these tokens. -/
def runEvents (rank : Rank (n + 1)) : Nat → List Nat → List Nat → List RunEventKind
  | _, _, [] => []
  | step, generated, token :: tokens =>
    stepEvents self tokenizer rank step generated token ++
      runEvents rank (step + 1) (generatedWith self.config generated token) tokens

theorem stepTrace_ne (hn : 0 < n) (step : Nat) (xs : Nat → Tensor α) (token : Nat) :
    ∀ x ∈ stepTrace self step xs token, x.1 ≠ x.2.1 := by
  intro x hx
  rcases List.mem_append.mp hx with hrelay | hrest
  · exact relayTrace_ne (List.nodup_finRange (n + 1)) x hrelay
  · rcases List.mem_cons.mp hrest with heq | hscatter
    · rw [heq]
      show Fin.last n ≠ 0
      rw [Ne, Fin.ext_iff]
      exact hn.ne'
    · obtain ⟨d, hd, rfl⟩ := List.mem_map.mp hscatter
      exact (mem_others.mp hd).symm

/-- Where a rank stands before a step. -/
structure Ready (run : PipelineWorld (n + 1) α) (rank : Rank (n + 1)) (step : Nat) (ids : List Nat)
    (generated : List Nat) (kv : Nat → Model.KvCache α) (s : PipelineGeneration α) : Prop where
  cache : s.cache = kv rank.val
  decodes : s.decodeForwardCount = step - 1
  generated : s.generatedTokens = if rank = 0 then generated else []
  input : rank = 0 → run.stepInput step s.previousToken = (tokenRow ids).mapError .tensor

/-- Where a rank stands after the last step. -/
structure Finished (rank : Rank (n + 1)) (steps : Nat) (generated : List Nat)
    (kv : Nat → Model.KvCache α) (s : PipelineGeneration α) : Prop where
  cache : s.cache = kv rank.val
  decodes : s.decodeForwardCount = steps - 1
  generated : s.generatedTokens = if rank = 0 then generated else []

variable {self tokenizer}

/-- A step leaves a rank ready for the next one. -/
theorem Ready.next {rank : Rank (n + 1)} {step : Nat} {ids generated : List Nat}
    {kv kv' : Nat → Model.KvCache α} {s : PipelineGeneration α}
    (h : Ready self rank step ids generated kv s) {token : Nat} (hne : token ≠ self.config.eosTokenId) :
    Ready self rank (step + 1) [token] (generatedWith self.config generated token) kv'
      (afterStep self rank step s (kv' rank.val) token) := by
  have hcount : (if step = 0 then s.decodeForwardCount else s.decodeForwardCount + 1) = step := by
    rw [h.decodes]
    split_ifs <;> omega
  unfold afterStep agreed afterToken generatedWith
  rw [if_neg hne, if_neg hne, hcount]
  by_cases hfirst : rank = 0
  · have hgenerated := h.generated
    rw [if_pos hfirst] at hgenerated
    rw [if_pos hfirst]
    refine ⟨rfl, rfl, ?_, fun _ => rfl⟩
    show s.generatedTokens ++ [token] = _
    rw [if_pos hfirst, hgenerated]
  · have hgenerated := h.generated
    rw [if_neg hfirst] at hgenerated
    rw [if_neg hfirst]
    refine ⟨rfl, rfl, ?_, fun hrank => absurd hrank hfirst⟩
    rw [if_neg hfirst]
    exact hgenerated

theorem Ready.last {rank : Rank (n + 1)} {step : Nat} {ids generated : List Nat}
    {kv kv' : Nat → Model.KvCache α} {s : PipelineGeneration α}
    (h : Ready self rank step ids generated kv s) (token : Nat) :
    Finished rank (step + 1) (generatedWith self.config generated token) kv'
      (afterStep self rank step s (kv' rank.val) token) := by
  have hcount : (if step = 0 then s.decodeForwardCount else s.decodeForwardCount + 1) = step := by
    rw [h.decodes]
    split_ifs <;> omega
  have hgenerated := h.generated
  unfold afterStep agreed afterToken generatedWith
  rw [hcount]
  by_cases hfirst : rank = 0
  · rw [if_pos hfirst] at hgenerated
    rw [if_pos hfirst]
    by_cases heos : token = self.config.eosTokenId
    · rw [if_pos heos, if_pos heos]
      exact ⟨rfl, rfl, by rw [if_pos hfirst]; exact hgenerated⟩
    · rw [if_neg heos, if_neg heos]
      refine ⟨rfl, rfl, ?_⟩
      show s.generatedTokens ++ [token] = _
      rw [if_pos hfirst, hgenerated]
  · rw [if_neg hfirst] at hgenerated
    rw [if_neg hfirst]
    exact ⟨rfl, rfl, by rw [if_neg hfirst]; exact hgenerated⟩

/-- Token IDs have 32 bits. -/
def SmallTokens (argmax : Tensor α → Except CandleError (Tensor Nat)) : Prop :=
  ∀ logits best, argmax logits = .ok best → ∀ token ∈ best.data, token < 2 ^ 32

theorem greedyToken_lt {argmax : Tensor α → Except CandleError (Tensor Nat)}
    (hargmax : SmallTokens argmax) {logits : Tensor α} {token : Nat}
    (h : greedyToken argmax logits = .ok token) : token < 2 ^ 32 := by
  simp only [greedyToken, bind_eq_ok] at h
  obtain ⟨squeezed, -, best, hbest, hscalar⟩ := h
  refine hargmax squeezed best hbest token ?_
  unfold toScalar at hscalar
  split at hscalar
  · rename_i a hshape hdata
    obtain rfl := Except.ok.inj hscalar
    rw [hdata]
    exact List.mem_cons_self
  · cases hscalar

/-- What a pipeline relies on. -/
structure Dependable {world : Nat} (run : PipelineWorld world α) : Prop where
  lib : run.lib.Documented
  codec : run.codec.Documented
  compact : Compact run.codec
  argmax : SmallTokens run.argmax

variable {found : GenerationWorld α} {model : Llama (Tensor α) (RotaryEmbedding α)}

/-- The loop of every rank while one process generates. -/
theorem generationLoop_performs (hrun : Dependable self) (hlib : found.lib = self.lib)
    (hargmax : found.argmax = self.argmax) (hn : 0 < n) (hlayers : n + 1 ≤ self.config.numHiddenLayers)
    (hmodel : Llama.Loaded self.lib self.config model) {step : Nat}
    {at_ last : Model.KvCache α × List Nat} {ids tokens : List Nat} {reason : StopReason}
    (hgenerates : found.Generates self.config self.manifest.requestedMaxNewTokens
      self.manifest.effectiveMaxNewTokens model tokenizer step at_ ids tokens reason last)
    {kv : Nat → Model.KvCache α} (habreast : Abreast self model at_.1 kv)
    (hlength : at_.2.length = step) (hids : ids.length = rowsOf self step)
    (hsteps : step + tokens.length ≤ 2 ^ 60) :
    ∃ trace kv', (∀ x ∈ trace, x.1 ≠ x.2.1) ∧ Abreast self model last.1 kv' ∧
      ∀ rank s passes, Ready self rank step ids at_.2 kv s → tokens.length ≤ passes → ∃ s',
        Performs (project rank trace) (self.generationLoop rank (assignmentOf self rank)
          (partAt self model rank.val) (if rank = 0 then some tokenizer else none) passes step s)
          (runEvents self tokenizer rank step at_.2 tokens) (s', reason) ∧
        Finished rank (step + tokens.length) last.2 kv' s' := by
  have hcall : ∀ {step token : Nat} {s s' : Model.KvCache α × List Nat} {ids : List Nat}
      {kv : Nat → Model.KvCache α}, found.Chooses self.config model tokenizer s ids token s' →
      Abreast self model s.1 kv → ids.length = rowsOf self step → ∃ input xs kv',
        tokenRow ids = .ok input ∧ Turn self model step input xs kv kv' token ∧
        Abreast self model s'.1 kv' := by
    intro step token s s' ids kv hchooses habreast hids
    obtain ⟨input, logits, hinput, hforward, htoken⟩ := GenerationWorld.choose_ok hchooses.call
    rw [hlib] at hforward
    rw [hargmax] at htoken
    obtain ⟨xs, kv', hturn, hnext⟩ := turn_of_call hrun.lib hn hlayers hmodel habreast hinput hforward
      hids htoken (greedyToken_lt hrun.argmax htoken)
    exact ⟨input, xs, kv', hinput, hturn, hnext⟩
  have hperforms : ∀ {step token : Nat} {s s' : Model.KvCache α × List Nat} {ids : List Nat}
      {kv kv' : Nat → Model.KvCache α} {input : TokenTensor} {xs : Nat → Tensor α} {rank : Rank (n + 1)}
      {t : PipelineGeneration α}, found.Chooses self.config model tokenizer s ids token s' →
      tokenRow ids = .ok input → Turn self model step input xs kv kv' token → s.2.length = step →
      step < 2 ^ 60 → Ready self rank step ids s.2 kv t →
      Performs (project rank (stepTrace self step xs token))
        (self.generationStep rank (assignmentOf self rank) (partAt self model rank.val)
          (if rank = 0 then some tokenizer else none) step t)
        (stepEvents self tokenizer rank step s.2 token)
        (afterStep self rank step t (kv' rank.val) token, decisionOf self step token) := by
    intro step token s s' ids kv kv' input xs rank t hchooses hinput hturn hlength hstep hready
    refine generationStep_performs hturn hstep rank hn hrun.codec hrun.compact hready.cache ?_ ?_ hlength
      hchooses.text
    · intro hfirst
      rw [hready.input hfirst, hinput]
      rfl
    · intro hfirst
      rw [hready.generated, if_pos hfirst]
  unfold GenerationWorld.Generates at hgenerates
  induction hgenerates generalizing kv with
  | @last step s s' ids token reason hchooses hstop =>
    obtain ⟨input, xs, kv', hinput, hturn, hnext⟩ := hcall hchooses habreast hids
    have hdecision := decisionOf_eq self step token
    rw [hstop] at hdecision
    refine ⟨stepTrace self step xs token, kv', stepTrace_ne self hn step xs token, hnext, ?_⟩
    intro rank t passes hready hpasses
    obtain ⟨passes, rfl⟩ := Nat.exists_eq_add_of_lt (show 0 < passes from hpasses)
    have hstep := hperforms hchooses hinput hturn hlength (by simp at hsteps; omega) hready
    rw [hdecision] at hstep
    have hlast : Finished rank _ _ kv' _ := hready.last token
    rw [← hchooses.generated] at hlast
    refine ⟨afterStep self rank step t (kv' rank.val) token, ?_, hlast⟩
    rw [Nat.zero_add, PipelineWorld.generationLoop, ← List.append_nil (project rank _)]
    exact hstep.bind (.pure _)
  | @next step s s' s'' ids token tokens reason hchooses hstop hrest ih =>
    obtain ⟨input, xs, kv', hinput, hturn, hnext⟩ := hcall hchooses habreast hids
    have hne : token ≠ self.config.eosTokenId := by
      intro heos
      rw [stopsAt, if_pos heos] at hstop
      cases hstop
    have hgenerated : s'.2 = s.2 ++ [token] := by
      rw [hchooses.generated, generatedWith, if_neg hne]
    have hlength' : s'.2.length = step + 1 := by
      rw [hgenerated, List.length_append, hlength, List.length_singleton]
    have hrows : [token].length = rowsOf self (step + 1) := rfl
    rw [List.length_cons] at hsteps
    obtain ⟨trace, kv'', hne', habreast', hranks⟩ := ih hnext hlength' hrows (by omega)
    have hdecision := decisionOf_eq self step token
    rw [hstop] at hdecision
    refine ⟨stepTrace self step xs token ++ trace, kv'', ?_, habreast', ?_⟩
    · intro x hx
      rcases List.mem_append.mp hx with hfirst | hlater
      · exact stepTrace_ne self hn step xs token x hfirst
      · exact hne' x hlater
    · intro rank t passes hready hpasses
      rw [List.length_cons] at hpasses
      obtain ⟨passes, rfl⟩ := Nat.exists_eq_add_of_lt (show 0 < passes by omega)
      have hstep := hperforms hchooses hinput hturn hlength (by omega) hready
      rw [hdecision] at hstep
      have hready' : Ready self rank (step + 1) [token] _ kv' _ := hready.next hne
      rw [← hchooses.generated] at hready'
      obtain ⟨t', hloop, hfinished⟩ := hranks rank _ passes hready' (by omega)
      refine ⟨t', ?_, ?_⟩
      · rw [Nat.zero_add, PipelineWorld.generationLoop, project_append, runEvents, ← hchooses.generated]
        exact hstep.bind hloop
      · rw [List.length_cons, Nat.add_comm tokens.length 1, ← Nat.add_assoc]
        exact hfinished

end Loop

end Dlir.Pipeline
