import Dlir.Collectives.Rendezvous
import Dlir.Framework.Feedback
import Dlir.Runtime.Memory
import Dlir.Runtime.Model.Composition
import Dlir.Runtime.Model.Tokens
import Dlir.Runtime.Report

namespace Dlir.Runtime

open Dlir.Collectives Dlir.Framework Dlir.Runtime.Model

/-- Failures of a generation on one process. -/
inductive GenerationError
  | runtime (error : DlirError)
  | artifact (message : String)
  | emptyPrompt
  | promptTooLong (promptTokens maxContext : Nat)
  | placementFailed (requiredBytes budgetBytes : Nat)
  | tokenizer (message : String)
  deriving DecidableEq, Repr

/-- Fixed chat formats. -/
inductive PromptTemplate
  | smolChatMl
  | tinyLlamaChat
  deriving DecidableEq, Repr

def PromptTemplate.source : PromptTemplate → String
  | smolChatMl =>
    "<|im_start|>system\nYou are a helpful AI assistant named SmolLM, trained by Hugging Face" ++
      "<|im_end|>\n<|im_start|>user\n{prompt}<|im_end|>\n<|im_start|>assistant\n"
  | tinyLlamaChat => "<|user|>\n{prompt}</s>\n<|assistant|>\n"

def SupportedModelId.promptTemplate : SupportedModelId → PromptTemplate
  | smolLm2_135MInstruct => .smolChatMl
  | tinyLlama1_1BChat => .tinyLlamaChat

/-- Renders one user message in a fixed chat format. -/
def renderPrompt (template : PromptTemplate) (prompt : String) : Except GenerationError String := do
  refuse (isBlank prompt = true) .emptyPrompt
  pure (template.source.replace "{prompt}" prompt)

/-- Requires this release's validated CPU/F32 execution combination. Both models have it. -/
def ModelSpec.validateCpuDtype (self : ModelSpec) (dtype : PlanDType) : Except DlirError Unit :=
  refuse (dtype ≠ .f32) (.unsupportedExecution self.id dtype)

/-- Inputs for one generation run. `spec` is the entry of its model. -/
structure GenerationRequest where
  spec : ModelSpec
  dtype : PlanDType
  prompt : String
  maxNewTokens : Nat
  deviceMemoryBudget : Option MemoryBudget

/-- What a run finds: the artifacts of the model, once they are resolved and validated, and the
libraries. -/
structure GenerationWorld (α : Type) where
  lib : Library α
  argmax : Tensor α → Except CandleError (Tensor Nat)
  metadata : Except GenerationError Unit
  tokenizer : Except String Tokenizer
  /-- The tokens of a text. -/
  encode : String → Except String (List Nat)
  weights : Except GenerationError Unit
  varBuilder : Except CandleError (VarBuilder (Tensor α))

/-- What a run that succeeds reports, apart from its times and the names of its artifacts. -/
structure GenerationReport where
  dtype : PlanDType
  memory : RankMemoryPlan
  finalKvCacheBytes : Nat
  promptTokens : Nat
  requestedMaxNewTokens : Nat
  generatedTokens : List Nat
  completion : String
  stopReason : StopReason
  decodeForwardCount : Nat
  events : List RunEventKind

def generationMemoryPreflight (spec : ModelSpec) (dtype : PlanDType)
    (promptTokens requestedNewTokens : Nat) (budget : Option MemoryBudget) :
    Except GenerationError (Nat × RankMemoryPlan) := do
  refuse (promptTokens ≥ spec.config.maxPositionEmbeddings) <|
    .promptTooLong promptTokens spec.config.maxPositionEmbeddings
  let availableGeneration := spec.config.maxPositionEmbeddings - promptTokens
  let effectiveNewTokens := min requestedNewTokens availableGeneration
  let capacity := promptTokens + effectiveNewTokens
  let memory ← (RankMemoryPlan.forModel spec dtype capacity budget).mapError .runtime
  pure (effectiveNewTokens, memory)

def tokenLimitStopReason (requested effective : Nat) : StopReason :=
  if requested > effective then .contextLimit else .maxNewTokens

/-- The variables of a generation. -/
structure Generation (α : Type) where
  cache : Model.KvCache α
  generatedTokens : List Nat
  nextToken : Nat
  decodeForwardCount : Nat
  recorder : List RunEventKind

namespace GenerationWorld

variable {α : Type} (self : GenerationWorld α)

/-- A call of the model, and the token that it chooses. -/
def choose (model : Llama (Tensor α) (RotaryEmbedding α)) (ids : List Nat) (position : Nat)
    (cache : Model.KvCache α) : Except GenerationError (Nat × Model.KvCache α) := do
  let input ← (tokenRow ids).mapError (.runtime ∘ .tensor)
  let (result, cache) := (Llama.forward self.lib model input position).call cache ()
  let logits ← result.mapError .runtime
  let token ← (greedyToken self.argmax logits).mapError (.runtime ∘ .tensor)
  pure (token, cache)

/-- Keeps the token that was chosen last. -/
def emitToken (tokenizer : Tokenizer) (s : Generation α) : Except GenerationError (Generation α) := do
  let text ← (tokenizer.step s.generatedTokens s.nextToken).mapError .tokenizer
  pure { s with
    generatedTokens := s.generatedTokens ++ [s.nextToken]
    recorder := s.recorder ++ [.tokenGenerated s.nextToken (text.getD "")] }

/-- One cached decode. -/
def decodeStep (model : Llama (Tensor α) (RotaryEmbedding α)) (s : Generation α) :
    Except GenerationError (Generation α) := do
  let step := s.decodeForwardCount + 1
  let (nextToken, cache) ← self.choose model [s.nextToken] s.cache.len s.cache
  pure { s with
    cache, nextToken
    decodeForwardCount := s.decodeForwardCount + 1
    recorder := s.recorder ++ [.decodeStepStarted step, .decodeStepFinished step] }

/-- The loop after the first token. The number of passes that it has left is larger than that of the
tokens to come. -/
def decodeLoop (config : ModelConfig) (requested effective : Nat)
    (model : Llama (Tensor α) (RotaryEmbedding α)) (tokenizer : Tokenizer) :
    Nat → Generation α → Except GenerationError (Generation α × StopReason)
  | 0, _ => .error (.runtime .overflow)
  | passes + 1, s =>
    if s.generatedTokens.length ≥ effective then .ok (s, tokenLimitStopReason requested effective)
    else do
      let s ← self.decodeStep model s
      if s.nextToken = config.eosTokenId then pure (s, .eos)
      else do
        let s ← emitToken tokenizer s
        decodeLoop config requested effective model tokenizer passes s

/-- The run from the first token on, and the text of all tokens. -/
def continueGeneration (config : ModelConfig) (requested effective : Nat)
    (model : Llama (Tensor α) (RotaryEmbedding α)) (tokenizer : Tokenizer) (s : Generation α) :
    Except GenerationError (Generation α × StopReason × String) :=
  if s.nextToken = config.eosTokenId then .ok (s, .eos, "")
  else do
    let s ← emitToken tokenizer s
    let (s, stopReason) ← self.decodeLoop config requested effective model tokenizer (effective + 1) s
    let completion ← (tokenizer.decode s.generatedTokens).mapError .tokenizer
    pure (s, stopReason, completion)

variable [Zero α]

/-- Executes one deterministic, batch-one generation request on the CPU. -/
def generate (request : GenerationRequest) : Except GenerationError GenerationReport := do
  refuse (request.maxNewTokens = 0) (.runtime (.invalidConfig "max_new_tokens must be at least one"))
  refuse (isBlank request.prompt = true) .emptyPrompt
  let spec := request.spec
  (spec.validateCpuDtype request.dtype).mapError .runtime
  let _ ← spec.config.headDim.mapError .runtime
  self.metadata
  let tokenizer ← self.tokenizer.mapError .tokenizer
  let renderedPrompt ← renderPrompt spec.id.promptTemplate request.prompt
  let promptTokens ← (self.encode renderedPrompt).mapError .tokenizer
  refuse (promptTokens = []) .emptyPrompt
  let (effectiveMaxNewTokens, memory) ← generationMemoryPreflight spec request.dtype
    promptTokens.length request.maxNewTokens request.deviceMemoryBudget
  let capacity := memory.contextLength
  refuse (memory.placement = .doesNotFit)
    (.placementFailed memory.persistentBytes (memory.budget.elim 0 (·.bytes)))
  self.weights
  let vb ← self.varBuilder.mapError (.runtime ∘ .tensor)
  let model ← ((Llama.load (RotaryEmbedding.new self.lib) vb spec.config capacity).run []).1.mapError
    .runtime
  let cache ← (Model.KvCache.new spec.config capacity).mapError .runtime
  let (nextToken, cache) ← self.choose model promptTokens 0 cache
  let (s, stopReason, completion) ← self.continueGeneration spec.config request.maxNewTokens
    effectiveMaxNewTokens model tokenizer {
      cache, nextToken
      generatedTokens := []
      decodeForwardCount := 0
      recorder := [.artifactResolutionStarted, .artifactResolutionFinished,
        .artifactResolutionStarted, .artifactResolutionFinished, .modelLoadStarted,
        .modelLoadFinished, .prefillStarted promptTokens.length, .prefillFinished] }
  let finalKvCacheBytes ← (s.cache.usedBytes spec.config request.dtype.bytes).mapError .runtime
  pure {
    dtype := request.dtype
    memory, finalKvCacheBytes, stopReason, completion
    promptTokens := promptTokens.length
    requestedMaxNewTokens := request.maxNewTokens
    generatedTokens := s.generatedTokens
    decodeForwardCount := s.decodeForwardCount
    events := s.recorder ++ [.generationFinished stopReason] }

end GenerationWorld

/-- The text of a token after others. -/
def textOf (tokenizer : Tokenizer) (generated : List Nat) (token : Nat) : String :=
  match tokenizer.step generated token with
  | .ok (some text) => text
  | _ => ""

theorem textOf_eq {tokenizer : Tokenizer} {generated : List Nat} {token : Nat} {text : Option String}
    (h : tokenizer.step generated token = .ok text) :
    textOf tokenizer generated token = text.getD "" := by
  rw [textOf, h]
  cases text with
  | none => rfl
  | some text => rfl

/-- Whether a generation stops with the token of a step, and why. -/
def stopsAt (config : ModelConfig) (requested effective step token : Nat) : Option StopReason :=
  if token = config.eosTokenId then some .eos
  else if step + 1 ≥ effective then some (tokenLimitStopReason requested effective)
  else none

/-- The tokens that were generated, with the next one. -/
def generatedWith (config : ModelConfig) (generated : List Nat) (token : Nat) : List Nat :=
  if token = config.eosTokenId then generated else generated ++ [token]

/-- What is published of a token. -/
def tokenEvents (config : ModelConfig) (tokenizer : Tokenizer) (generated : List Nat) (token : Nat) :
    List RunEventKind :=
  if token = config.eosTokenId then []
  else [.tokenGenerated token (textOf tokenizer generated token)]

/-- What is published of the decodes that chose these tokens. -/
def decodeEvents (config : ModelConfig) (tokenizer : Tokenizer) :
    Nat → List Nat → List Nat → List RunEventKind
  | _, _, [] => []
  | step, generated, token :: tokens =>
    .decodeStepStarted step :: .decodeStepFinished step ::
      (tokenEvents config tokenizer generated token ++
        decodeEvents config tokenizer (step + 1) (generatedWith config generated token) tokens)

/-- A new cache has no positions. -/
theorem filled_of_new {α : Type} [Zero α] {config : ModelConfig} {capacity d : Nat}
    {cache : Model.KvCache α} (hd : config.Heads d) (h : Model.KvCache.new config capacity = .ok cache) :
    cache.Filled config.numKeyValueHeads d 0 ∧ cache.layers.length = config.numHiddenLayers ∧
      cache.capacity = capacity ∧ 0 < config.numHiddenLayers := by
  simp only [Model.KvCache.new, bind_eq_ok, refuse_eq_ok, exists_const] at h
  exact Model.KvCache.filled_of_newForLayers hd h.2

/-- What the bytes of a cache are computed from. -/
theorem usedBytes_eq_ok {α : Type} {kv : Model.KvCache α} {config : ModelConfig} {d elementBytes bytes : Nat}
    (hd : config.Heads d) : kv.usedBytes config elementBytes = .ok bytes ↔
      2 * kv.layers.length < 2 ^ 64 ∧ 2 * kv.layers.length * kv.len < 2 ^ 64 ∧
      2 * kv.layers.length * kv.len * config.numKeyValueHeads < 2 ^ 64 ∧
      2 * kv.layers.length * kv.len * config.numKeyValueHeads * d < 2 ^ 64 ∧
      2 * kv.layers.length * kv.len * config.numKeyValueHeads * d * elementBytes < 2 ^ 64 ∧
      bytes = 2 * kv.layers.length * kv.len * config.numKeyValueHeads * d * elementBytes := by
  have hheads : config.headDim = .ok d := ModelConfig.headDim_eq_ok.mpr hd
  simp only [Model.KvCache.usedBytes, hheads, bind_eq_ok, u64_eq_ok]
  constructor
  · rintro ⟨a, ⟨ha, rfl⟩, b, ⟨hb, rfl⟩, c, ⟨hc, rfl⟩, d', hd', e, ⟨he, rfl⟩, hf, rfl⟩
    obtain rfl := Except.ok.inj hd'
    exact ⟨ha, hb, hc, he, hf, rfl⟩
  · rintro ⟨ha, hb, hc, he, hf, rfl⟩
    exact ⟨_, ⟨ha, rfl⟩, _, ⟨hb, rfl⟩, _, ⟨hc, rfl⟩, d, rfl, _, ⟨he, rfl⟩, hf, rfl⟩

/-- A cache with fewer layers needs less. -/
theorem usedBytes_of_le {α : Type} {kv kv' : Model.KvCache α} {config : ModelConfig}
    {d elementBytes bytes : Nat} (hd : config.Heads d) (hlen : kv'.len = kv.len)
    (hle : kv'.layers.length ≤ kv.layers.length) (h : kv.usedBytes config elementBytes = .ok bytes) :
    kv'.usedBytes config elementBytes =
      .ok (2 * kv'.layers.length * kv.len * config.numKeyValueHeads * d * elementBytes) := by
  obtain ⟨ha, hb, hc, he, hf, -⟩ := (usedBytes_eq_ok hd).mp h
  have hlayers : 2 * kv'.layers.length ≤ 2 * kv.layers.length := Nat.mul_le_mul_left 2 hle
  have hpositions := Nat.mul_le_mul_right kv.len hlayers
  have hheads := Nat.mul_le_mul_right config.numKeyValueHeads hpositions
  have hdim := Nat.mul_le_mul_right d hheads
  have hbytes := Nat.mul_le_mul_right elementBytes hdim
  rw [usedBytes_eq_ok hd, hlen]
  exact ⟨hlayers.trans_lt ha, hpositions.trans_lt hb, hheads.trans_lt hc, hdim.trans_lt he,
    hbytes.trans_lt hf, rfl⟩

theorem forModel_contextLength {spec : ModelSpec} {dtype : PlanDType} {contextLength : Nat}
    {budget : Option MemoryBudget} {plan : RankMemoryPlan}
    (h : RankMemoryPlan.forModel spec dtype contextLength budget = .ok plan) :
    plan.contextLength = contextLength := by
  simp only [RankMemoryPlan.forModel, bind_eq_ok, pure_eq_ok] at h
  obtain ⟨-, -, -, -, -, -, -, -, -, -, -, -, -, -, -, -, rfl⟩ := h
  rfl

namespace GenerationWorld

section Runs

variable {α : Type}

/-- A call at the end of the cache chooses a token, which is added to those generated so far. -/
structure Chooses (world : GenerationWorld α) (config : ModelConfig)
    (model : Llama (Tensor α) (RotaryEmbedding α)) (tokenizer : Tokenizer)
    (s : Model.KvCache α × List Nat) (ids : List Nat) (token : Nat)
    (s' : Model.KvCache α × List Nat) : Prop where
  call : world.choose model ids s.1.len s.1 = .ok (token, s'.1)
  text : token ≠ config.eosTokenId → ∃ text, tokenizer.step s.2 token = .ok text
  generated : s'.2 = generatedWith config s.2 token

variable (self : GenerationWorld α) (config : ModelConfig) (requested effective : Nat)
  (model : Llama (Tensor α) (RotaryEmbedding α)) (tokenizer : Tokenizer)

/-- A loop of calls, of which each gets the token that the one before it has chosen. -/
def Generates : Nat → Model.KvCache α × List Nat → List Nat → List Nat → StopReason →
    Model.KvCache α × List Nat → Prop :=
  Feedback (self.Chooses config model tokenizer) (stopsAt config requested effective) fun token => [token]

variable {self config requested effective model tokenizer}

theorem choose_ok {ids : List Nat} {position token : Nat} {cache cache' : Model.KvCache α}
    (h : self.choose model ids position cache = .ok (token, cache')) :
    ∃ input logits, tokenRow ids = .ok input ∧
      (Llama.forward self.lib model input position).call cache () = (.ok logits, cache') ∧
      greedyToken self.argmax logits = .ok token := by
  simp only [choose, bind_eq_ok, mapError_eq_ok] at h
  obtain ⟨input, hinput, h⟩ := h
  rcases hcall : (Llama.forward self.lib model input position).call cache () with ⟨result, after⟩
  rw [hcall] at h
  simp only [pure_eq_ok] at h
  obtain ⟨logits, rfl, chosen, hchosen, hend⟩ := h
  obtain ⟨rfl, rfl⟩ := Prod.mk.inj hend
  exact ⟨input, logits, hinput, hcall, hchosen⟩

theorem emitToken_ok {s s' : Generation α} (h : emitToken tokenizer s = .ok s') :
    (∃ text, tokenizer.step s.generatedTokens s.nextToken = .ok text) ∧ s'.cache = s.cache ∧
      s'.nextToken = s.nextToken ∧ s'.generatedTokens = s.generatedTokens ++ [s.nextToken] ∧
      s'.decodeForwardCount = s.decodeForwardCount ∧ s'.recorder = s.recorder ++
        [.tokenGenerated s.nextToken (textOf tokenizer s.generatedTokens s.nextToken)] := by
  simp only [emitToken, bind_eq_ok, mapError_eq_ok, pure_eq_ok] at h
  obtain ⟨text, htext, rfl⟩ := h
  rw [textOf_eq htext]
  exact ⟨⟨text, htext⟩, rfl, rfl, rfl, rfl, rfl⟩

theorem decodeStep_ok {s s' : Generation α} (h : self.decodeStep model s = .ok s') :
    self.choose model [s.nextToken] s.cache.len s.cache = .ok (s'.nextToken, s'.cache) ∧
      s'.generatedTokens = s.generatedTokens ∧
      s'.decodeForwardCount = s.decodeForwardCount + 1 ∧
      s'.recorder = s.recorder ++ [.decodeStepStarted (s.decodeForwardCount + 1),
        .decodeStepFinished (s.decodeForwardCount + 1)] := by
  simp only [decodeStep, bind_eq_ok, pure_eq_ok] at h
  obtain ⟨⟨token, cache⟩, hchoose, rfl⟩ := h
  exact ⟨hchoose, rfl, rfl, rfl⟩

/-- A loop after a first token is the rest of a generation. -/
theorem decodeLoop_generates {passes step : Nat} {s s' : Generation α} {reason : StopReason}
    {previous : Model.KvCache α × List Nat} {ids : List Nat}
    (hcall : self.Chooses config model tokenizer previous ids s.nextToken (s.cache, s.generatedTokens))
    (hne : s.nextToken ≠ config.eosTokenId) (hstep : s.generatedTokens.length = step + 1)
    (h : self.decodeLoop config requested effective model tokenizer passes s = .ok (s', reason)) :
    ∃ tokens, self.Generates config requested effective model tokenizer step previous ids
        (s.nextToken :: tokens) reason (s'.cache, s'.generatedTokens) ∧
      s'.decodeForwardCount = s.decodeForwardCount + tokens.length ∧
      s'.recorder = s.recorder ++
        decodeEvents config tokenizer (s.decodeForwardCount + 1) s.generatedTokens tokens := by
  induction passes generalizing step s previous ids with
  | zero => cases h
  | succ passes ih =>
    rw [decodeLoop] at h
    by_cases hlimit : s.generatedTokens.length ≥ effective
    · rw [if_pos hlimit] at h
      obtain ⟨rfl, rfl⟩ := Prod.mk.inj (Except.ok.inj h)
      refine ⟨[], .last hcall ?_, rfl, (List.append_nil _).symm⟩
      rw [stopsAt, if_neg hne, if_pos (by omega)]
    · rw [if_neg hlimit, bind_eq_ok] at h
      obtain ⟨next, hnext, h⟩ := h
      obtain ⟨hchoose, hgenerated, hcount, hrecorder⟩ := decodeStep_ok hnext
      have hgoes : stopsAt config requested effective step s.nextToken = none := by
        rw [stopsAt, if_neg hne, if_neg (by omega)]
      by_cases heos : next.nextToken = config.eosTokenId
      · rw [if_pos heos, pure_eq_ok] at h
        obtain ⟨rfl, rfl⟩ := Prod.mk.inj h
        have hend : self.Chooses config model tokenizer (s.cache, s.generatedTokens) [s.nextToken]
            s'.nextToken (s'.cache, s'.generatedTokens) := by
          refine ⟨hchoose, fun hno => absurd heos hno, ?_⟩
          rw [generatedWith, if_pos heos]
          exact hgenerated
        refine ⟨[s'.nextToken], .next hcall hgoes (.last hend ?_), hcount, ?_⟩
        · rw [stopsAt, if_pos heos]
        · rw [hrecorder, decodeEvents, decodeEvents, tokenEvents, if_pos heos]
          rfl
      · rw [if_neg heos, bind_eq_ok] at h
        obtain ⟨emitted, hemit, h⟩ := h
        obtain ⟨htext, hcache, htoken, hkept, hsame, hpublished⟩ := emitToken_ok hemit
        rw [hgenerated] at htext hkept hpublished
        have hmore : self.Chooses config model tokenizer (s.cache, s.generatedTokens) [s.nextToken]
            emitted.nextToken (emitted.cache, emitted.generatedTokens) := by
          rw [htoken, hcache, hkept]
          refine ⟨hchoose, fun _ => htext, ?_⟩
          rw [generatedWith, if_neg heos]
        have hlength : emitted.generatedTokens.length = step + 1 + 1 := by
          rw [hkept, List.length_append, hstep, List.length_singleton]
        obtain ⟨tokens, hrun, hcount', hrecorder'⟩ := ih hmore (htoken ▸ heos) hlength h
        rw [htoken] at hrun
        refine ⟨next.nextToken :: tokens, .next hcall hgoes hrun, ?_, ?_⟩
        · rw [hcount', hsame, hcount, List.length_cons]
          omega
        · rw [hrecorder', hpublished, hrecorder, hsame, hcount, hkept, decodeEvents, tokenEvents,
            generatedWith, if_neg heos, if_neg heos]
          simp only [List.append_assoc, List.cons_append, List.nil_append]

/-- What follows a prefill is a generation from the first step on. -/
theorem continueGeneration_generates {s s' : Generation α} {reason : StopReason} {completion : String}
    {previous : Model.KvCache α} {ids : List Nat}
    (hchoose : self.choose model ids previous.len previous = .ok (s.nextToken, s.cache))
    (hnil : s.generatedTokens = [])
    (h : self.continueGeneration config requested effective model tokenizer s =
      .ok (s', reason, completion)) :
    ∃ tokens, self.Generates config requested effective model tokenizer 0 (previous, []) ids
        (s.nextToken :: tokens) reason (s'.cache, s'.generatedTokens) ∧
      s'.decodeForwardCount = s.decodeForwardCount + tokens.length ∧
      s'.recorder = s.recorder ++ (tokenEvents config tokenizer [] s.nextToken ++
        decodeEvents config tokenizer (s.decodeForwardCount + 1) (generatedWith config [] s.nextToken)
          tokens) ∧
      if s.nextToken = config.eosTokenId then completion = ""
      else tokenizer.decode s'.generatedTokens = .ok completion := by
  rw [continueGeneration] at h
  by_cases heos : s.nextToken = config.eosTokenId
  · rw [if_pos heos] at h
    obtain ⟨rfl, hrest⟩ := Prod.mk.inj (Except.ok.inj h)
    obtain ⟨rfl, rfl⟩ := Prod.mk.inj hrest
    refine ⟨[], .last ⟨hchoose, fun hne => absurd heos hne, ?_⟩ ?_, rfl, ?_, ?_⟩
    · rw [generatedWith, if_pos heos]
      exact hnil
    · rw [stopsAt, if_pos heos]
    · rw [tokenEvents, if_pos heos, decodeEvents, List.append_nil, List.append_nil]
    · rw [if_pos heos]
  · rw [if_neg heos] at h
    simp only [bind_eq_ok, mapError_eq_ok, pure_eq_ok] at h
    obtain ⟨emitted, hemit, ⟨last, why⟩, hloop, text, hdecode, hend⟩ := h
    obtain ⟨rfl, hrest⟩ := Prod.mk.inj hend
    obtain ⟨rfl, rfl⟩ := Prod.mk.inj hrest
    obtain ⟨htext, hcache, htoken, hkept, hsame, hpublished⟩ := emitToken_ok hemit
    rw [hnil] at htext hkept hpublished
    have hfirst : self.Chooses config model tokenizer (previous, []) ids emitted.nextToken
        (emitted.cache, emitted.generatedTokens) := by
      rw [htoken, hcache, hkept]
      refine ⟨hchoose, fun _ => htext, ?_⟩
      rw [generatedWith, if_neg heos]
    have hlength : emitted.generatedTokens.length = 0 + 1 := by rw [hkept]; rfl
    obtain ⟨tokens, hrun, hcount, hrecorder⟩ :=
      decodeLoop_generates hfirst (htoken ▸ heos) hlength hloop
    rw [htoken] at hrun
    refine ⟨tokens, hrun, ?_, ?_, ?_⟩
    · rw [hcount, hsame]
    · rw [hrecorder, hpublished, hsame, hkept, tokenEvents, generatedWith, if_neg heos, if_neg heos,
        List.append_assoc]
    · rw [if_neg heos]
      exact hdecode

end Runs

/-- How many tokens a generation may have. -/
def effectiveNewTokens (config : ModelConfig) (promptTokens requested : Nat) : Nat :=
  min requested (config.maxPositionEmbeddings - promptTokens)

/-- What is published of a generation. -/
def generationEvents (config : ModelConfig) (tokenizer : Tokenizer) (promptTokens first : Nat)
    (tokens : List Nat) (reason : StopReason) : List RunEventKind :=
  [.artifactResolutionStarted, .artifactResolutionFinished, .artifactResolutionStarted,
      .artifactResolutionFinished, .modelLoadStarted, .modelLoadFinished,
      .prefillStarted promptTokens, .prefillFinished] ++
    (tokenEvents config tokenizer [] first ++
      decodeEvents config tokenizer 1 (generatedWith config [] first) tokens) ++
    [.generationFinished reason]

/-- What a request that succeeds is made of. -/
structure Completed {α : Type} [Zero α] (world : GenerationWorld α) (request : GenerationRequest)
    (report : GenerationReport) (tokenizer : Tokenizer) (promptTokens : List Nat)
    (model : Llama (Tensor α) (RotaryEmbedding α)) (cache : Model.KvCache α) (first : Nat)
    (tokens : List Nat) (last : Model.KvCache α) : Prop where
  requested : request.maxNewTokens ≠ 0
  dtype : request.dtype = .f32
  heads : ∃ d, request.spec.config.Heads d
  opened : world.tokenizer = .ok tokenizer
  prompt : ∃ rendered, renderPrompt request.spec.id.promptTemplate request.prompt = .ok rendered ∧
    world.encode rendered = .ok promptTokens
  counted : report.promptTokens = promptTokens.length
  nonempty : promptTokens ≠ []
  short : promptTokens.length < request.spec.config.maxPositionEmbeddings
  memory : RankMemoryPlan.forModel request.spec request.dtype (promptTokens.length +
    effectiveNewTokens request.spec.config promptTokens.length request.maxNewTokens)
    request.deviceMemoryBudget = .ok report.memory
  placed : report.memory.placement ≠ .doesNotFit
  load : ∃ vb, world.varBuilder = .ok vb ∧
    ((Llama.load (RotaryEmbedding.new world.lib) vb request.spec.config
      report.memory.contextLength).run []).1 = .ok model
  allocated : Model.KvCache.new request.spec.config report.memory.contextLength = .ok cache
  run : world.Generates request.spec.config request.maxNewTokens
    (effectiveNewTokens request.spec.config promptTokens.length request.maxNewTokens) model tokenizer 0
    (cache, []) promptTokens (first :: tokens) report.stopReason (last, report.generatedTokens)
  completion : if first = request.spec.config.eosTokenId then report.completion = ""
    else tokenizer.decode report.generatedTokens = .ok report.completion
  finalKvCacheBytes : last.usedBytes request.spec.config request.dtype.bytes =
    .ok report.finalKvCacheBytes
  decodeForwardCount : report.decodeForwardCount = tokens.length
  events : report.events = generationEvents request.spec.config tokenizer promptTokens.length first
    tokens report.stopReason

theorem generate_completed {α : Type} [Zero α] {self : GenerationWorld α} {request : GenerationRequest}
    {report : GenerationReport} (h : self.generate request = .ok report) :
    ∃ tokenizer promptTokens model cache first tokens last,
      self.Completed request report tokenizer promptTokens model cache first tokens last := by
  simp only [generate, ModelSpec.validateCpuDtype, generationMemoryPreflight, bind_eq_ok, refuse_eq_ok,
    mapError_eq_ok, pure_eq_ok, exists_const] at h
  obtain ⟨hrequested, -, hdtype, d, hd, -, -, tokenizer, hopened, rendered, hrendered, promptTokens,
    hencoded, hnonempty, ⟨effective, memory⟩, ⟨hshort, plan, hplan, hpreflight⟩, hplaced, -, -, vb, hvb,
    model, hload, cache, hcache, ⟨first, next⟩, hfirst, ⟨s, reason, completion⟩, hcontinue, bytes,
    hbytes, rfl⟩ := h
  obtain ⟨rfl, rfl⟩ := Prod.mk.inj hpreflight
  have hheads := ModelConfig.headDim_eq_ok.mp hd
  obtain ⟨hfilled, hlength, -, hpos⟩ := filled_of_new hheads hcache
  have hlen := Model.KvCache.len_eq hfilled (by omega)
  rw [← hlen] at hfirst
  obtain ⟨tokens, hrun, hcount, hrecorder, hcompletion⟩ := continueGeneration_generates hfirst rfl hcontinue
  refine ⟨tokenizer, promptTokens, model, cache, first, tokens, s.cache, {
    requested := hrequested
    dtype := not_not.mp hdtype
    heads := ⟨d, hheads⟩
    opened := hopened
    prompt := ⟨rendered, hrendered, hencoded⟩
    counted := rfl
    nonempty := hnonempty
    short := Nat.not_le.mp hshort
    memory := hplan
    placed := hplaced
    load := ⟨vb, hvb, hload⟩
    allocated := hcache
    run := hrun
    completion := hcompletion
    finalKvCacheBytes := hbytes
    decodeForwardCount := hcount.trans (Nat.zero_add _)
    events := ?_ }⟩
  show s.recorder ++ _ = _
  rw [hrecorder]
  rfl

end GenerationWorld

end Dlir.Runtime
