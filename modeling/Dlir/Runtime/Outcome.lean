import Dlir.Runtime.Generation
import Dlir.Runtime.Model.Zeros

namespace Dlir.Runtime

open Dlir.Collectives Dlir.Framework Dlir.Runtime.Model

section Outcome

variable {α : Type} {config : ModelConfig} {d capacity n : Nat} {cache : Model.KvCache α}

/-- A cache for all layers, of which each holds `n` positions. -/
structure Holds (config : ModelConfig) (d capacity n : Nat) (cache : Model.KvCache α) : Prop where
  filled : cache.Filled config.numKeyValueHeads d n
  layers : cache.layers.length = config.numHiddenLayers
  pos : 0 < config.numHiddenLayers
  capacity : cache.capacity = capacity

theorem Holds.of_new [Zero α] (hd : config.Heads d) (h : Model.KvCache.new config capacity = .ok cache) :
    Holds config d capacity 0 cache := by
  obtain ⟨hfilled, hlayers, hcapacity, hpos⟩ := filled_of_new hd h
  exact ⟨hfilled, hlayers, hpos, hcapacity⟩

theorem Holds.len (h : Holds config d capacity n cache) : cache.len = n :=
  Model.KvCache.len_eq h.filled (by rw [h.layers]; exact h.pos)

theorem Holds.even (h : Holds config d capacity n cache) : cache.Even config :=
  ⟨⟨_, _, _, h.filled⟩, by rw [h.layers]; exact h.pos, h.layers.le⟩

variable {world : GenerationWorld α} {model : Llama (Tensor α) (RotaryEmbedding α)}
  {tokenizer : Tokenizer} {requested effective : Nat}

/-- A call adds the positions of its input. -/
theorem Holds.next (hlib : world.lib.Documented) (hmodel : Llama.Loaded world.lib config model)
    {s s' : Model.KvCache α × List Nat} {ids : List Nat} {token : Nat}
    (h : Holds config d capacity n s.1) (hcall : world.Chooses config model tokenizer s ids token s') :
    Holds config d capacity (n + ids.length) s'.1 := by
  obtain ⟨input, logits, hinput, hforward, -⟩ := GenerationWorld.choose_ok hcall.call
  obtain ⟨-, -, -, hcount⟩ := hmodel.fits hlib
  obtain ⟨-, hextended⟩ := h.even.forward hlib hmodel (h.layers.trans hcount.symm) hforward
  have hfilled := hextended.filled (Nat.le_refl _) h.filled
  rw [tokenRow_shape hinput] at hfilled
  exact ⟨hfilled, hextended.length.trans h.layers, h.pos, hextended.capacity.trans h.capacity⟩

/-- All tokens are kept but the one that ends the sequence. -/
theorem generated_eq {step : Nat} {s s' : Model.KvCache α × List Nat} {ids tokens : List Nat}
    {reason : StopReason}
    (h : world.Generates config requested effective model tokenizer step s ids tokens reason s') :
    s'.2 = s.2 ++ tokens.filter (· ≠ config.eosTokenId) := by
  have hone : ∀ generated token, generatedWith config generated token =
      generated ++ [token].filter (· ≠ config.eosTokenId) := by
    intro generated token
    unfold generatedWith
    split_ifs with heos
    · simp [heos]
    · simp [heos]
  unfold GenerationWorld.Generates at h
  induction h with
  | last hcall _ => rw [hcall.generated, hone]
  | @next step s s' s'' ids token tokens reason hcall _ _ ih =>
    rw [ih, hcall.generated, hone, List.append_assoc, ← List.filter_append, List.singleton_append]

theorem ne_eos_of_stopsAt {step token : Nat}
    (h : stopsAt config requested effective step token = none) : token ≠ config.eosTokenId := by
  intro heos
  rw [stopsAt, if_pos heos] at h
  cases h

/-- How a generation ends: with the end of the sequence, or at its limit. -/
theorem ends_of_generates {s s' : Model.KvCache α × List Nat} {ids tokens : List Nat}
    {reason : StopReason} (hnil : s.2 = []) (hpos : 0 < effective)
    (h : world.Generates config requested effective model tokenizer 0 s ids tokens reason s') :
    config.eosTokenId ∉ s'.2 ∧ tokens.length ≤ effective ∧
      ((reason = .eos ∧ tokens.length = s'.2.length + 1) ∨
        (reason = tokenLimitStopReason requested effective ∧ tokens.length = s'.2.length ∧
          s'.2.length = effective)) := by
  have hgenerated := generated_eq h
  rw [hnil, List.nil_append] at hgenerated
  have hlimit : ∀ step token, effective ≤ step + 1 →
      stopsAt config requested effective step token ≠ none := by
    intro step token hle
    unfold stopsAt
    split_ifs
    · exact Option.some_ne_none _
    · exact Option.some_ne_none _
  have hlength : 0 + tokens.length ≤ effective := Feedback.length_le hlimit h hpos
  rw [Nat.zero_add] at hlength
  obtain ⟨front, token, rfl, hstop, hfront⟩ := Feedback.stops_last h
  have hkept : front.filter (· ≠ config.eosTokenId) = front := by
    rw [List.filter_eq_self]
    intro t ht
    obtain ⟨i, hi⟩ := List.getElem?_of_mem ht
    exact decide_eq_true (ne_eos_of_stopsAt (hfront i t hi))
  refine ⟨?_, hlength, ?_⟩
  · rw [hgenerated]
    simp
  · rw [List.length_append, List.length_singleton] at hlength ⊢
    rw [List.filter_append, hkept] at hgenerated
    rw [Nat.zero_add, stopsAt] at hstop
    by_cases heos : token = config.eosTokenId
    · rw [if_pos heos] at hstop
      refine .inl ⟨(Option.some.inj hstop).symm, ?_⟩
      rw [hgenerated]
      simp [heos]
    · rw [if_neg heos] at hstop
      split_ifs at hstop with hend
      have hall : s'.2.length = front.length + 1 := by
        rw [hgenerated]
        simp [heos]
      exact .inr ⟨(Option.some.inj hstop).symm, hall.symm, by omega⟩

/-- The bytes of one position in all layers. -/
def positionBytes (config : ModelConfig) (d : Nat) (dtype : PlanDType) : Nat :=
  2 * config.numHiddenLayers * config.numKeyValueHeads * d * dtype.bytes

/-- The bytes of a cache are those of its positions. -/
theorem Holds.usedBytes {config' : ModelConfig} {dtype : PlanDType} {bytes : Nat}
    (h : Holds config d capacity n cache) (hd : config'.Heads d)
    (hkeys : config'.numKeyValueHeads = config.numKeyValueHeads)
    (hbytes : cache.usedBytes config' dtype.bytes = .ok bytes) : bytes = n * positionBytes config d dtype := by
  have hproduct := ((usedBytes_eq_ok hd).mp hbytes).2.2.2.2.2
  rw [h.layers, h.len, hkeys] at hproduct
  rw [hproduct, positionBytes]
  ring

theorem kvCacheBytes_positions {dtype : PlanDType} {bytes : Nat}
    (h : kvCacheBytes config.numHiddenLayers capacity config.numKeyValueHeads d dtype = some bytes) :
    bytes = capacity * positionBytes config d dtype := by
  rw [(kvCacheBytes_eq_some.mp h).2.2.2.2.2, positionBytes]
  ring

/-- A cache that is not full has room for one more position. -/
theorem room_of_lt {unit : Nat} (h : n < capacity) : n * unit + unit ≤ capacity * unit := by
  rw [← Nat.succ_mul]
  exact Nat.mul_le_mul_right unit h

section Completed

variable [Zero α] {request : GenerationRequest} {report : GenerationReport} {promptTokens : List Nat}
  {first : Nat} {tokens : List Nat} {last : Model.KvCache α}
  (hcompleted : world.Completed request report tokenizer promptTokens model cache first tokens last)

include hcompleted

/-- How the generation of a report ends. -/
theorem ends_of_completed : request.spec.config.eosTokenId ∉ report.generatedTokens ∧
    report.decodeForwardCount < GenerationWorld.effectiveNewTokens request.spec.config
      report.promptTokens request.maxNewTokens ∧
    ((report.stopReason = .eos ∧ report.decodeForwardCount = report.generatedTokens.length) ∨
      (report.stopReason = tokenLimitStopReason request.maxNewTokens
          (GenerationWorld.effectiveNewTokens request.spec.config report.promptTokens
            request.maxNewTokens) ∧
        report.generatedTokens.length = GenerationWorld.effectiveNewTokens request.spec.config
          report.promptTokens request.maxNewTokens ∧
        report.decodeForwardCount + 1 = report.generatedTokens.length)) := by
  have hrequested := hcompleted.requested
  have hshort := hcompleted.short
  have hpos : 0 < GenerationWorld.effectiveNewTokens request.spec.config promptTokens.length
      request.maxNewTokens := by
    unfold GenerationWorld.effectiveNewTokens
    omega
  obtain ⟨heos, hle, hends⟩ := ends_of_generates rfl hpos hcompleted.run
  dsimp only at heos hends
  rw [List.length_cons, ← hcompleted.decodeForwardCount, ← hcompleted.counted] at hle hends
  refine ⟨heos, by omega, ?_⟩
  rcases hends with ⟨hreason, hlength⟩ | ⟨hreason, hlength, hlimit⟩
  · exact .inl ⟨hreason, by omega⟩
  · exact .inr ⟨hreason, hlimit, by omega⟩

/-- The bytes of a report are those of the prompt and of a position for each decode, which leave room
for at least one more. -/
theorem bytes_of_completed (hlib : world.lib.Documented)
    (hshaped : ∀ vb, world.varBuilder = .ok vb → VarBuilder.Shaped vb) (hd : request.spec.config.Heads d) :
    report.finalKvCacheBytes = (report.promptTokens + report.decodeForwardCount) *
        positionBytes request.spec.config d request.dtype ∧
      report.finalKvCacheBytes + positionBytes request.spec.config d request.dtype ≤
        report.memory.kvCacheCapacityBytes := by
  obtain ⟨d', hplan⟩ := RankMemoryPlan.accepted_of_forModel hcompleted.memory
  obtain rfl := hplan.heads.unique hd
  obtain ⟨-, hlimited, -⟩ := ends_of_completed hcompleted
  obtain ⟨vb, hvb, hload⟩ := hcompleted.load
  have hmodel : Llama.Loaded world.lib request.spec.config model := ⟨vb, _, [], hshaped vb hvb, hload⟩
  have hholds := Feedback.advances (R := fun n s => Holds request.spec.config d'
    report.memory.contextLength n s.1) List.length (fun hs hcall => hs.next hlib hmodel hcall)
    (fun _ => rfl) hcompleted.run (Holds.of_new hd hcompleted.allocated)
  rw [Nat.zero_add, List.length_cons, Nat.add_sub_cancel, ← hcompleted.counted,
    ← hcompleted.decodeForwardCount] at hholds
  have hbytes := hholds.usedBytes hd rfl hcompleted.finalKvCacheBytes
  have hplanned := kvCacheBytes_positions hplan.cache
  rw [← hcompleted.counted] at hplanned
  refine ⟨hbytes, ?_⟩
  rw [hbytes, hplanned]
  exact room_of_lt (by omega)

end Completed

/-- A generation that succeeds stops at the end of the sequence or at its limit, keeps all tokens
before that, and leaves room for at least one more position. -/
theorem generate_outcome [Zero α] {request : GenerationRequest} {report : GenerationReport}
    (hlib : world.lib.Documented) (hshaped : ∀ vb, world.varBuilder = .ok vb → VarBuilder.Shaped vb)
    (h : world.generate request = .ok report) :
    ∃ tokenizer promptTokens model cache first tokens last d,
      world.Completed request report tokenizer promptTokens model cache first tokens last ∧
      request.spec.config.Heads d ∧
      request.spec.config.eosTokenId ∉ report.generatedTokens ∧
      ((report.stopReason = .eos ∧ report.decodeForwardCount = report.generatedTokens.length ∧
          report.generatedTokens.length < GenerationWorld.effectiveNewTokens request.spec.config
            report.promptTokens request.maxNewTokens) ∨
        (report.stopReason = tokenLimitStopReason request.maxNewTokens
            (GenerationWorld.effectiveNewTokens request.spec.config report.promptTokens
              request.maxNewTokens) ∧
          report.generatedTokens.length = GenerationWorld.effectiveNewTokens request.spec.config
            report.promptTokens request.maxNewTokens ∧
          report.decodeForwardCount + 1 = report.generatedTokens.length)) ∧
      report.finalKvCacheBytes = (report.promptTokens + report.decodeForwardCount) *
        positionBytes request.spec.config d request.dtype ∧
      report.finalKvCacheBytes + positionBytes request.spec.config d request.dtype ≤
        report.memory.kvCacheCapacityBytes := by
  obtain ⟨tokenizer, promptTokens, model, cache, first, tokens, last, hcompleted⟩ :=
    GenerationWorld.generate_completed h
  obtain ⟨d, hd⟩ := hcompleted.heads
  obtain ⟨heos, hlimited, hends⟩ := ends_of_completed hcompleted
  obtain ⟨hbytes, hroom⟩ := bytes_of_completed hcompleted hlib hshaped hd
  refine ⟨tokenizer, promptTokens, model, cache, first, tokens, last, d, hcompleted, hd, heos, ?_, hbytes,
    hroom⟩
  exact hends.imp_left fun ⟨hreason, hlength⟩ => ⟨hreason, hlength, hlength ▸ hlimited⟩

end Outcome

section Pair

/-- Two layers, and the second token as the end of a sequence. -/
def pairSpec : ModelSpec := ⟨.smolLm2_135MInstruct, 212, .bf16, ⟨2, 4, 2, 2, 2, 2, 3, 0, 1, false⟩⟩

/-- A model whose weights are all zero, so that the first token is the best one. -/
def pairFound : GenerationWorld Nat where
  lib := zeroTracking
  argmax _ := Tensor.fromVec [0] []
  metadata := .ok ()
  tokenizer := .ok ⟨fun ids => .ok (String.ofList (ids.map fun _ => 'a')), fun _ _ => .ok (some "a")⟩
  encode _ := .ok [0]
  weights := .ok ()
  varBuilder := .ok zeroBuilder

theorem pairFound_generate : ∃ report, pairFound.generate ⟨pairSpec, .f32, "hi", 2, none⟩ = .ok report :=
  ok_of_toBool (by decide +kernel)

theorem generate_outcome_pair : ∃ report,
    pairFound.generate ⟨pairSpec, .f32, "hi", 2, none⟩ = .ok report ∧
    1 ∉ report.generatedTokens ∧ ∃ d, report.finalKvCacheBytes + positionBytes pairSpec.config d .f32 ≤
      report.memory.kvCacheCapacityBytes := by
  obtain ⟨report, hreport⟩ := pairFound_generate
  obtain ⟨-, -, -, -, -, -, -, d, -, -, heos, -, -, hroom⟩ := generate_outcome zeroTracking_documented
    (fun vb hvb => by obtain rfl := Except.ok.inj hvb; exact zeroBuilder_shaped) hreport
  exact ⟨report, hreport, heos, d, hroom⟩

end Pair

end Dlir.Runtime
