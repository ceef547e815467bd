import Dlir.Math.Lists
import Dlir.Math.Tables
import Dlir.Runtime.Weights
import Mathlib.Algebra.BigOperators.Ring.List

namespace Dlir.Runtime

open Dlir.Collectives Dlir.Framework Dlir.Math

/-- The weights of one transformer block. -/
inductive LayerPart
  | inputLayernorm
  | qProj
  | kProj
  | vProj
  | oProj
  | postAttentionLayernorm
  | gateProj
  | upProj
  | downProj
  deriving DecidableEq, Repr

/-- The weights of a model. -/
inductive Weight
  | embedTokens
  | norm
  | lmHead
  | layer (index : Nat) (part : LayerPart)
  deriving DecidableEq, Repr

/-- What follows the number of the layer in a name. -/
def LayerPart.suffix : LayerPart → String
  | inputLayernorm => ".input_layernorm.weight"
  | qProj => ".self_attn.q_proj.weight"
  | kProj => ".self_attn.k_proj.weight"
  | vProj => ".self_attn.v_proj.weight"
  | oProj => ".self_attn.o_proj.weight"
  | postAttentionLayernorm => ".post_attention_layernorm.weight"
  | gateProj => ".mlp.gate_proj.weight"
  | upProj => ".mlp.up_proj.weight"
  | downProj => ".mlp.down_proj.weight"

namespace Weight

def name : Weight → String
  | embedTokens => "model.embed_tokens.weight"
  | norm => "model.norm.weight"
  | lmHead => "lm_head.weight"
  | layer index part => "model.layers." ++ index.repr ++ part.suffix

/-- The shape with heads of width `d`. -/
def shape (config : ModelConfig) (d : Nat) : Weight → List Nat
  | embedTokens => [config.vocabSize, config.hiddenSize]
  | norm => [config.hiddenSize]
  | lmHead => [config.vocabSize, config.hiddenSize]
  | layer _ .inputLayernorm => [config.hiddenSize]
  | layer _ .qProj => [config.hiddenSize, config.hiddenSize]
  | layer _ .kProj => [config.numKeyValueHeads * d, config.hiddenSize]
  | layer _ .vProj => [config.numKeyValueHeads * d, config.hiddenSize]
  | layer _ .oProj => [config.hiddenSize, config.hiddenSize]
  | layer _ .postAttentionLayernorm => [config.hiddenSize]
  | layer _ .gateProj => [config.intermediateSize, config.hiddenSize]
  | layer _ .upProj => [config.intermediateSize, config.hiddenSize]
  | layer _ .downProj => [config.hiddenSize, config.intermediateSize]

/-- The axis along which a tensor-parallel rank takes its share. -/
def shardDim : Weight → Option Nat
  | embedTokens => some 0
  | norm => none
  | lmHead => some 0
  | layer _ .inputLayernorm => none
  | layer _ .oProj => some 1
  | layer _ .postAttentionLayernorm => none
  | layer _ .downProj => some 1
  | layer _ _ => some 0

end Weight

section Names

theorem LayerPart.suffix_injective : Function.Injective LayerPart.suffix := by
  intro part part' h
  cases part <;> cases part' <;> first | rfl | exact absurd h (by decide)

/-- A suffix starts with a dot. -/
theorem LayerPart.suffix_toList (part : LayerPart) :
    ∃ rest, part.suffix.toList = '.' :: rest := by
  cases part <;> exact ⟨_, rfl⟩

theorem dot_notMem_repr (n : Nat) : '.' ∉ n.repr.toList := by
  intro h
  rw [Nat.toList_repr] at h
  have hdigit := Nat.isDigit_of_mem_toDigits (by decide) (by decide) h
  exact absurd hdigit (by decide)

theorem repr_injective : Function.Injective Nat.repr := by
  intro n n' h
  have hdigits : Nat.toDigits 10 n = Nat.toDigits 10 n' := by
    rw [← Nat.toList_repr, ← Nat.toList_repr, h]
  rw [← Nat.ofDigitChars_ten_toDigits (n := n), hdigits, Nat.ofDigitChars_ten_toDigits]

theorem layerName_injective {index index' : Nat} {part part' : LayerPart}
    (h : (Weight.layer index part).name = (Weight.layer index' part').name) :
    index = index' ∧ part = part' := by
  have hlist := congrArg String.toList h
  simp only [Weight.name, String.toList_append, List.append_assoc, List.append_cancel_left_eq]
    at hlist
  obtain ⟨rest, hrest⟩ := part.suffix_toList
  obtain ⟨rest', hrest'⟩ := part'.suffix_toList
  rw [hrest, hrest'] at hlist
  obtain ⟨hindex, htail⟩ := append_separator_inj (dot_notMem_repr index) (dot_notMem_repr index') hlist
  refine ⟨repr_injective (String.ext hindex), LayerPart.suffix_injective (String.ext ?_)⟩
  rw [hrest, hrest', htail]

/-- No two weights have the same name. -/
theorem Weight.name_injective : Function.Injective Weight.name := by
  have hlayer : ∀ index part (w : String), w.toList.take 7 ≠ "model.l".toList →
      (layer index part).name ≠ w := by
    rintro index part w hw rfl
    apply hw
    simp only [name, String.toList_append, List.append_assoc]
    rfl
  intro w w' h
  cases w with
  | layer index part =>
    cases w' with
    | layer index' part' =>
      obtain ⟨rfl, rfl⟩ := layerName_injective h
      rfl
    | embedTokens => exact absurd h (hlayer _ _ _ (by decide))
    | norm => exact absurd h (hlayer _ _ _ (by decide))
    | lmHead => exact absurd h (hlayer _ _ _ (by decide))
  | embedTokens =>
    cases w' with
    | layer index' part' => exact absurd h.symm (hlayer _ _ _ (by decide))
    | embedTokens => rfl
    | norm => exact absurd h (by decide)
    | lmHead => exact absurd h (by decide)
  | norm =>
    cases w' with
    | layer index' part' => exact absurd h.symm (hlayer _ _ _ (by decide))
    | embedTokens => exact absurd h (by decide)
    | norm => rfl
    | lmHead => exact absurd h (by decide)
  | lmHead =>
    cases w' with
    | layer index' part' => exact absurd h.symm (hlayer _ _ _ (by decide))
    | embedTokens => exact absurd h (by decide)
    | norm => exact absurd h (by decide)
    | lmHead => rfl

end Names

section Asked

variable {τ κ : Type} {vb : VarBuilder τ} {config : ModelConfig} {d : Nat}

/-- The request for a weight as a whole. -/
def Weight.request (config : ModelConfig) (d : Nat) (w : Weight) : Request :=
  ⟨w.name, w.shape config d, none⟩

/-- The request of a tensor-parallel rank. -/
def Weight.shardRequest (config : ModelConfig) (d : Nat) (w : Weight) : Request :=
  ⟨w.name, w.shape config d, w.shardDim⟩

/-- The weights of a block in the order in which they are loaded. -/
def blockParts : List LayerPart :=
  [.inputLayernorm, .qProj, .kProj, .vProj, .oProj, .postAttentionLayernorm, .gateProj, .upProj,
    .downProj]

def blockWeights (index : Nat) : List Weight := blockParts.map (.layer index)

theorem asks_linearNoBias (inDim outDim : Nat) (vb : VarBuilder τ) :
    (linearNoBias inDim outDim vb).Asks [⟨vb.tensorPath "weight", [outDim, inDim], none⟩] :=
  (Asking.asks_ask _ _).bind fun _ => Asking.asks_pure _

theorem asks_embedding (inSize outSize : Nat) (vb : VarBuilder τ) :
    (embedding inSize outSize vb).Asks [⟨vb.tensorPath "weight", [inSize, outSize], none⟩] :=
  (Asking.asks_ask _ _).bind fun _ => Asking.asks_pure _

theorem asks_rmsNorm (size : Nat) (vb : VarBuilder τ) :
    (rmsNorm size vb).Asks [⟨vb.tensorPath "weight", [size], none⟩] :=
  (Asking.asks_ask _ _).bind fun _ => Asking.asks_pure _

theorem tensorPath_pp (hroot : vb.path = []) (s name : String) :
    (vb.pp s).tensorPath name = s ++ "." ++ name := by
  unfold VarBuilder.tensorPath VarBuilder.pp
  rw [hroot]
  rfl

theorem tensorPath_pp_pp (hroot : vb.path = []) (s s' name : String) :
    ((vb.pp s).pp s').tensorPath name = s ++ "." ++ s' ++ "." ++ name := by
  unfold VarBuilder.tensorPath VarBuilder.pp
  rw [hroot]
  rfl

theorem tensorPath_pp_pp_pp (hroot : vb.path = []) (s s' s'' name : String) :
    (((vb.pp s).pp s').pp s'').tensorPath name = s ++ "." ++ s' ++ "." ++ s'' ++ "." ++ name := by
  unfold VarBuilder.tensorPath VarBuilder.pp
  rw [hroot]
  rfl

theorem asks_attention (vb : VarBuilder τ) (hd : config.Heads d) :
    (CausalSelfAttention.load vb config).Asks
      [⟨(vb.pp "q_proj").tensorPath "weight", [config.hiddenSize, config.hiddenSize], none⟩,
        ⟨(vb.pp "k_proj").tensorPath "weight", [config.numKeyValueHeads * d, config.hiddenSize], none⟩,
        ⟨(vb.pp "v_proj").tensorPath "weight", [config.numKeyValueHeads * d, config.hiddenSize], none⟩,
        ⟨(vb.pp "o_proj").tensorPath "weight", [config.hiddenSize, config.hiddenSize], none⟩] := by
  apply Asking.asks_settle_bind (ModelConfig.headDim_eq_ok.mpr hd)
  refine (asks_linearNoBias _ _ _).bind fun _ => (asks_linearNoBias _ _ _).bind fun _ => ?_
  exact (asks_linearNoBias _ _ _).bind fun _ => (asks_linearNoBias _ _ _).bind fun _ =>
    Asking.asks_pure _

theorem asks_mlp (vb : VarBuilder τ) (config : ModelConfig) :
    (Mlp.load vb config).Asks
      [⟨(vb.pp "gate_proj").tensorPath "weight", [config.intermediateSize, config.hiddenSize], none⟩,
        ⟨(vb.pp "up_proj").tensorPath "weight", [config.intermediateSize, config.hiddenSize], none⟩,
        ⟨(vb.pp "down_proj").tensorPath "weight", [config.hiddenSize, config.intermediateSize], none⟩] :=
  (asks_linearNoBias _ _ _).bind fun _ => (asks_linearNoBias _ _ _).bind fun _ =>
    (asks_linearNoBias _ _ _).bind fun _ => Asking.asks_pure _

theorem layerPath_eq (index : Nat) : s!"model.layers.{index}" = "model.layers." ++ index.repr := rfl

theorem asks_block (hroot : vb.path = []) (hd : config.Heads d) (index : Nat) :
    (Block.load (vb.pp s!"model.layers.{index}") config).Asks
      ((blockWeights index).map (Weight.request config d)) := by
  rw [layerPath_eq]
  have hasks : (Block.load (vb.pp ("model.layers." ++ index.repr)) config).Asks _ :=
    (asks_rmsNorm _ _).bind fun _ => (asks_attention _ hd).bind fun _ =>
      (asks_rmsNorm _ _).bind fun _ => (asks_mlp _ config).bind fun _ => Asking.asks_pure _
  simp only [tensorPath_pp_pp hroot, tensorPath_pp_pp_pp hroot] at hasks
  convert hasks using 1
  simp [blockWeights, blockParts, Weight.request, Weight.name, Weight.shape, LayerPart.suffix, String.append_assoc]

/-- The weights of a model in the order in which they are loaded. -/
def modelWeights (config : ModelConfig) : List Weight :=
  [.embedTokens] ++ ((if config.tieWordEmbeddings then [] else [.lmHead]) ++
    ((List.range config.numHiddenLayers).flatMap blockWeights ++ [.norm]))

theorem asks_blocks (hroot : vb.path = []) (hd : config.Heads d) (indices : List Nat) :
    Asking.Asks (indices.mapM fun index => Block.load (vb.pp s!"model.layers.{index}") config)
      ((indices.flatMap blockWeights).map (Weight.request config d)) := by
  rw [List.map_flatMap]
  exact Asking.Asks.mapM (fun index => asks_block hroot hd index) indices

theorem asks_embedTokens (hroot : vb.path = []) (d : Nat) :
    (embedding config.vocabSize config.hiddenSize (vb.pp "model.embed_tokens")).Asks
      [Weight.embedTokens.request config d] := by
  have hasks := asks_embedding config.vocabSize config.hiddenSize (vb.pp "model.embed_tokens")
  rw [tensorPath_pp hroot] at hasks
  exact hasks

theorem asks_lmHead (hroot : vb.path = []) (d : Nat) :
    (linearNoBias config.hiddenSize config.vocabSize (vb.pp "lm_head")).Asks
      [Weight.lmHead.request config d] := by
  have hasks := asks_linearNoBias config.hiddenSize config.vocabSize (vb.pp "lm_head")
  rw [tensorPath_pp hroot] at hasks
  exact hasks

theorem asks_norm (hroot : vb.path = []) (d : Nat) :
    (rmsNorm config.hiddenSize (vb.pp "model.norm")).Asks [Weight.norm.request config d] := by
  have hasks := asks_rmsNorm config.hiddenSize (vb.pp "model.norm")
  rw [tensorPath_pp hroot] at hasks
  exact hasks

variable (rotary : ModelConfig → Nat → Except DlirError κ)

theorem asks_llama (hroot : vb.path = []) (hd : config.Heads d) (capacity : Nat) :
    (Llama.load rotary vb config capacity).Asks
      ((modelWeights config).map (Weight.request config d)) := by
  have hrest : ∀ (embeddings : Embedding τ) (lmHead : Linear τ), Asking.Asks (do
      let blocks ← (List.range config.numHiddenLayers).mapM fun index =>
        Block.load (vb.pp s!"model.layers.{index}") config
      let finalNorm ← rmsNorm config.hiddenSize (vb.pp "model.norm")
      let rope ← settle (rotary config capacity)
      pure (⟨embeddings, blocks, finalNorm, lmHead, rope⟩ : Llama τ κ))
      (((List.range config.numHiddenLayers).flatMap blockWeights ++ [Weight.norm]).map
        (Weight.request config d)) := by
    intro embeddings lmHead
    rw [List.map_append]
    exact (asks_blocks hroot hd _).bind fun _ => (asks_norm hroot d).bind fun _ =>
      (Asking.asks_settle _).bind fun _ => Asking.asks_pure _
  unfold modelWeights
  rw [List.map_append, List.map_append]
  refine (asks_embedTokens hroot d).bind fun embeddings => ?_
  split_ifs with htied
  · exact hrest _ _
  · exact (asks_lmHead hroot d).bind fun lmHead => hrest _ _

/-- The weights of a stage in the order in which they are loaded. -/
def stageWeights (config : ModelConfig) (layerStart layerEnd : Nat) (firstStage finalStage : Bool) :
    List Weight :=
  (if firstStage then [.embedTokens] else []) ++
    ((List.range' layerStart (layerEnd - layerStart)).flatMap blockWeights ++
      ((if finalStage then [.norm] else []) ++
        if finalStage then [if config.tieWordEmbeddings then .embedTokens else .lmHead] else []))

theorem asks_loadWhen {α : Type} (wanted : Bool) {c : Load α} {w : Weight}
    (hc : c.Asks [w.request config d]) :
    (loadWhen wanted c).Asks ((if wanted then [w] else []).map (Weight.request config d)) := by
  cases wanted with
  | false => exact Asking.asks_pure none
  | true => exact hc.map some

theorem asks_stage (hroot : vb.path = []) (hd : config.Heads d) {layerStart layerEnd : Nat}
    (hlayers : layerStart < layerEnd) (hend : layerEnd ≤ config.numHiddenLayers)
    (firstStage finalStage : Bool) (capacity : Nat) :
    (LlamaStage.load rotary vb config layerStart layerEnd firstStage finalStage capacity).Asks
      ((stageWeights config layerStart layerEnd firstStage finalStage).map
        (Weight.request config d)) := by
  have hhead : Asking.Asks (if config.tieWordEmbeddings then
      (fun outputEmbeddings => ⟨outputEmbeddings.embeddings⟩) <$>
        embedding config.vocabSize config.hiddenSize (vb.pp "model.embed_tokens")
      else linearNoBias config.hiddenSize config.vocabSize (vb.pp "lm_head") : Load (Linear τ))
      [(if config.tieWordEmbeddings then .embedTokens else .lmHead : Weight).request config d] := by
    split_ifs
    · exact (asks_embedTokens hroot d).map _
    · exact asks_lmHead hroot d
  unfold LlamaStage.load stageWeights
  simp only [List.map_append]
  refine Asking.asks_settle_bind (a := ()) (refuse_eq_ok.mpr (by omega)) ?_
  refine (asks_loadWhen firstStage (asks_embedTokens hroot d)).bind fun _ => ?_
  refine (asks_blocks hroot hd _).bind fun _ => ?_
  refine (asks_loadWhen finalStage (asks_norm hroot d)).bind fun _ => ?_
  rw [← List.append_nil (List.map _ _)]
  refine (asks_loadWhen finalStage hhead).bind fun _ => ?_
  exact (Asking.asks_settle _).bind fun _ => Asking.asks_pure _

end Asked

section Shards

variable {τ κ : Type} {config : ModelConfig} {d : Nat} {parallel : ParallelContext}
  {algorithm : AllReduceAlgorithm} (source : WeightSource τ)

/-- The weights of a block in the order in which a tensor-parallel rank loads them. -/
def shardedParts : List LayerPart :=
  [.inputLayernorm, .postAttentionLayernorm, .qProj, .kProj, .vProj, .oProj, .gateProj, .upProj,
    .downProj]

def shardedBlockWeights (index : Nat) : List Weight := shardedParts.map (.layer index)

theorem asks_get (name : String) (shape : List Nat) (shardDim : Option Nat) :
    (source.get parallel name shape shardDim).Asks [⟨name, shape, shardDim⟩] :=
  Asking.asks_ask _ _

theorem asks_shardedAttention (path : String) (hd : config.Heads d) :
    (TensorParallelAttention.load source path config parallel algorithm).Asks
      [⟨path ++ ".q_proj.weight", [config.hiddenSize, config.hiddenSize], some 0⟩,
        ⟨path ++ ".k_proj.weight", [config.numKeyValueHeads * d, config.hiddenSize], some 0⟩,
        ⟨path ++ ".v_proj.weight", [config.numKeyValueHeads * d, config.hiddenSize], some 0⟩,
        ⟨path ++ ".o_proj.weight", [config.hiddenSize, config.hiddenSize], some 1⟩] := by
  apply Asking.asks_settle_bind (ModelConfig.headDim_eq_ok.mpr hd)
  refine (asks_get source _ _ _).bind fun _ => (asks_get source _ _ _).bind fun _ => ?_
  refine (asks_get source _ _ _).bind fun _ => (asks_get source _ _ _).bind fun _ => ?_
  exact (Asking.asks_settle _).bind fun _ => Asking.asks_pure _

theorem asks_shardedMlp (path : String) :
    (TensorParallelMlp.load source path config parallel algorithm).Asks
      [⟨path ++ ".gate_proj.weight", [config.intermediateSize, config.hiddenSize], some 0⟩,
        ⟨path ++ ".up_proj.weight", [config.intermediateSize, config.hiddenSize], some 0⟩,
        ⟨path ++ ".down_proj.weight", [config.hiddenSize, config.intermediateSize], some 1⟩] := by
  refine (asks_get source _ _ _).bind fun _ => (asks_get source _ _ _).bind fun _ => ?_
  refine (asks_get source _ _ _).bind fun _ => ?_
  exact (Asking.asks_settle _).bind fun _ => Asking.asks_pure _

theorem asks_shardedBlock (hd : config.Heads d) (index : Nat) :
    (TensorParallelBlock.load source index config parallel algorithm).Asks
      ((shardedBlockWeights index).map (Weight.shardRequest config d)) := by
  have hasks : (TensorParallelBlock.load source index config parallel algorithm).Asks _ :=
    (asks_get source _ _ _).bind fun _ => (asks_get source _ _ _).bind fun _ =>
      (asks_shardedAttention source _ hd).bind fun _ => (asks_shardedMlp source _).bind fun _ =>
        Asking.asks_pure _
  have hstring : ∀ s : String, toString s = s := fun _ => rfl
  simp only [hstring, String.append_assoc] at hasks
  convert hasks using 1
  simp [shardedBlockWeights, shardedParts, Weight.shardRequest, Weight.name, Weight.shape, Weight.shardDim,
    LayerPart.suffix, String.append_assoc]

/-- The weights of a model in the order in which a tensor-parallel rank loads them. -/
def shardedWeights (config : ModelConfig) : List Weight :=
  [.embedTokens] ++ ((List.range config.numHiddenLayers).flatMap shardedBlockWeights ++
    ([.norm] ++ if config.tieWordEmbeddings then [] else [.lmHead]))

theorem asks_sharded (rotary : ModelConfig → Nat → Except DlirError κ) {plan : TensorShardPlan}
    (hplan : planTensorShard config parallel = .ok plan) (hd : config.Heads d) (capacity : Nat) :
    (TensorParallelLlama.loadFrom rotary source config parallel capacity algorithm).Asks
      ((shardedWeights config).map (Weight.shardRequest config d)) := by
  have hblocks : Asking.Asks ((List.range config.numHiddenLayers).mapM fun layer =>
      TensorParallelBlock.load source layer config parallel algorithm)
      (((List.range config.numHiddenLayers).flatMap shardedBlockWeights).map
        (Weight.shardRequest config d)) := by
    rw [List.map_flatMap]
    exact Asking.Asks.mapM (fun index => asks_shardedBlock source hd index) _
  have hembed : (source.get parallel "model.embed_tokens.weight"
      [config.vocabSize, config.hiddenSize] (some 0)).Asks
      ([Weight.embedTokens].map (Weight.shardRequest config d)) := asks_get source _ _ _
  have hnorm : (source.get parallel "model.norm.weight" [config.hiddenSize] none).Asks
      ([Weight.norm].map (Weight.shardRequest config d)) := asks_get source _ _ _
  have hhead : (source.get parallel "lm_head.weight" [config.vocabSize, config.hiddenSize]
      (some 0)).Asks ([Weight.lmHead].map (Weight.shardRequest config d)) := asks_get source _ _ _
  unfold TensorParallelLlama.loadFrom shardedWeights
  simp only [List.map_append]
  refine Asking.asks_settle_bind hplan ?_
  refine hembed.bind fun _ => ?_
  rw [← List.nil_append (List.map _ (List.flatMap _ _) ++ _)]
  refine (Asking.asks_settle _).bind fun _ => ?_
  refine hblocks.bind fun _ => hnorm.bind fun _ => ?_
  split_ifs
  · exact (Asking.asks_pure _).bind fun _ => (Asking.asks_settle _).bind fun _ =>
      (Asking.asks_settle _).bind fun _ => Asking.asks_pure _
  · exact hhead.bind fun _ => (Asking.asks_settle _).bind fun _ => (Asking.asks_settle _).bind fun _ =>
      Asking.asks_pure _

end Shards

section Success

variable {τ κ : Type} {config : ModelConfig} {d : Nat} {vb : VarBuilder τ}
  {rotary : ModelConfig → Nat → Except DlirError κ} {capacity : Nat}

/-- Every weight that is asked for is there. -/
def VarBuilder.Answers (vb : VarBuilder τ) : Prop := ∀ r, ∃ t, vb.backend r = .ok t

theorem VarBuilder.Answers.pp (h : vb.Answers) (s : String) : (vb.pp s).Answers := h

theorem succeeds_get (hvb : vb.Answers) (shape : List Nat) (name : String) :
    (vb.get shape name).Succeeds fun _ => True := by
  obtain ⟨t, ht⟩ := hvb ⟨vb.tensorPath name, shape, none⟩
  exact Asking.succeeds_ask ht trivial

theorem succeeds_linearNoBias (hvb : vb.Answers) (inDim outDim : Nat) :
    (linearNoBias inDim outDim vb).Succeeds fun _ => True :=
  (succeeds_get hvb _ _).bind fun _ _ => Asking.succeeds_pure trivial

theorem succeeds_embedding (hvb : vb.Answers) (inSize outSize : Nat) :
    (embedding inSize outSize vb).Succeeds fun _ => True :=
  (succeeds_get hvb _ _).bind fun _ _ => Asking.succeeds_pure trivial

theorem succeeds_rmsNorm (hvb : vb.Answers) (size : Nat) :
    (rmsNorm size vb).Succeeds fun _ => True :=
  (succeeds_get hvb _ _).bind fun _ _ => Asking.succeeds_pure trivial

theorem succeeds_attention (hvb : vb.Answers) (hd : config.Heads d) :
    (CausalSelfAttention.load vb config).Succeeds fun _ => True := by
  refine Asking.succeeds_settle_bind (ModelConfig.headDim_eq_ok.mpr hd) ?_
  refine (succeeds_linearNoBias (hvb.pp _) _ _).bind fun _ _ => ?_
  refine (succeeds_linearNoBias (hvb.pp _) _ _).bind fun _ _ => ?_
  refine (succeeds_linearNoBias (hvb.pp _) _ _).bind fun _ _ => ?_
  exact (succeeds_linearNoBias (hvb.pp _) _ _).bind fun _ _ => Asking.succeeds_pure trivial

theorem succeeds_mlp (hvb : vb.Answers) : (Mlp.load vb config).Succeeds fun _ => True := by
  refine (succeeds_linearNoBias (hvb.pp _) _ _).bind fun _ _ => ?_
  refine (succeeds_linearNoBias (hvb.pp _) _ _).bind fun _ _ => ?_
  exact (succeeds_linearNoBias (hvb.pp _) _ _).bind fun _ _ => Asking.succeeds_pure trivial

theorem succeeds_block (hvb : vb.Answers) (hd : config.Heads d) :
    (Block.load vb config).Succeeds fun _ => True := by
  refine (succeeds_rmsNorm (hvb.pp _) _).bind fun _ _ => (succeeds_attention (hvb.pp _) hd).bind fun _ _ => ?_
  refine (succeeds_rmsNorm (hvb.pp _) _).bind fun _ _ => (succeeds_mlp (hvb.pp _)).bind fun _ _ => ?_
  exact Asking.succeeds_pure trivial

/-- With all weights at hand the model is loaded. -/
theorem succeeds_llama (hvb : vb.Answers) (hd : config.Heads d) {rope : κ}
    (hrope : rotary config capacity = .ok rope) :
    (Llama.load rotary vb config capacity).Succeeds fun _ => True := by
  have hrest : ∀ (embeddings : Embedding τ) (lmHead : Linear τ), Asking.Succeeds (do
      let blocks ← (List.range config.numHiddenLayers).mapM fun index =>
        Block.load (vb.pp s!"model.layers.{index}") config
      let finalNorm ← rmsNorm config.hiddenSize (vb.pp "model.norm")
      let rope ← settle (rotary config capacity)
      pure (⟨embeddings, blocks, finalNorm, lmHead, rope⟩ : Llama τ κ)) fun _ => True := by
    intro embeddings lmHead
    refine (Asking.Succeeds.mapM fun _ _ => succeeds_block (hvb.pp _) hd).bind fun _ _ => ?_
    refine (succeeds_rmsNorm (hvb.pp _) _).bind fun _ _ => ?_
    exact Asking.succeeds_settle_bind hrope (Asking.succeeds_pure trivial)
  refine (succeeds_embedding (hvb.pp _) _ _).bind fun embeddings _ => ?_
  split_ifs
  · exact hrest _ _
  · exact (succeeds_linearNoBias (hvb.pp _) _ _).bind fun _ _ => hrest _ _

theorem succeeds_loadWhen {α : Type} (wanted : Bool) {c : Load α} (hc : c.Succeeds fun _ => True) :
    (loadWhen wanted c).Succeeds fun _ => True := by
  cases wanted with
  | false => exact Asking.succeeds_pure trivial
  | true => exact hc.map some

/-- With all weights at hand a stage is loaded. -/
theorem succeeds_stage (hvb : vb.Answers) (hd : config.Heads d) {layerStart layerEnd : Nat}
    (hlayers : layerStart < layerEnd) (hend : layerEnd ≤ config.numHiddenLayers)
    (firstStage finalStage : Bool) {rope : κ} (hrope : rotary config capacity = .ok rope) :
    (LlamaStage.load rotary vb config layerStart layerEnd firstStage finalStage
      capacity).Succeeds fun _ => True := by
  unfold LlamaStage.load
  refine Asking.succeeds_settle_bind (a := ()) (refuse_eq_ok.mpr (by omega)) ?_
  refine (succeeds_loadWhen firstStage (succeeds_embedding (hvb.pp _) _ _)).bind fun _ _ => ?_
  refine (Asking.Succeeds.mapM fun _ _ => succeeds_block (hvb.pp _) hd).bind fun _ _ => ?_
  refine (succeeds_loadWhen finalStage (succeeds_rmsNorm (hvb.pp _) _)).bind fun _ _ => ?_
  refine (succeeds_loadWhen finalStage ?_).bind fun _ _ =>
    Asking.succeeds_settle_bind hrope (Asking.succeeds_pure trivial)
  split_ifs
  · exact (succeeds_embedding (hvb.pp _) _ _).map _
  · exact succeeds_linearNoBias (hvb.pp _) _ _

variable {parallel : ParallelContext} {algorithm : AllReduceAlgorithm} {source : WeightSource τ}

/-- Every weight that is asked for is there, in the shape of the rank's share. -/
def WeightSource.Answers (source : WeightSource τ) (parallel : ParallelContext) : Prop :=
  ∀ r, ∃ t, source.tensor r parallel = .ok t ∧ source.dims t = r.localShape parallel.tpSize

theorem succeeds_share (hsource : source.Answers parallel) (name : String) (shape : List Nat)
    (shardDim : Option Nat) :
    (source.get parallel name shape shardDim).Succeeds fun t =>
      source.dims t = Request.localShape ⟨name, shape, shardDim⟩ parallel.tpSize := by
  obtain ⟨t, ht, hdims⟩ := hsource ⟨name, shape, shardDim⟩
  exact Asking.succeeds_ask ht hdims

theorem fromWeight_row {t : τ} {a b : Nat} (hdims : source.dims t = [a, b]) :
    RowParallelLinear.fromWeight source t algorithm = .ok ⟨⟨t⟩, algorithm⟩ := by
  simp only [RowParallelLinear.fromWeight, WeightSource.dims2, hdims]
  rfl

theorem succeeds_shardedAttention (hsource : source.Answers parallel) (hd : config.Heads d)
    (path : String) :
    (TensorParallelAttention.load source path config parallel algorithm).Succeeds fun _ => True := by
  refine Asking.succeeds_settle_bind (ModelConfig.headDim_eq_ok.mpr hd) ?_
  refine (succeeds_share hsource _ _ _).bind fun _ _ => (succeeds_share hsource _ _ _).bind fun _ _ => ?_
  refine (succeeds_share hsource _ _ _).bind fun _ _ =>
    (succeeds_share hsource _ _ _).bind fun _ hdims => ?_
  exact Asking.succeeds_settle_bind (fromWeight_row hdims) (Asking.succeeds_pure trivial)

theorem succeeds_shardedMlp (hsource : source.Answers parallel) (path : String) :
    (TensorParallelMlp.load source path config parallel algorithm).Succeeds fun _ => True := by
  refine (succeeds_share hsource _ _ _).bind fun _ _ => (succeeds_share hsource _ _ _).bind fun _ _ => ?_
  refine (succeeds_share hsource _ _ _).bind fun _ hdims => ?_
  exact Asking.succeeds_settle_bind (fromWeight_row hdims) (Asking.succeeds_pure trivial)

theorem succeeds_shardedBlock (hsource : source.Answers parallel) (hd : config.Heads d)
    (layer : Nat) :
    (TensorParallelBlock.load source layer config parallel algorithm).Succeeds fun _ => True := by
  refine (succeeds_share hsource _ _ _).bind fun _ _ => (succeeds_share hsource _ _ _).bind fun _ _ => ?_
  refine (succeeds_shardedAttention hsource hd _).bind fun _ _ => ?_
  exact (succeeds_shardedMlp hsource _).bind fun _ _ => Asking.succeeds_pure trivial

theorem fromWeight_embedding {t : τ} (h : Sharded config parallel d)
    (hdims : source.dims t = [config.vocabSize / parallel.tpSize, config.hiddenSize]) :
    VocabParallelEmbedding.fromWeight source t (parallel.range config.vocabSize) config.vocabSize =
      .ok ⟨⟨t, config.hiddenSize⟩, parallel.range config.vocabSize, config.vocabSize, .centralized⟩ := by
  have hstop : (parallel.tpRank + 1) * (config.vocabSize / parallel.tpSize) ≤ config.vocabSize := by
    calc (parallel.tpRank + 1) * (config.vocabSize / parallel.tpSize)
        ≤ parallel.tpSize * (config.vocabSize / parallel.tpSize) :=
          Nat.mul_le_mul_right _ h.rank_lt
      _ = config.vocabSize := Nat.mul_div_cancel' h.vocabulary_dvd
  have hlen : (parallel.range config.vocabSize).len = config.vocabSize / parallel.tpSize := by
    show (parallel.tpRank + 1) * (config.vocabSize / parallel.tpSize) -
      parallel.tpRank * (config.vocabSize / parallel.tpSize) = _
    rw [← Nat.sub_mul, Nat.add_sub_cancel_left, Nat.one_mul]
  have hfits : ¬ (config.vocabSize / parallel.tpSize ≠ (parallel.range config.vocabSize).len ∨
      (parallel.range config.vocabSize).stop > config.vocabSize) := by
    rw [hlen]
    push Not
    exact ⟨rfl, hstop⟩
  simp only [VocabParallelEmbedding.fromWeight, WeightSource.dims2, hdims]
  show (refuse _ _ >>= _) = _
  rw [refuse, if_neg hfits]
  rfl

theorem fromWeight_head {t : τ} (h : Sharded config parallel d) (hvocab : 0 < config.vocabSize)
    (hdims : source.dims t = [config.vocabSize / parallel.tpSize, config.hiddenSize]) :
    VocabParallelLmHead.fromWeight source t config.vocabSize =
      .ok ⟨⟨⟨t⟩, config.vocabSize, true⟩⟩ := by
  have hpos : 0 < config.vocabSize / parallel.tpSize :=
    Nat.div_pos (Nat.le_of_dvd hvocab h.vocabulary_dvd) h.tp_pos
  have hfits : ¬ (config.vocabSize / parallel.tpSize = 0 ∨
      config.vocabSize % (config.vocabSize / parallel.tpSize) ≠ 0) := by
    have hdvd : config.vocabSize / parallel.tpSize ∣ config.vocabSize :=
      Nat.div_dvd_of_dvd h.vocabulary_dvd
    have := Nat.mod_eq_zero_of_dvd hdvd
    omega
  simp only [VocabParallelLmHead.fromWeight, ColumnParallelLinear.fromWeight, WeightSource.dims2, hdims]
  show ((refuse _ _ >>= _) >>= _) = _
  rw [refuse, if_neg hfits]
  rfl

/-- With all weights at hand a rank's share of the model is loaded. -/
theorem succeeds_sharded {plan : TensorShardPlan} (hplan : planTensorShard config parallel = .ok plan)
    (hvocab : 0 < config.vocabSize) (hsource : source.Answers parallel) {rope : κ}
    (hrope : rotary config capacity = .ok rope) :
    (TensorParallelLlama.loadFrom rotary source config parallel capacity algorithm).Succeeds
      fun _ => True := by
  obtain ⟨d, h, hplanned⟩ := planTensorShard_ok hplan
  unfold TensorParallelLlama.loadFrom
  refine Asking.succeeds_settle_bind hplan ?_
  refine (succeeds_share hsource _ _ _).bind fun embeddingWeight hdims => ?_
  rw [hplanned.vocabulary]
  refine Asking.succeeds_settle_bind (fromWeight_embedding h hdims) ?_
  refine (Asking.Succeeds.mapM fun layer _ => succeeds_shardedBlock hsource h.heads layer).bind
    fun _ _ => ?_
  refine (succeeds_share hsource _ _ _).bind fun _ _ => ?_
  split_ifs
  · have htied : (pure embeddingWeight : Load τ).Succeeds fun t => source.dims t =
        [config.vocabSize / parallel.tpSize, config.hiddenSize] := Asking.succeeds_pure hdims
    refine htied.bind fun _ hhead => ?_
    refine Asking.succeeds_settle_bind (fromWeight_head h hvocab hhead) ?_
    exact Asking.succeeds_settle_bind hrope (Asking.succeeds_pure trivial)
  · refine (succeeds_share hsource _ _ _).bind fun _ hhead => ?_
    refine Asking.succeeds_settle_bind (fromWeight_head h hvocab hhead) ?_
    exact Asking.succeeds_settle_bind hrope (Asking.succeeds_pure trivial)

end Success

section Lists

variable {config : ModelConfig}

theorem mem_blockWeights {index : Nat} {w : Weight} :
    w ∈ blockWeights index ↔ ∃ part, w = .layer index part := by
  unfold blockWeights
  rw [List.mem_map]
  constructor
  · rintro ⟨part, -, rfl⟩
    exact ⟨part, rfl⟩
  · rintro ⟨part, rfl⟩
    exact ⟨part, by cases part <;> decide, rfl⟩

theorem mem_blocks {indices : List Nat} {w : Weight} :
    w ∈ indices.flatMap blockWeights ↔ ∃ index ∈ indices, ∃ part, w = .layer index part := by
  simp only [List.mem_flatMap, mem_blockWeights]

theorem nodup_blocks {indices : List Nat} (h : indices.Nodup) :
    (indices.flatMap blockWeights).Nodup := by
  rw [List.nodup_flatMap]
  constructor
  · intro index _
    refine List.Nodup.map ?_ (by decide)
    intro part part' hpart
    exact (Weight.layer.inj hpart).2
  · refine h.imp ?_
    intro index index' hne w hw hw'
    obtain ⟨part, rfl⟩ := mem_blockWeights.mp hw
    obtain ⟨part', hpart⟩ := mem_blockWeights.mp hw'
    exact hne (Weight.layer.inj hpart).1

theorem mem_modelWeights {w : Weight} :
    w ∈ modelWeights config ↔ w = .embedTokens ∨ w = .norm ∨
      (w = .lmHead ∧ config.tieWordEmbeddings = false) ∨
      ∃ index < config.numHiddenLayers, ∃ part, w = .layer index part := by
  unfold modelWeights
  simp only [List.mem_append, List.mem_singleton, mem_blocks, List.mem_range]
  cases config.tieWordEmbeddings <;> cases w <;> simp

/-- No weight is loaded twice. -/
theorem nodup_modelWeights : (modelWeights config).Nodup := by
  have hblocks := nodup_blocks (List.nodup_range (n := config.numHiddenLayers))
  have hother : ∀ w ∈ (List.range config.numHiddenLayers).flatMap blockWeights,
      w ≠ .embedTokens ∧ w ≠ .lmHead ∧ w ≠ .norm := by
    intro w hw
    obtain ⟨index, -, part, rfl⟩ := mem_blocks.mp hw
    simp
  unfold modelWeights
  generalize (List.range config.numHiddenLayers).flatMap blockWeights = blocks at hblocks hother
  split_ifs <;> grind [List.nodup_append]

theorem shardedBlockWeights_perm (index : Nat) :
    (shardedBlockWeights index).Perm (blockWeights index) :=
  List.Perm.map _ (by decide)

theorem shardedWeights_perm : (shardedWeights config).Perm (modelWeights config) := by
  have hblocks : ((List.range config.numHiddenLayers).flatMap shardedBlockWeights).Perm
      ((List.range config.numHiddenLayers).flatMap blockWeights) :=
    List.Perm.flatMap_left _ fun index _ => shardedBlockWeights_perm index
  unfold shardedWeights modelWeights
  refine List.Perm.append_left _ ?_
  rw [← List.append_assoc]
  exact ((hblocks.append_right _).append_right _).trans List.perm_append_comm

end Lists

section Totals

variable (config : ModelConfig) (d : Nat)

/-- How many elements a weight has. -/
def Weight.elements (w : Weight) : Nat := (w.shape config d).prod

theorem sum_blocks (indices : List Nat) :
    ((indices.flatMap blockWeights).map (Weight.elements config d)).sum =
      indices.length * config.perBlock d := by
  have hblock : ∀ index, ((blockWeights index).map (Weight.elements config d)).sum =
      config.perBlock d := by
    intro index
    simp only [blockWeights, blockParts, Weight.elements, Weight.shape, List.map_cons, List.map_nil,
      List.sum_cons, List.sum_nil, List.prod_cons, List.prod_nil, ModelConfig.perBlock]
    ring
  induction indices with
  | nil => simp
  | cons index indices ih =>
    rw [List.flatMap_cons, List.map_append, List.sum_append, hblock, ih, List.length_cons]
    ring

theorem sum_modelWeights :
    ((modelWeights config).map (Weight.elements config d)).sum = config.parameters d := by
  unfold modelWeights
  simp only [List.map_append, List.sum_append, sum_blocks, List.length_range]
  unfold ModelConfig.parameters
  split_ifs <;> simp [Weight.elements, Weight.shape] <;> ring

theorem sum_stageWeights (layerStart layerEnd : Nat) (firstStage finalStage : Bool) :
    ((stageWeights config layerStart layerEnd firstStage finalStage).map
      (Weight.elements config d)).sum = config.perBlock d * (layerEnd - layerStart) +
      (if firstStage then config.vocabSize * config.hiddenSize else 0) +
      finalStage.toNat * config.hiddenSize +
      if finalStage then config.vocabSize * config.hiddenSize else 0 := by
  unfold stageWeights
  simp only [List.map_append, List.sum_append, sum_blocks, List.length_range']
  cases firstStage <;> cases finalStage <;> cases config.tieWordEmbeddings <;>
    simp [Weight.elements, Weight.shape] <;> ring

variable {config d} {parallel : ParallelContext}

/-- The shares of all ranks make up a weight that is split, and `tp` copies of one that is not. -/
theorem Sharded.mul_elements (h : Sharded config parallel d) (w : Weight) :
    parallel.tpSize * (w.shardRequest config d).elements parallel.tpSize =
      if w.shardDim = none then parallel.tpSize * w.elements config d else w.elements config d := by
  have hvocab := Nat.mul_div_cancel' h.vocabulary_dvd
  have hhidden := Nat.mul_div_cancel' h.hidden_dvd
  have hinter := Nat.mul_div_cancel' h.intermediate_dvd
  have hkeys := Nat.mul_div_cancel' (h.keys_dvd.mul_right d)
  have hrows : ∀ a b, parallel.tpSize * (a / parallel.tpSize) = a →
      parallel.tpSize * [a / parallel.tpSize, b].prod = [a, b].prod := by
    intro a b ha
    simp only [List.prod_cons, List.prod_nil, Nat.mul_one]
    rw [← Nat.mul_assoc, ha]
  have hcolumns : ∀ a b, parallel.tpSize * (b / parallel.tpSize) = b →
      parallel.tpSize * [a, b / parallel.tpSize].prod = [a, b].prod := by
    intro a b hb
    simp only [List.prod_cons, List.prod_nil, Nat.mul_one]
    rw [Nat.mul_left_comm, hb]
  cases w with
  | embedTokens => exact hrows _ _ hvocab
  | norm => rfl
  | lmHead => exact hrows _ _ hvocab
  | layer index part =>
    cases part with
    | inputLayernorm => rfl
    | qProj => exact hrows _ _ hhidden
    | kProj => exact hrows _ _ hkeys
    | vProj => exact hrows _ _ hkeys
    | oProj => exact hcolumns _ _ hhidden
    | postAttentionLayernorm => rfl
    | gateProj => exact hrows _ _ hinter
    | upProj => exact hrows _ _ hinter
    | downProj => exact hcolumns _ _ hinter

/-- All ranks together hold the split weights once and the norms once each. -/
theorem sum_scaled (tp : Nat) :
    ((modelWeights config).map fun w =>
      if w.shardDim = none then tp * w.elements config d else w.elements config d).sum =
      config.sharded d + tp * config.replicated := by
  have hblocks : ∀ indices : List Nat, ((indices.flatMap blockWeights).map fun w =>
      if w.shardDim = none then tp * w.elements config d else w.elements config d).sum =
      indices.length * (2 * config.hiddenSize * config.hiddenSize +
        2 * config.hiddenSize * (config.numKeyValueHeads * d) +
        3 * config.hiddenSize * config.intermediateSize + tp * (2 * config.hiddenSize)) := by
    intro indices
    induction indices with
    | nil => simp
    | cons index indices ih =>
      rw [List.flatMap_cons, List.map_append, List.sum_append, ih, List.length_cons]
      simp [blockWeights, blockParts, Weight.elements, Weight.shape, Weight.shardDim]
      ring
  unfold modelWeights
  simp only [List.map_append, List.sum_append, hblocks, List.length_range]
  unfold ModelConfig.sharded ModelConfig.replicated
  split_ifs <;> simp [Weight.elements, Weight.shape, Weight.shardDim] <;> ring

/-- What a rank asks for is what its plan counts. -/
theorem sum_shardedWeights (h : Sharded config parallel d) {plan : TensorShardPlan}
    (hplan : plan.Planned config parallel d) :
    ((shardedWeights config).map fun w =>
      (w.shardRequest config d).elements parallel.tpSize).sum = plan.localParameters := by
  apply Nat.eq_of_mul_eq_mul_left h.tp_pos
  rw [(shardedWeights_perm.map _).sum_eq, ← List.sum_map_mul_left]
  simp only [h.mul_elements]
  rw [sum_scaled, hplan.rankLocal, ModelConfig.parameters_eq, Nat.add_sub_cancel, Nat.mul_add,
    Nat.mul_div_cancel' h.sharded_dvd]

end Totals

end Dlir.Runtime
