import Dlir.Pipeline.Partition
import Dlir.Runtime.Model.Composition
import Dlir.Runtime.Model.Zeros

namespace Dlir.Pipeline

open Dlir.Collectives Dlir.Framework Dlir.Math Dlir.Runtime Dlir.Runtime.Model

section Loads

variable {τ κ : Type} {rotary : ModelConfig → Nat → Except DlirError κ} {vb : VarBuilder τ}
  {config : ModelConfig} {capacity : Nat}

theorem steady_linearNoBias (inDim outDim : Nat) (vb : VarBuilder τ) :
    (linearNoBias inDim outDim vb).Steady :=
  (Asking.steady_ask _ _).bind fun _ => Asking.steady_pure _

theorem steady_embedding (inSize outSize : Nat) (vb : VarBuilder τ) :
    (embedding inSize outSize vb).Steady :=
  (Asking.steady_ask _ _).bind fun _ => Asking.steady_pure _

theorem steady_rmsNorm (size : Nat) (vb : VarBuilder τ) : (rmsNorm size vb).Steady :=
  (Asking.steady_ask _ _).bind fun _ => Asking.steady_pure _

theorem steady_attention (vb : VarBuilder τ) : (CausalSelfAttention.load vb config).Steady := by
  unfold CausalSelfAttention.load
  refine (Asking.steady_settle _).bind fun _ => ?_
  refine (steady_linearNoBias _ _ _).bind fun _ => ?_
  refine (steady_linearNoBias _ _ _).bind fun _ => ?_
  refine (steady_linearNoBias _ _ _).bind fun _ => ?_
  exact (steady_linearNoBias _ _ _).bind fun _ => Asking.steady_pure _

theorem steady_mlp (vb : VarBuilder τ) : (Mlp.load vb config).Steady := by
  unfold Mlp.load
  refine (steady_linearNoBias _ _ _).bind fun _ => ?_
  refine (steady_linearNoBias _ _ _).bind fun _ => ?_
  exact (steady_linearNoBias _ _ _).bind fun _ => Asking.steady_pure _

theorem steady_block (vb : VarBuilder τ) : (Block.load vb config).Steady := by
  unfold Block.load
  refine (steady_rmsNorm _ _).bind fun _ => ?_
  refine (steady_attention _).bind fun _ => ?_
  refine (steady_rmsNorm _ _).bind fun _ => ?_
  exact (steady_mlp _).bind fun _ => Asking.steady_pure _

/-- What a layer is loaded to. -/
def loadedBlock (vb : VarBuilder τ) (config : ModelConfig) (index : Nat) :
    Except DlirError (Block τ) :=
  (Block.load (vb.pp s!"model.layers.{index}") config).result

variable (vb config) in
theorem steady_blocks (indices : List Nat) :
    Asking.Steady (indices.mapM fun index =>
      Block.load (vb.pp s!"model.layers.{index}") config) :=
  Asking.Steady.mapM (fun _ => steady_block _) indices

theorem result_blocks (indices : List Nat) :
    Asking.result (indices.mapM fun index =>
      Block.load (vb.pp s!"model.layers.{index}") config) = indices.mapM (loadedBlock vb config) :=
  Asking.result_mapM (fun _ => steady_block _) indices

/-- The language-model head of a whole model. -/
def llamaHead (vb : VarBuilder τ) (config : ModelConfig) (table : Embedding τ) : Load (Linear τ) :=
  if config.tieWordEmbeddings then pure ⟨table.embeddings⟩
  else linearNoBias config.hiddenSize config.vocabSize (vb.pp "lm_head")

theorem steady_llamaHead (table : Embedding τ) : (llamaHead vb config table).Steady := by
  unfold llamaHead
  split_ifs
  · exact Asking.steady_pure _
  · exact steady_linearNoBias _ _ _

/-- Where the head comes from is one part of the load. -/
theorem llama_load_eq : Llama.load rotary vb config capacity = (do
    let table ← embedding config.vocabSize config.hiddenSize (vb.pp "model.embed_tokens")
    let head ← llamaHead vb config table
    let blocks ← (List.range config.numHiddenLayers).mapM fun index =>
      Block.load (vb.pp s!"model.layers.{index}") config
    let finalNorm ← rmsNorm config.hiddenSize (vb.pp "model.norm")
    let rope ← settle (rotary config capacity)
    pure ⟨table, blocks, finalNorm, head, rope⟩) := by
  unfold Llama.load llamaHead
  refine congrArg _ (funext fun table => ?_)
  split_ifs <;> rfl

/-- What the parts of a model are loaded to. -/
structure LoadedParts (rotary : ModelConfig → Nat → Except DlirError κ) (vb : VarBuilder τ)
    (config : ModelConfig) (capacity : Nat) (model : Llama τ κ) : Prop where
  embeddings : (embedding config.vocabSize config.hiddenSize (vb.pp "model.embed_tokens")).result =
    .ok model.embeddings
  lmHead : (llamaHead vb config model.embeddings).result = .ok model.lmHead
  blocks : (List.range config.numHiddenLayers).mapM (loadedBlock vb config) = .ok model.blocks
  finalNorm : (rmsNorm config.hiddenSize (vb.pp "model.norm")).result = .ok model.finalNorm
  rope : rotary config capacity = .ok model.rope

theorem loadedParts {model : Llama τ κ}
    (h : (Llama.load rotary vb config capacity).result = .ok model) :
    LoadedParts rotary vb config capacity model := by
  have hrope : ∀ table head blocks finalNorm, Asking.Steady (do
      let rope ← settle (rotary config capacity)
      pure (Llama.mk table blocks finalNorm head rope) : Load (Llama τ κ)) := fun _ _ _ _ =>
    (Asking.steady_settle _).bind fun _ => Asking.steady_pure _
  have hnorm := fun table head blocks => (steady_rmsNorm config.hiddenSize (vb.pp "model.norm")).bind
    fun finalNorm => hrope table head blocks finalNorm
  have hblocks := fun table head => (steady_blocks vb config
    (List.range config.numHiddenLayers)).bind fun blocks => hnorm table head blocks
  rw [llama_load_eq, Asking.result_bind_eq_ok fun table => (steady_llamaHead table).bind fun head =>
    hblocks table head] at h
  obtain ⟨table, htable, h⟩ := h
  rw [Asking.result_bind_eq_ok fun head => hblocks table head] at h
  obtain ⟨head, hhead, h⟩ := h
  rw [Asking.result_bind_eq_ok fun blocks => hnorm table head blocks] at h
  obtain ⟨blocks, hload, h⟩ := h
  rw [Asking.result_bind_eq_ok fun finalNorm => hrope table head blocks finalNorm] at h
  obtain ⟨finalNorm, hfinal, h⟩ := h
  rw [Asking.result_bind_eq_ok fun _ => Asking.steady_pure _] at h
  obtain ⟨rope, htables, h⟩ := h
  obtain rfl := Except.ok.inj h
  rw [result_blocks] at hload
  exact ⟨htable, hhead, hload, hfinal, htables⟩

/-- The part of a model that a stage with these blocks has. -/
def partOf (model : Llama τ κ) (layerStart layerEnd : Nat) (firstStage finalStage : Bool)
    (blocks : List (Block τ)) : LlamaStage τ κ where
  layerStart := layerStart
  layerEnd := layerEnd
  embeddings := if firstStage then some model.embeddings else none
  blocks := blocks
  finalNorm := if finalStage then some model.finalNorm else none
  lmHead := if finalStage then some model.lmHead else none
  rope := model.rope

theorem result_loadWhen {β : Type} {wanted : Bool} {c : Load β} {b : β} (h : c.result = .ok b) :
    (loadWhen wanted c).result = .ok (if wanted then some b else none) := by
  unfold loadWhen
  cases wanted with
  | true =>
    rw [if_pos rfl, if_pos rfl, Asking.result_map, h]
    rfl
  | false => rfl

theorem steady_loadWhen {β : Type} (wanted : Bool) {c : Load β} (h : c.Steady) :
    (loadWhen wanted c).Steady := by
  unfold loadWhen
  split_ifs
  · exact h.map some
  · exact Asking.steady_pure none

/-- The language-model head of the last stage. -/
def stageHead (vb : VarBuilder τ) (config : ModelConfig) : Load (Linear τ) :=
  if config.tieWordEmbeddings then
    (fun outputEmbeddings => ⟨outputEmbeddings.embeddings⟩) <$>
      embedding config.vocabSize config.hiddenSize (vb.pp "model.embed_tokens")
  else linearNoBias config.hiddenSize config.vocabSize (vb.pp "lm_head")

variable (vb config) in
theorem steady_stageHead : (stageHead vb config).Steady := by
  unfold stageHead
  split_ifs
  · exact (steady_embedding _ _ _).map _
  · exact steady_linearNoBias _ _ _

/-- The last stage reads a tied table again and gets the same. -/
theorem result_stageHead {model : Llama τ κ} (h : LoadedParts rotary vb config capacity model) :
    (stageHead vb config).result = .ok model.lmHead := by
  have hhead := h.lmHead
  unfold llamaHead at hhead
  unfold stageHead
  by_cases htie : config.tieWordEmbeddings = true
  · rw [if_pos htie] at hhead ⊢
    rw [Asking.result_map, h.embeddings]
    exact hhead
  · rw [if_neg htie] at hhead ⊢
    exact hhead

theorem stage_load_eq {layerStart layerEnd : Nat} {firstStage finalStage : Bool} :
    LlamaStage.load rotary vb config layerStart layerEnd firstStage finalStage capacity = (do
      settle <| refuse (layerStart ≥ layerEnd ∨ layerEnd > config.numHiddenLayers) <| .invalidConfig
        s!"stage layer range {layerStart}..{layerEnd} is outside 0..{config.numHiddenLayers}"
      let table ← loadWhen firstStage
        (embedding config.vocabSize config.hiddenSize (vb.pp "model.embed_tokens"))
      let blocks ← (List.range' layerStart (layerEnd - layerStart)).mapM fun index =>
        Block.load (vb.pp s!"model.layers.{index}") config
      let finalNorm ← loadWhen finalStage (rmsNorm config.hiddenSize (vb.pp "model.norm"))
      let head ← loadWhen finalStage (stageHead vb config)
      let rope ← settle (rotary config capacity)
      pure ⟨layerStart, layerEnd, table, blocks, finalNorm, head, rope⟩) := rfl

/-- A stage of a model that can be loaded can be loaded. -/
theorem stage_load {model : Llama τ κ} (h : LoadedParts rotary vb config capacity model)
    {layerStart layerEnd : Nat} {blocks : List (Block τ)} (hlt : layerStart < layerEnd)
    (hle : layerEnd ≤ config.numHiddenLayers)
    (hblocks : (List.range' layerStart (layerEnd - layerStart)).mapM (loadedBlock vb config) = .ok blocks)
    (firstStage finalStage : Bool) :
    (LlamaStage.load rotary vb config layerStart layerEnd firstStage finalStage capacity).result =
      .ok (partOf model layerStart layerEnd firstStage finalStage blocks) := by
  have hrange : refuse (layerStart ≥ layerEnd ∨ layerEnd > config.numHiddenLayers)
      (DlirError.invalidConfig
        s!"stage layer range {layerStart}..{layerEnd} is outside 0..{config.numHiddenLayers}") =
      .ok () := if_neg (by omega)
  have hrope : ∀ table blocks finalNorm head, Asking.Steady (do
      let rope ← settle (rotary config capacity)
      pure ⟨layerStart, layerEnd, table, blocks, finalNorm, head, rope⟩ : Load (LlamaStage τ κ)) :=
    fun _ _ _ _ => (Asking.steady_settle _).bind fun _ => Asking.steady_pure _
  have hhead := fun table blocks finalNorm => (steady_loadWhen finalStage
    (steady_stageHead vb config)).bind fun head => hrope table blocks finalNorm head
  have hnorm := fun table blocks => (steady_loadWhen finalStage
    (steady_rmsNorm config.hiddenSize (vb.pp "model.norm"))).bind
      fun finalNorm => hhead table blocks finalNorm
  have hlayers := fun table => (steady_blocks vb config
    (List.range' layerStart (layerEnd - layerStart))).bind fun blocks => hnorm table blocks
  have htable := (steady_loadWhen firstStage (steady_embedding config.vocabSize
    config.hiddenSize (vb.pp "model.embed_tokens"))).bind fun table => hlayers table
  rw [stage_load_eq, Asking.result_bind_eq_ok fun _ => htable]
  refine ⟨(), hrange, ?_⟩
  rw [Asking.result_bind_eq_ok fun table => hlayers table]
  refine ⟨_, result_loadWhen h.embeddings, ?_⟩
  rw [Asking.result_bind_eq_ok fun blocks => hnorm _ blocks]
  refine ⟨blocks, (result_blocks _).trans hblocks, ?_⟩
  rw [Asking.result_bind_eq_ok fun finalNorm => hhead _ _ finalNorm]
  refine ⟨_, result_loadWhen h.finalNorm, ?_⟩
  rw [Asking.result_bind_eq_ok fun head => hrope _ _ _ head]
  refine ⟨_, result_loadWhen (result_stageHead h), ?_⟩
  rw [Asking.result_bind_eq_ok fun _ => Asking.steady_pure _]
  exact ⟨model.rope, h.rope, rfl⟩

end Loads

section Stages

variable {spec : ModelSpec} {worldSize : Nat}

/-- A part of the numbers from zero on. -/
theorem range_slice {n start count : Nat} (hle : start + count ≤ n) :
    ((List.range n).drop start).take count = List.range' start count := by
  refine List.ext_getElem ?_ fun i h1 h2 => ?_
  · simp
    omega
  · simp

theorem mapM_range'_of_range {ε β : Type} {f : Nat → Except ε β} {n start count : Nat} {ys : List β}
    (h : (List.range n).mapM f = .ok ys) (hle : start + count ≤ n) :
    (List.range' start count).mapM f = .ok ((ys.drop start).take count) := by
  have hpart := List.forall₂_take count (List.forall₂_drop start (forall₂_of_mapM h))
  rw [range_slice hle] at hpart
  exact mapM_of_forall₂ hpart

/-- Consecutive parts of a list put together. -/
theorem flatMap_slices {β : Type} (bound : Nat → Nat) (hbound : Monotone bound)
    (hzero : bound 0 = 0) (xs : List β) (n : Nat) :
    ((List.range n).flatMap fun rank =>
      (xs.drop (bound rank)).take (bound (rank + 1) - bound rank)) = xs.take (bound n) := by
  induction n with
  | zero => simp [hzero]
  | succ n ih =>
    have hle : bound n ≤ bound (n + 1) := hbound (Nat.le_succ n)
    rw [List.range_succ, List.flatMap_append, ih, List.flatMap_singleton, ← List.take_add,
      Nat.add_sub_cancel' hle]

/-- The stage of a rank, with its part of the model. -/
def stagePart {τ κ : Type} (spec : ModelSpec) (worldSize : Nat) (model : Llama τ κ) (rank : Nat) :
    LlamaStage τ κ :=
  let stage := stageOf spec worldSize rank
  partOf model stage.layerStart stage.layerEnd stage.ownsEmbeddings stage.ownsLmHead
    ((model.blocks.drop stage.layerStart).take stage.layerCount)

variable (spec) in
theorem layerEnd_le {rank : Nat} (hrank : rank < worldSize) :
    (stageOf spec worldSize rank).layerEnd ≤ spec.config.numHiddenLayers := by
  have hle : layerBound spec worldSize (rank + 1) ≤ layerBound spec worldSize worldSize :=
    layerBound_monotone hrank
  rwa [layerBound_end (by omega)] at hle

theorem layerStart_lt (hworld : 2 ≤ worldSize) (hlayers : worldSize ≤ spec.config.numHiddenLayers)
    {rank : Nat} (hrank : rank < worldSize) :
    (stageOf spec worldSize rank).layerStart < (stageOf spec worldSize rank).layerEnd :=
  (covers_stages hworld hlayers).nonempty _ (List.mem_map_of_mem (List.mem_range.mpr hrank))

/-- A stage of a partition of a model that can be loaded. -/
theorem load_stage {τ κ : Type} {rotary : ModelConfig → Nat → Except DlirError κ}
    {vb : VarBuilder τ} {capacity : Nat} {model : Llama τ κ} (hworld : 2 ≤ worldSize)
    (hlayers : worldSize ≤ spec.config.numHiddenLayers)
    (hmodel : LoadedParts rotary vb spec.config capacity model) {rank : Nat} (hrank : rank < worldSize) :
    let stage := stageOf spec worldSize rank
    (LlamaStage.load rotary vb spec.config stage.layerStart stage.layerEnd stage.ownsEmbeddings
      stage.ownsLmHead capacity).result = .ok (stagePart spec worldSize model rank) := by
  have hlt := layerStart_lt hworld hlayers hrank
  have hle := layerEnd_le spec hrank
  exact stage_load hmodel hlt hle (mapM_range'_of_range hmodel.blocks (by omega)) _ _

/-- All of them. -/
theorem load_stages {τ κ : Type} {rotary : ModelConfig → Nat → Except DlirError κ}
    {vb : VarBuilder τ} {capacity : Nat} {model : Llama τ κ} (hworld : 2 ≤ worldSize)
    (hlayers : worldSize ≤ spec.config.numHiddenLayers)
    (hmodel : LoadedParts rotary vb spec.config capacity model) :
    ((List.range worldSize).map (stageOf spec worldSize)).mapM (fun stage =>
      (LlamaStage.load rotary vb spec.config stage.layerStart stage.layerEnd stage.ownsEmbeddings
        stage.ownsLmHead capacity).result) =
      .ok ((List.range worldSize).map (stagePart spec worldSize model)) := by
  rw [List.mapM_map]
  exact mapM_eq_map fun rank hrank => load_stage hworld hlayers hmodel (List.mem_range.mp hrank)

/-- Every layer of every cache starts alike. -/
theorem newForLayers_of_new {α : Type} [Zero α] {config : ModelConfig} {capacity : Nat}
    {cache : Model.KvCache α} (h : Model.KvCache.new config capacity = .ok cache) :
    ∃ layer, cache = ⟨List.replicate config.numHiddenLayers layer, capacity⟩ ∧
      ∀ count, 0 < count → count ≤ config.numHiddenLayers →
        Model.KvCache.newForLayers config count capacity =
          .ok ⟨List.replicate count layer, capacity⟩ := by
  simp only [Model.KvCache.new, Model.KvCache.newForLayers, bind_eq_ok, refuse_eq_ok, pure_eq_ok,
    exists_const] at h
  obtain ⟨-, hcount, hcapacity, layers, hlayers, rfl⟩ := h
  have heach := forall₂_of_mapM hlayers
  obtain ⟨layer, -, hlayer⟩ := exists_of_forall₂_left heach
    (List.mem_range.mpr (show 0 < config.numHiddenLayers by omega))
  have hall : ∀ count, (List.range count).mapM (fun _ => LayerKvCache.new config capacity) =
      .ok (List.replicate count layer) := by
    intro count
    rw [mapM_eq_map fun _ _ => hlayer, List.map_const', List.length_range]
  refine ⟨layer, ?_, fun count hpos hle => ?_⟩
  · rw [hall] at hlayers
    rw [Except.ok.inj hlayers]
  · have hlayers : refuse (count = 0 ∨ count > config.numHiddenLayers) (DlirError.invalidConfig
        s!"cache layer count must be between 1 and {config.numHiddenLayers}, got {count}") = .ok () :=
      if_neg (by omega)
    unfold Model.KvCache.newForLayers
    rw [hlayers, (refuse_eq_ok (u := ())).mpr hcapacity, hall]
    rfl

theorem cons_parts {β : Type} (f : Nat → β) (n : Nat) :
    f 0 :: (List.range' 1 n).map f = (List.range (n + 1)).map f := by
  rw [List.range_eq_range', List.range'_succ, List.map_cons]

theorem layers_length_of_mapM {τ κ : Type} {rotary : ModelConfig → Nat → Except DlirError κ}
    {vb : VarBuilder τ} {config : ModelConfig} {capacity : Nat} {model : Llama τ κ}
    (h : LoadedParts rotary vb config capacity model) :
    model.blocks.length = config.numHiddenLayers := by
  rw [← (forall₂_of_mapM h.blocks).length_eq, List.length_range]

theorem getLastD_parts {β : Type} (f : Nat → β) (n : Nat) (hn : 0 < n) :
    ((List.range' 1 n).map f).getLastD (f 0) = f n := by
  obtain ⟨n, rfl⟩ := Nat.exists_eq_add_of_lt hn
  rw [Nat.zero_add, List.range'_concat, List.map_append, List.map_singleton, List.getLastD_concat,
    Nat.one_mul, Nat.add_comm 1 n]

/-- A stage has all of its layers. -/
theorem length_stagePart {τ κ : Type} {model : Llama τ κ}
    (hcount : model.blocks.length = spec.config.numHiddenLayers) {rank : Nat}
    (hrank : rank < worldSize) :
    (stagePart spec worldSize model rank).blocks.length = (stageOf spec worldSize rank).layerCount := by
  have hle := layerEnd_le spec hrank
  show ((model.blocks.drop (stageOf spec worldSize rank).layerStart).take
    (stageOf spec worldSize rank).layerCount).length = _
  rw [List.length_take, List.length_drop, hcount, StageAssignment.layerCount]
  omega

/-- The stages of a partition are made of the parts of the model. -/
theorem slices_stages {α : Type} {model : Llama (Tensor α) (RotaryEmbedding α)} {n : Nat}
    (hn : 0 < n) (hlayers : n + 1 ≤ spec.config.numHiddenLayers)
    (hcount : model.blocks.length = spec.config.numHiddenLayers) :
    Slices model (stagePart spec (n + 1) model 0)
      ((List.range' 1 n).map (stagePart spec (n + 1) model)) := by
  have hall := cons_parts (stagePart spec (n + 1) model) n
  have hlast := getLastD_parts (stagePart spec (n + 1) model) n hn
  have hfinal : (stageOf spec (n + 1) n).ownsLmHead = true := beq_self_eq_true (n + 1)
  refine ⟨?_, ?_, ?_, rfl, ?_, ?_⟩
  · rw [hall, List.flatMap_map]
    have hslices := flatMap_slices (layerBound spec (n + 1)) layerBound_monotone
      layerBound_zero model.blocks (n + 1)
    rw [layerBound_end (Nat.succ_pos n), ← hcount, List.take_length] at hslices
    exact hslices
  · rw [hall]
    intro stage hstage
    obtain ⟨rank, hrank, rfl⟩ := List.mem_map.mp hstage
    have hlt := layerStart_lt (by omega) hlayers (List.mem_range.mp hrank)
    have hlength := length_stagePart hcount (List.mem_range.mp hrank)
    intro hnil
    rw [hnil, List.length_nil, StageAssignment.layerCount] at hlength
    omega
  · rw [hall]
    intro stage hstage
    obtain ⟨rank, -, rfl⟩ := List.mem_map.mp hstage
    rfl
  · rw [hlast]
    exact if_pos hfinal
  · rw [hlast]
    exact if_pos hfinal

/-- The cache of a stage before the first call. -/
def cachePart {α : Type} (spec : ModelSpec) (worldSize : Nat) (layer : Model.LayerKvCache α)
    (capacity rank : Nat) : Model.KvCache α :=
  ⟨List.replicate (stageOf spec worldSize rank).layerCount layer, capacity⟩

theorem new_cache {α : Type} {capacity : Nat} {layer : Model.LayerKvCache α} [Zero α]
    (hworld : 2 ≤ worldSize) (hlayers : worldSize ≤ spec.config.numHiddenLayers)
    (hnew : ∀ count, 0 < count → count ≤ spec.config.numHiddenLayers →
      Model.KvCache.newForLayers spec.config count capacity =
        .ok ⟨List.replicate count layer, capacity⟩) {rank : Nat} (hrank : rank < worldSize) :
    Model.KvCache.newForLayers spec.config (stageOf spec worldSize rank).layerCount capacity =
      .ok (cachePart spec worldSize layer capacity rank) := by
  have hlt := layerStart_lt hworld hlayers hrank
  have hle := layerEnd_le spec hrank
  exact hnew _ (Nat.sub_pos_of_lt hlt) ((Nat.sub_le _ _).trans hle)

/-- The caches of the stages of a partition. -/
theorem new_caches {α : Type} {capacity : Nat} {layer : Model.LayerKvCache α} [Zero α]
    (hworld : 2 ≤ worldSize) (hlayers : worldSize ≤ spec.config.numHiddenLayers)
    (hnew : ∀ count, 0 < count → count ≤ spec.config.numHiddenLayers →
      Model.KvCache.newForLayers spec.config count capacity =
        .ok ⟨List.replicate count layer, capacity⟩) :
    ((List.range worldSize).map (stageOf spec worldSize)).mapM (fun stage =>
      Model.KvCache.newForLayers spec.config stage.layerCount capacity) =
      .ok ((List.range worldSize).map (cachePart spec worldSize layer capacity)) := by
  rw [List.mapM_map]
  exact mapM_eq_map fun rank hrank => new_cache hworld hlayers hnew (List.mem_range.mp hrank)

/-- Before the first call they are in step. -/
theorem inStep_new {α : Type} [Zero α] {capacity n : Nat}
    {model : Llama (Tensor α) (RotaryEmbedding α)} {layer : Model.LayerKvCache α}
    (hcount : model.blocks.length = spec.config.numHiddenLayers)
    (hcache : Model.KvCache.new spec.config capacity =
      .ok ⟨List.replicate spec.config.numHiddenLayers layer, capacity⟩) :
    InStep spec.config model (stagePart spec (n + 1) model 0)
      ((List.range' 1 n).map (stagePart spec (n + 1) model))
      ⟨List.replicate spec.config.numHiddenLayers layer, capacity⟩
      (cachePart spec (n + 1) layer capacity 0,
        (List.range' 1 n).map (cachePart spec (n + 1) layer capacity)) := by
  have hsize : ∀ rank < n + 1, (stageOf spec (n + 1) rank).layerStart +
      (stageOf spec (n + 1) rank).layerCount ≤ spec.config.numHiddenLayers := by
    intro rank hrank
    have hle := layerEnd_le spec hrank
    have hstart : (stageOf spec (n + 1) rank).layerStart ≤ (stageOf spec (n + 1) rank).layerEnd :=
      layerBound_monotone (Nat.le_succ rank)
    unfold StageAssignment.layerCount
    omega
  refine ⟨.of_new hcache, ?_, ?_, ?_, ?_⟩
  · rw [hcount]
    exact List.length_replicate
  · unfold SameLayers
    rw [cons_parts (cachePart spec (n + 1) layer capacity), List.flatMap_map]
    have hslices := flatMap_slices (layerBound spec (n + 1)) layerBound_monotone
      layerBound_zero (List.replicate spec.config.numHiddenLayers layer) (n + 1)
    rw [layerBound_end (Nat.succ_pos n)] at hslices
    refine Eq.trans ?_ (hslices.trans (List.take_of_length_le List.length_replicate.le))
    refine List.flatMap_congr fun rank hrank => ?_
    have hroom := hsize rank (List.mem_range.mp hrank)
    rw [List.drop_replicate, List.take_replicate]
    refine congrArg (fun count => List.replicate count layer) ?_
    show (stageOf spec (n + 1) rank).layerCount = min (stageOf spec (n + 1) rank).layerCount
      (spec.config.numHiddenLayers - (stageOf spec (n + 1) rank).layerStart)
    omega
  · rw [cons_parts (stagePart spec (n + 1) model), cons_parts (cachePart spec (n + 1) layer capacity),
      List.forall₂_map_left_iff, List.forall₂_map_right_iff, List.forall₂_same]
    intro rank hrank
    have hroom := hsize rank (List.mem_range.mp hrank)
    show (List.replicate (stageOf spec (n + 1) rank).layerCount layer).length =
      ((model.blocks.drop (stageOf spec (n + 1) rank).layerStart).take
        (stageOf spec (n + 1) rank).layerCount).length
    rw [List.length_replicate, List.length_take, List.length_drop, hcount]
    omega
  · intro kv hkv
    rw [cons_parts (cachePart spec (n + 1) layer capacity)] at hkv
    obtain ⟨rank, -, rfl⟩ := List.mem_map.mp hkv
    rfl

/-- The stages of a partition can be loaded, and any calls of them from empty caches do what the calls
of the whole model do: each gives the same result, and their caches one after the other hold the layers
of the whole cache. -/
def Composes {α : Type} [Zero α] (lib : Library α) (spec : ModelSpec) (partition : PipelinePartition)
    (vb : VarBuilder (Tensor α)) (capacity : Nat) (model : Llama (Tensor α) (RotaryEmbedding α))
    (cache : Model.KvCache α) : Prop :=
  ∃ first stages kv kvs,
    partition.stages.mapM (fun stage => (LlamaStage.load (RotaryEmbedding.new lib) vb spec.config
      stage.layerStart stage.layerEnd stage.ownsEmbeddings stage.ownsLmHead capacity).result) =
      .ok (first :: stages) ∧
    partition.stages.mapM (fun stage =>
      Model.KvCache.newForLayers spec.config stage.layerCount capacity) = .ok (kv :: kvs) ∧
    ∀ (σ : Type) (s : σ) (observer : LayerObserver (StateM σ)) (inputs : List TokenTensor),
      List.Forall₂ SameResult (calls (Llama.onTokens lib s model) cache inputs).1
        (calls (pipelineForward lib observer s first stages) (kv, kvs) inputs).1 ∧
      SameLayers (calls (Llama.onTokens lib s model) cache inputs).2
        (calls (pipelineForward lib observer s first stages) (kv, kvs) inputs).2

theorem composes_of_balanced {α : Type} [Zero α] {lib : Library α} (hlib : lib.Documented)
    {partition : PipelinePartition} (hpartition : PipelinePartition.balanced spec worldSize = .ok partition)
    {vb : VarBuilder (Tensor α)} (hvb : VarBuilder.Shaped vb) {capacity : Nat}
    {model : Llama (Tensor α) (RotaryEmbedding α)}
    (hmodel : (Llama.load (RotaryEmbedding.new lib) vb spec.config capacity).result = .ok model)
    {cache : Model.KvCache α} (hcache : Model.KvCache.new spec.config capacity = .ok cache) :
    Composes lib spec partition vb capacity model cache := by
  obtain ⟨⟨hworld, -⟩, hlayers, rfl⟩ := balanced_eq_ok.mp hpartition
  obtain ⟨n, rfl⟩ : ∃ n, worldSize = n + 1 := ⟨worldSize - 1, by omega⟩
  have hparts := loadedParts hmodel
  have hcount := layers_length_of_mapM hparts
  obtain ⟨layer, rfl, hnew⟩ := newForLayers_of_new hcache
  refine ⟨stagePart spec (n + 1) model 0, (List.range' 1 n).map (stagePart spec (n + 1) model),
    cachePart spec (n + 1) layer capacity 0,
    (List.range' 1 n).map (cachePart spec (n + 1) layer capacity), ?_, ?_, fun σ s observer inputs => ?_⟩
  · rw [load_stages hworld hlayers hparts, cons_parts]
  · rw [new_caches hworld hlayers hnew, cons_parts]
  · exact pipeline_calls hlib ⟨vb, capacity, [], hvb, hmodel⟩ (slices_stages (by omega) hlayers hcount)
      (inStep_new hcount hcache) inputs

/-- The stages that a partition assigns can be loaded where the whole model can be, and any calls of
them from empty caches do what the calls of the whole model do. -/
theorem stages_compose {α : Type} [Zero α] {lib : Library α} (hlib : lib.Documented)
    {partition : PipelinePartition} (hpartition : PipelinePartition.balanced spec worldSize = .ok partition)
    {vb : VarBuilder (Tensor α)} (hvb : VarBuilder.Shaped vb) {capacity : Nat}
    {model : Llama (Tensor α) (RotaryEmbedding α)}
    (hmodel : (Llama.load (RotaryEmbedding.new lib) vb spec.config capacity).result = .ok model)
    {cache : Model.KvCache α} (hcache : Model.KvCache.new spec.config capacity = .ok cache) :
    ∃ first stages kv kvs,
      partition.stages.mapM (fun stage => (LlamaStage.load (RotaryEmbedding.new lib) vb spec.config
        stage.layerStart stage.layerEnd stage.ownsEmbeddings stage.ownsLmHead capacity).result) =
        .ok (first :: stages) ∧
      partition.stages.mapM (fun stage =>
        Model.KvCache.newForLayers spec.config stage.layerCount capacity) = .ok (kv :: kvs) ∧
      ∀ (σ : Type) (s : σ) (observer : LayerObserver (StateM σ)) (inputs : List TokenTensor),
        List.Forall₂ SameResult (calls (Llama.onTokens lib s model) cache inputs).1
          (calls (pipelineForward lib observer s first stages) (kv, kvs) inputs).1 ∧
        SameLayers (calls (Llama.onTokens lib s model) cache inputs).2
          (calls (pipelineForward lib observer s first stages) (kv, kvs) inputs).2 :=
  composes_of_balanced hlib hpartition hvb hmodel hcache

/-- Two layers, one for each of two stages. -/
def twoLayers : ModelSpec := ⟨.smolLm2_135MInstruct, 116, .bf16, ⟨2, 4, 2, 2, 2, 2, 1, 0, 0, false⟩⟩

theorem twoLayers_load : ∃ model,
    (Llama.load (RotaryEmbedding.new zeroWeights) zeroBuilder twoLayers.config 1).result = .ok model :=
  ok_of_toBool (by decide +kernel)

theorem twoLayers_cache : ∃ cache, Model.KvCache.new (α := Nat) twoLayers.config 1 = .ok cache :=
  ok_of_toBool (by decide +kernel)

theorem stages_compose_twoLayers : ∃ model cache first stages kv kvs,
    (Llama.load (RotaryEmbedding.new zeroWeights) zeroBuilder twoLayers.config 1).result = .ok model ∧
    Model.KvCache.new twoLayers.config 1 = .ok cache ∧
    ((List.range 2).map (stageOf twoLayers 2)).mapM (fun stage =>
      (LlamaStage.load (RotaryEmbedding.new zeroWeights) zeroBuilder twoLayers.config stage.layerStart
        stage.layerEnd stage.ownsEmbeddings stage.ownsLmHead 1).result) = .ok (first :: stages) ∧
    ((List.range 2).map (stageOf twoLayers 2)).mapM (fun stage =>
      Model.KvCache.newForLayers twoLayers.config stage.layerCount 1) = .ok (kv :: kvs) ∧
    ∀ inputs, List.Forall₂ SameResult (calls (Llama.onTokens zeroWeights () model) cache inputs).1
      (calls (pipelineForward zeroWeights ⟨fun _ => pure (), fun _ => pure ()⟩ () first stages)
        (kv, kvs) inputs).1 := by
  obtain ⟨model, hmodel⟩ := twoLayers_load
  obtain ⟨cache, hcache⟩ := twoLayers_cache
  have hpartition : PipelinePartition.balanced twoLayers 2 =
      .ok ⟨2, (List.range 2).map (stageOf twoLayers 2)⟩ :=
    balanced_eq_ok.mpr ⟨by decide, by decide, rfl⟩
  obtain ⟨first, stages, kv, kvs, hload, hnew, hsame⟩ := stages_compose zeroWeights_documented
    hpartition zeroBuilder_shaped hmodel hcache
  exact ⟨model, cache, first, stages, kv, kvs, hmodel, hcache, hload, hnew, fun inputs =>
    (hsame Unit () _ inputs).1⟩

/-- The stages of a partition compose to the model, and an activation that goes from one rank to the
next in a packet is unchanged. -/
theorem pipeline_refines_model {α : Type} [Zero α] {lib : Library α} (hlib : lib.Documented)
    {partition : PipelinePartition} (hpartition : PipelinePartition.balanced spec worldSize = .ok partition)
    {vb : VarBuilder (Tensor α)} (hvb : VarBuilder.Shaped vb) {capacity : Nat}
    {model : Llama (Tensor α) (RotaryEmbedding α)}
    (hmodel : (Llama.load (RotaryEmbedding.new lib) vb spec.config capacity).result = .ok model)
    {cache : Model.KvCache α} (hcache : Model.KvCache.new spec.config capacity = .ok cache) :
    Composes lib spec partition vb capacity model cache ∧
      ∀ (activation : Tensor α) (packet : TensorPacket α),
        TensorPacket.fromTensor activation = .ok packet → packet.toTensor = .ok activation :=
  ⟨composes_of_balanced hlib hpartition hvb hmodel hcache, fun _ _ h => TensorPacket.toTensor_fromTensor h⟩

theorem pipeline_refines_model_twoLayers : ∃ model cache,
    (Llama.load (RotaryEmbedding.new zeroWeights) zeroBuilder twoLayers.config 1).result = .ok model ∧
    Model.KvCache.new twoLayers.config 1 = .ok cache ∧
    Composes zeroWeights twoLayers ⟨2, (List.range 2).map (stageOf twoLayers 2)⟩ zeroBuilder 1 model
      cache := by
  obtain ⟨model, hmodel⟩ := twoLayers_load
  obtain ⟨cache, hcache⟩ := twoLayers_cache
  have hpartition : PipelinePartition.balanced twoLayers 2 =
      .ok ⟨2, (List.range 2).map (stageOf twoLayers 2)⟩ :=
    balanced_eq_ok.mpr ⟨by decide, by decide, rfl⟩
  exact ⟨model, cache, hmodel, hcache,
    (pipeline_refines_model zeroWeights_documented hpartition zeroBuilder_shaped hmodel hcache).1⟩

end Stages

end Dlir.Pipeline
