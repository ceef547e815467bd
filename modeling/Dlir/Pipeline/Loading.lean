import Dlir.Pipeline.Partition
import Dlir.Runtime.Artifacts

namespace Dlir.Pipeline

open Dlir.Collectives Dlir.Framework Dlir.Math Dlir.Runtime

section Stages

variable {config : ModelConfig}

theorem mem_stageWeights {layerStart layerEnd : Nat} {firstStage finalStage : Bool} {w : Weight} :
    w ∈ stageWeights config layerStart layerEnd firstStage finalStage ↔
      (w = .embedTokens ∧ (firstStage = true ∨ finalStage = true ∧ config.tieWordEmbeddings = true)) ∨
      (w = .norm ∧ finalStage = true) ∨
      (w = .lmHead ∧ finalStage = true ∧ config.tieWordEmbeddings = false) ∨
      ∃ index, (layerStart ≤ index ∧ index < layerEnd) ∧ ∃ part, w = .layer index part := by
  have hrange : ∀ index, index ∈ List.range' layerStart (layerEnd - layerStart) ↔
      layerStart ≤ index ∧ index < layerEnd := by
    intro index
    rw [List.mem_range'_1]
    omega
  unfold stageWeights
  simp only [List.mem_append, mem_blocks, hrange]
  cases firstStage <;> cases finalStage <;> cases config.tieWordEmbeddings <;> cases w <;> simp

/-- No stage of several loads a weight twice. -/
theorem nodup_stageWeights {layerStart layerEnd : Nat} {firstStage finalStage : Bool}
    (hone : ¬ (firstStage = true ∧ finalStage = true)) :
    (stageWeights config layerStart layerEnd firstStage finalStage).Nodup := by
  have hblocks := nodup_blocks (List.nodup_range' (s := layerStart) (n := layerEnd - layerStart))
  have hother : ∀ w ∈ (List.range' layerStart (layerEnd - layerStart)).flatMap blockWeights,
      w ≠ .embedTokens ∧ w ≠ .lmHead ∧ w ≠ .norm := by
    intro w hw
    obtain ⟨index, -, part, rfl⟩ := mem_blocks.mp hw
    simp
  unfold stageWeights
  generalize (List.range' layerStart (layerEnd - layerStart)).flatMap blockWeights = blocks
    at hblocks hother
  cases firstStage <;> cases finalStage <;> cases config.tieWordEmbeddings <;>
    grind [List.nodup_append]

end Stages

/-- What a request says of a weight. -/
def entryOf (r : Request) : String × List Nat := (r.name, r.shape)

/-- Loading the whole model asks for these weights, and is done when they are all there. -/
def LlamaAsks (config : ModelConfig) (requests : List Request) : Prop :=
  ∀ (τ κ : Type) (rotary : ModelConfig → Nat → Except DlirError κ) (vb : VarBuilder τ)
    (capacity : Nat), vb.path = [] →
    (Llama.load rotary vb config capacity).Asks requests ∧
    (vb.Answers → (∃ rope, rotary config capacity = .ok rope) →
      (Llama.load rotary vb config capacity).Succeeds fun _ => True)

/-- Loading a stage asks for these weights, and is done when they are all there. -/
def StageAsks (config : ModelConfig) (stage : StageAssignment) (requests : List Request) : Prop :=
  ∀ (τ κ : Type) (rotary : ModelConfig → Nat → Except DlirError κ) (vb : VarBuilder τ)
    (capacity : Nat), vb.path = [] →
    (LlamaStage.load rotary vb config stage.layerStart stage.layerEnd stage.ownsEmbeddings
      stage.ownsLmHead capacity).Asks requests ∧
    (vb.Answers → (∃ rope, rotary config capacity = .ok rope) →
      (LlamaStage.load rotary vb config stage.layerStart stage.layerEnd stage.ownsEmbeddings
        stage.ownsLmHead capacity).Succeeds fun _ => True)

/-- Loading a rank's share asks for these weights, and is done when they are all there. -/
def ShardAsks (config : ModelConfig) (parallel : ParallelContext) (requests : List Request) : Prop :=
  ∀ (τ κ : Type) (rotary : ModelConfig → Nat → Except DlirError κ) (source : WeightSource τ)
    (capacity : Nat) (algorithm : AllReduceAlgorithm),
    (TensorParallelLlama.loadFrom rotary source config parallel capacity algorithm).Asks requests ∧
    (0 < config.vocabSize → source.Answers parallel →
      (∃ rope, rotary config capacity = .ok rope) →
      (TensorParallelLlama.loadFrom rotary source config parallel capacity algorithm).Succeeds
        fun _ => True)

/-- The requests are those of a manifest, each made once. -/
structure AsManifest (manifest : ByName (List Nat)) (requests : List Request) : Prop where
  distinct : (requests.map (·.name)).Nodup
  entries : ∀ name shape, (name, shape) ∈ requests.map entryOf ↔ manifest[name]? = some shape

section Requests

variable {spec : ModelSpec} {d : Nat} {manifest : ByName (List Nat)} (hd : spec.config.Heads d)
  (h : expectedTensorShapes spec = .ok manifest)
include hd h

/-- Weights in whatever order and with whatever shares make up the manifest. -/
theorem asManifest_of_perm {weights : List Weight} (hperm : weights.Perm (modelWeights spec.config))
    {request : Weight → Request} (hrequest : ∀ w, entryOf (request w) = w.entry spec.config d) :
    AsManifest manifest (weights.map request) := by
  constructor
  · have hnames : (weights.map request).map (·.name) = weights.map Weight.name := by
      rw [List.map_map]
      exact List.map_congr_left fun w _ => (Prod.mk.inj (hrequest w)).1
    rw [hnames]
    exact (hperm.nodup_iff.mpr nodup_modelWeights).map Weight.name_injective
  · intro name shape
    rw [getElem?_manifest hd h, List.map_map, List.mem_map]
    constructor
    · rintro ⟨w, hw, heq⟩
      rw [Function.comp_apply, hrequest] at heq
      obtain ⟨hname, hshape⟩ := Prod.mk.inj heq
      exact ⟨w, hperm.mem_iff.mp hw, hname, hshape⟩
    · rintro ⟨w, hw, rfl, rfl⟩
      exact ⟨w, hperm.mem_iff.mpr hw, hrequest w⟩

omit h in
theorem llamaAsks : LlamaAsks spec.config ((modelWeights spec.config).map
    (Weight.request spec.config d)) := by
  intro τ κ rotary vb capacity hroot
  refine ⟨asks_llama rotary hroot hd capacity, ?_⟩
  rintro hvb ⟨rope, hrope⟩
  exact succeeds_llama hvb hd hrope

omit h in
theorem shardAsks {parallel : ParallelContext} {plan : TensorShardPlan}
    (hplan : planTensorShard spec.config parallel = .ok plan) :
    ShardAsks spec.config parallel ((shardedWeights spec.config).map
      (Weight.shardRequest spec.config d)) := by
  intro τ κ rotary source capacity algorithm
  refine ⟨asks_sharded source rotary hplan hd capacity, ?_⟩
  rintro hvocab hsource ⟨rope, hrope⟩
  exact succeeds_sharded hplan hvocab hsource hrope

end Requests

section Partition

variable {spec : ModelSpec} {d worldSize : Nat} {manifest : ByName (List Nat)}

/-- The weights that a stage loads. -/
def weightsOf (config : ModelConfig) (stage : StageAssignment) : List Weight :=
  stageWeights config stage.layerStart stage.layerEnd stage.ownsEmbeddings stage.ownsLmHead

theorem stageAsks (hd : spec.config.Heads d) (hworld : 2 ≤ worldSize)
    (hlayers : worldSize ≤ spec.config.numHiddenLayers) {rank : Nat} (hrank : rank < worldSize) :
    StageAsks spec.config (stageOf spec worldSize rank)
      ((weightsOf spec.config (stageOf spec worldSize rank)).map (Weight.request spec.config d)) := by
  have hnonempty := (covers_stages hworld hlayers).nonempty (stageOf spec worldSize rank)
    (List.mem_map_of_mem (List.mem_range.mpr hrank))
  have hend : (stageOf spec worldSize rank).layerEnd ≤ spec.config.numHiddenLayers := by
    have hle : layerBound spec worldSize (rank + 1) ≤ layerBound spec worldSize worldSize :=
      layerBound_monotone hrank
    rwa [layerBound_end (by omega)] at hle
  intro τ κ rotary vb capacity hroot
  refine ⟨asks_stage rotary hroot hd hnonempty hend _ _ capacity, ?_⟩
  rintro hvb ⟨rope, hrope⟩
  exact succeeds_stage hvb hd hnonempty hend _ _ hrope

theorem mem_weightsOf {rank : Nat} {w : Weight} :
    w ∈ weightsOf spec.config (stageOf spec worldSize rank) ↔
      (w = .embedTokens ∧
        (rank = 0 ∨ rank + 1 = worldSize ∧ spec.config.tieWordEmbeddings = true)) ∨
      (w = .norm ∧ rank + 1 = worldSize) ∨
      (w = .lmHead ∧ rank + 1 = worldSize ∧ spec.config.tieWordEmbeddings = false) ∨
      ∃ index, (layerBound spec worldSize rank ≤ index ∧
        index < layerBound spec worldSize (rank + 1)) ∧ ∃ part, w = .layer index part := by
  unfold weightsOf
  rw [mem_stageWeights]
  simp [stageOf]

/-- Which stages load a weight of the model. -/
theorem existsUnique_stage (hworld : 2 ≤ worldSize)
    {w : Weight} (hw : w ∈ modelWeights spec.config)
    (hsingle : ¬ (w = .embedTokens ∧ spec.config.tieWordEmbeddings = true)) :
    ∃! rank, rank < worldSize ∧ w ∈ weightsOf spec.config (stageOf spec worldSize rank) := by
  simp only [mem_weightsOf]
  rw [mem_modelWeights] at hw
  rcases hw with rfl | rfl | ⟨rfl, huntied⟩ | ⟨index, hindex, part, rfl⟩
  · refine ⟨0, ⟨by omega, .inl ⟨rfl, .inl rfl⟩⟩, ?_⟩
    rintro rank ⟨-, ⟨-, hzero | ⟨-, htied⟩⟩ | ⟨hne, -⟩ | ⟨hne, -⟩ | ⟨index, -, part, hne⟩⟩
    · exact hzero
    · exact absurd ⟨rfl, htied⟩ hsingle
    all_goals cases hne
  · refine ⟨worldSize - 1, ⟨by omega, .inr (.inl ⟨rfl, by omega⟩)⟩, ?_⟩
    rintro rank ⟨-, ⟨hne, -⟩ | ⟨-, hlast⟩ | ⟨hne, -⟩ | ⟨index, -, part, hne⟩⟩
    · cases hne
    · omega
    all_goals cases hne
  · refine ⟨worldSize - 1, ⟨by omega, .inr (.inr (.inl ⟨rfl, by omega, huntied⟩))⟩, ?_⟩
    rintro rank ⟨-, ⟨hne, -⟩ | ⟨hne, -⟩ | ⟨-, hlast, -⟩ | ⟨index, -, part, hne⟩⟩
    · cases hne
    · cases hne
    · omega
    · cases hne
  · have hend : layerBound spec worldSize worldSize = _ := layerBound_end (by omega)
    obtain ⟨rank, ⟨hrank, hblock⟩, hunique⟩ := existsUnique_block layerBound_monotone
      layerBound_zero hend hindex
    refine ⟨rank, ⟨hrank, .inr (.inr (.inr ⟨index, hblock, part, rfl⟩))⟩, ?_⟩
    rintro rank' ⟨hrank', ⟨hne, -⟩ | ⟨hne, -⟩ | ⟨hne, -⟩ | ⟨index', hblock', part', heq⟩⟩
    · cases hne
    · cases hne
    · cases hne
    · obtain ⟨rfl, -⟩ := Weight.layer.inj heq
      exact hunique rank' ⟨hrank', hblock'⟩

/-- The stages together ask for the manifest: each weight is asked for by one stage, but for a tied
table of embeddings, which the first and the last stage have. -/
structure StagesAsManifest (spec : ModelSpec) (manifest : ByName (List Nat)) (worldSize : Nat)
    (stages : List StageAssignment) (requests : StageAssignment → List Request) : Prop where
  asks : ∀ stage ∈ stages, StageAsks spec.config stage (requests stage)
  distinct : ∀ stage ∈ stages, ((requests stage).map (·.name)).Nodup
  total : ∀ stage ∈ stages, ∀ dtype contextLength budgetBytes plan,
    StageMemoryPlan.forStage spec stage dtype contextLength budgetBytes = .ok plan →
    ((requests stage).map (·.shape.prod)).sum = plan.materializedParameters
  entries : ∀ name shape, (∃ stage ∈ stages, (name, shape) ∈ (requests stage).map entryOf) ↔
    manifest[name]? = some shape
  once : ∀ name shape, manifest[name]? = some shape →
    ¬ (name = "model.embed_tokens.weight" ∧ spec.config.tieWordEmbeddings = true) →
    ∃! rank : Nat, ∃ stage, stages[rank]? = some stage ∧ name ∈ (requests stage).map (·.name)
  tied : spec.config.tieWordEmbeddings = true → ∀ (rank : Nat) stage, stages[rank]? = some stage →
    ("model.embed_tokens.weight" ∈ (requests stage).map (·.name) ↔ rank = 0 ∨ rank + 1 = worldSize)

theorem stagesAsManifest (hd : spec.config.Heads d) (h : expectedTensorShapes spec = .ok manifest)
    (hworld : 2 ≤ worldSize) (hlayers : worldSize ≤ spec.config.numHiddenLayers) :
    StagesAsManifest spec manifest worldSize ((List.range worldSize).map (stageOf spec worldSize))
      fun stage => (weightsOf spec.config stage).map (Weight.request spec.config d) := by
  have hname : ∀ (stage : StageAssignment) (w : Weight),
      w.name ∈ ((weightsOf spec.config stage).map (Weight.request spec.config d)).map (·.name) ↔
        w ∈ weightsOf spec.config stage := by
    intro stage w
    rw [List.map_map]
    exact List.mem_map_of_injective Weight.name_injective
  have hmem : ∀ {rank : Nat} {w : Weight}, rank < worldSize →
      w ∈ weightsOf spec.config (stageOf spec worldSize rank) → w ∈ modelWeights spec.config := by
    intro rank w hrank hw
    rw [mem_modelWeights]
    rcases mem_weightsOf.mp hw with ⟨rfl, -⟩ | ⟨rfl, -⟩ | ⟨rfl, -, huntied⟩ | ⟨index, hblock, part, rfl⟩
    · exact .inl rfl
    · exact .inr (.inl rfl)
    · exact .inr (.inr (.inl ⟨rfl, huntied⟩))
    · have hle : layerBound spec worldSize (rank + 1) ≤ layerBound spec worldSize worldSize :=
        layerBound_monotone hrank
      rw [layerBound_end (by omega)] at hle
      exact .inr (.inr (.inr ⟨index, by omega, part, rfl⟩))
  refine ⟨?_, ?_, ?_, ?_, ?_, ?_⟩
  · intro stage hstage
    obtain ⟨rank, hrank, rfl⟩ := List.mem_map.mp hstage
    exact stageAsks hd hworld hlayers (List.mem_range.mp hrank)
  · intro stage hstage
    obtain ⟨rank, hrank, rfl⟩ := List.mem_map.mp hstage
    rw [List.map_map]
    refine (nodup_stageWeights ?_).map Weight.name_injective
    simp only [stageOf, beq_iff_eq]
    omega
  · intro stage hstage dtype contextLength budgetBytes plan hplan
    rw [(StageMemoryPlan.planned_of_forStage hd hplan).materialized, List.map_map]
    exact sum_stageWeights spec.config d _ _ _ _
  · intro name shape
    rw [getElem?_manifest hd h]
    constructor
    · rintro ⟨stage, hstage, hentry⟩
      obtain ⟨rank, hrank, rfl⟩ := List.mem_map.mp hstage
      rw [List.map_map] at hentry
      obtain ⟨w, hw, heq⟩ := List.mem_map.mp hentry
      obtain ⟨hwname, hshape⟩ := Prod.mk.inj heq
      exact ⟨w, hmem (List.mem_range.mp hrank) hw, hwname, hshape⟩
    · rintro ⟨w, hw, rfl, rfl⟩
      have hsome : ∃ rank, rank < worldSize ∧ w ∈ weightsOf spec.config (stageOf spec worldSize rank) := by
        by_cases htied : w = .embedTokens ∧ spec.config.tieWordEmbeddings = true
        · exact ⟨0, by omega, mem_weightsOf.mpr (.inl ⟨htied.1, .inl rfl⟩)⟩
        · exact (existsUnique_stage hworld hw htied).exists
      obtain ⟨rank, hrank, hmem⟩ := hsome
      refine ⟨_, List.mem_map_of_mem (List.mem_range.mpr hrank), ?_⟩
      rw [List.map_map]
      exact List.mem_map.mpr ⟨w, hmem, rfl⟩
  · intro name shape hentry hsingle
    obtain ⟨w, hw, rfl, -⟩ := (getElem?_manifest hd h).mp hentry
    have hsingle' : ¬ (w = .embedTokens ∧ spec.config.tieWordEmbeddings = true) := by
      rintro ⟨rfl, htied⟩
      exact hsingle ⟨rfl, htied⟩
    obtain ⟨rank, ⟨hrank, hmem⟩, hunique⟩ := existsUnique_stage hworld hw hsingle'
    refine ⟨rank, ⟨_, getElem?_stages.mpr ⟨hrank, rfl⟩, (hname _ w).mpr hmem⟩, ?_⟩
    rintro rank' ⟨stage, hstage, hmem'⟩
    obtain ⟨hrank', rfl⟩ := getElem?_stages.mp hstage
    exact hunique rank' ⟨hrank', (hname _ w).mp hmem'⟩
  · intro htied rank stage hstage
    obtain ⟨-, rfl⟩ := getElem?_stages.mp hstage
    rw [show "model.embed_tokens.weight" = Weight.embedTokens.name from rfl, hname, mem_weightsOf]
    simp [htied]

end Partition

/-- Manifest, loaders and parameter formulas describe the same weights. -/
theorem checkpoint_manifest_agrees (spec : ModelSpec) (d : Nat)
    (hd : spec.config.headDim = .ok d) :
    ∃ manifest, expectedTensorShapes spec = .ok manifest ∧
      (∃ requests, LlamaAsks spec.config requests ∧ AsManifest manifest requests) ∧
      (∀ worldSize partition, PipelinePartition.balanced spec worldSize = .ok partition →
        ∃ requests, StagesAsManifest spec manifest worldSize partition.stages requests) ∧
      (∀ parallel plan, planTensorShard spec.config parallel = .ok plan →
        (∃ requests, ShardAsks spec.config parallel requests ∧ AsManifest manifest requests) ∧
        plan.architecturalParameters = (manifest.toList.map (·.2.prod)).sum) ∧
      (∀ breakdown total, parameterBreakdown spec = .ok breakdown → breakdown.total = .ok total →
        total = (manifest.toList.map (·.2.prod)).sum) ∧
      ((∀ entry ∈ manifest.toList, ∀ dim ∈ entry.2, dim < 2 ^ 64) →
        spec.expectedParameters < 2 ^ 64 →
        spec.expectedParameters = (manifest.toList.map (·.2.prod)).sum →
        ∀ tensors, validateTensorMetadata spec tensors = .ok () ↔
          ∀ name : String, tensors[name]? =
            manifest[name]?.map fun shape => (shape, spec.checkpointDtype.safetensors)) := by
  have hheads := ModelConfig.headDim_eq_ok.mp hd
  have hmanifest := expectedTensorShapes_eq hheads
  refine ⟨_, hmanifest, ⟨_, llamaAsks hheads, ?_⟩, ?_, ?_, ?_, ?_⟩
  · exact asManifest_of_perm hheads hmanifest (List.Perm.refl _) fun _ => rfl
  · intro worldSize partition hpartition
    obtain ⟨⟨hworld, -⟩, hlayers, rfl⟩ := balanced_eq_ok.mp hpartition
    exact ⟨_, stagesAsManifest hheads hmanifest hworld hlayers⟩
  · intro parallel plan hplan
    refine ⟨⟨_, shardAsks hheads hplan, ?_⟩, ?_⟩
    · exact asManifest_of_perm hheads hmanifest shardedWeights_perm fun _ => rfl
    · obtain ⟨d', hsharded, hplanned⟩ := planTensorShard_ok hplan
      obtain rfl := hheads.unique hsharded.heads
      rw [hplanned.architectural, sum_manifest hheads hmanifest]
  · intro breakdown total hbreakdown htotal
    obtain ⟨d', hheads', rfl, -⟩ := parameterBreakdown_total hbreakdown htotal
    obtain rfl := hheads.unique hheads'
    rw [sum_manifest hheads hmanifest]
  · intro hdims hfits hexpected tensors
    exact validateTensorMetadata_iff hheads hmanifest hdims hexpected hfits tensors

theorem checkpoint_manifest_agrees_smol : ∃ manifest,
    expectedTensorShapes SupportedModelId.smolLm2_135MInstruct.spec = .ok manifest ∧
    (∃ requests, LlamaAsks SupportedModelId.smolLm2_135MInstruct.spec.config requests ∧
      AsManifest manifest requests) ∧
    ∃ partition requests,
      PipelinePartition.balanced SupportedModelId.smolLm2_135MInstruct.spec 4 = .ok partition ∧
      StagesAsManifest SupportedModelId.smolLm2_135MInstruct.spec manifest 4 partition.stages
        requests := by
  obtain ⟨manifest, hmanifest, hwhole, hstages, -⟩ :=
    checkpoint_manifest_agrees SupportedModelId.smolLm2_135MInstruct.spec 64 rfl
  have hpartition : PipelinePartition.balanced SupportedModelId.smolLm2_135MInstruct.spec 4 =
      .ok ⟨30, (List.range 4).map (stageOf SupportedModelId.smolLm2_135MInstruct.spec 4)⟩ :=
    balanced_eq_ok.mpr ⟨⟨by decide, by decide⟩, by decide, rfl⟩
  obtain ⟨requests, hrequests⟩ := hstages 4 _ hpartition
  exact ⟨manifest, hmanifest, hwhole, _, requests, hpartition, hrequests⟩

end Dlir.Pipeline
