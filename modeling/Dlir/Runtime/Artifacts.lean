import Dlir.Runtime.Manifest

namespace Dlir.Runtime

open Dlir.Framework Dlir.Math Std

/-- An ordered map by tensor name. -/
abbrev ByName (β : Type) : Type := ExtTreeMap String β compare

/-- The body of the loop over the layers. -/
def insertLayer (cfg : ModelConfig) (kvSize : Nat) (tensors : ByName (List Nat)) (layer : Nat) :
    ByName (List Nat) :=
  let path := s!"model.layers.{layer}"
  let tensors :=
    tensors.insert s!"{path}.self_attn.q_proj.weight" [cfg.hiddenSize, cfg.hiddenSize]
  let tensors := ["k_proj", "v_proj"].foldl (fun tensors projection =>
    tensors.insert s!"{path}.self_attn.{projection}.weight" [kvSize, cfg.hiddenSize]) tensors
  let tensors :=
    tensors.insert s!"{path}.self_attn.o_proj.weight" [cfg.hiddenSize, cfg.hiddenSize]
  let tensors := ["gate_proj", "up_proj"].foldl (fun tensors projection =>
    tensors.insert s!"{path}.mlp.{projection}.weight" [cfg.intermediateSize, cfg.hiddenSize])
    tensors
  let tensors :=
    tensors.insert s!"{path}.mlp.down_proj.weight" [cfg.hiddenSize, cfg.intermediateSize]
  let tensors := tensors.insert s!"{path}.input_layernorm.weight" [cfg.hiddenSize]
  tensors.insert s!"{path}.post_attention_layernorm.weight" [cfg.hiddenSize]

def expectedTensorShapes (spec : ModelSpec) : Except DlirError (ByName (List Nat)) := do
  let cfg := spec.config
  let headDim ← cfg.headDim
  let kvSize := cfg.numKeyValueHeads * headDim
  let tensors : ByName (List Nat) :=
    (∅ : ByName (List Nat)).insert "model.embed_tokens.weight" [cfg.vocabSize, cfg.hiddenSize]
  let tensors := tensors.insert "model.norm.weight" [cfg.hiddenSize]
  let tensors := if cfg.tieWordEmbeddings then tensors
    else tensors.insert "lm_head.weight" [cfg.vocabSize, cfg.hiddenSize]
  pure ((List.range cfg.numHiddenLayers).foldl (insertLayer cfg kvSize) tensors)

/-- Validates checkpoint tensor names, shapes, dtypes, and total parameter count. -/
def validateTensorMetadata (spec : ModelSpec) (tensors : ByName (List Nat × SafetensorsDtype)) :
    Except DlirError Unit := do
  let expected ← expectedTensorShapes spec
  let wrongDtypes := (tensors.toList.filter fun entry =>
    entry.2.2 ≠ spec.checkpointDtype.safetensors).map fun entry => (entry.1, entry.2.2)
  refuse (wrongDtypes ≠ []) <| .checkpointMismatch
    (.dtypes spec.checkpointDtype wrongDtypes.length (wrongDtypes.take 8))
  let actual : ByName (List Nat) := tensors.map fun _ value => value.1
  refuse (actual ≠ expected) <| .checkpointMismatch (.manifest
    (expected.keys.filter (!actual.contains ·))
    (actual.keys.filter (!expected.contains ·))
    (expected.toList.filterMap fun entry => (actual[entry.1]?.filter (· ≠ entry.2)).map
      fun shape => (entry.1, entry.2, shape)))
  let parameters ← okOr (.checkpointMismatch .parameterOverflow) <|
    tensors.toList.foldlM (fun total entry =>
      (entry.2.1.foldlM checkedMul 1).bind fun count => checkedAdd total count) 0
  refuse (parameters ≠ spec.expectedParameters) <| .checkpointMismatch
    (.parameters parameters spec.expectedParameters)

/-- The weights of a layer in the order in which they are entered. -/
def manifestParts : List LayerPart :=
  [.qProj, .kProj, .vProj, .oProj, .gateProj, .upProj, .downProj, .inputLayernorm,
    .postAttentionLayernorm]

def layerWeights (index : Nat) : List Weight := manifestParts.map (.layer index)

/-- The weights of the manifest in the order in which they are entered. -/
def manifestWeights (config : ModelConfig) : List Weight :=
  [.embedTokens, .norm] ++ ((if config.tieWordEmbeddings then [] else [.lmHead]) ++
    (List.range config.numHiddenLayers).flatMap layerWeights)

/-- What the manifest says of a weight. -/
def Weight.entry (config : ModelConfig) (d : Nat) (w : Weight) : String × List Nat :=
  (w.name, w.shape config d)

theorem insertLayer_eq (config : ModelConfig) (d : Nat) (tensors : ByName (List Nat)) (layer : Nat) :
    insertLayer config (config.numKeyValueHeads * d) tensors layer =
      insertAll tensors ((layerWeights layer).map (Weight.entry config d)) := by
  have hstring : ∀ s : String, toString s = s := fun _ => rfl
  simp only [insertLayer, hstring, String.append_assoc, List.foldl_cons, List.foldl_nil, insertAll,
    layerWeights, manifestParts, Weight.entry, Weight.name, Weight.shape, LayerPart.suffix, List.map_cons,
    List.map_nil]
  rfl

theorem expectedTensorShapes_eq {spec : ModelSpec} {d : Nat} (hd : spec.config.Heads d) :
    expectedTensorShapes spec =
      .ok (insertAll ∅ ((manifestWeights spec.config).map (Weight.entry spec.config d))) := by
  have hlayers : insertLayer spec.config (spec.config.numKeyValueHeads * d) =
      fun tensors layer => insertAll tensors ((layerWeights layer).map (Weight.entry spec.config d)) := by
    funext tensors layer
    exact insertLayer_eq spec.config d tensors layer
  simp only [expectedTensorShapes, ModelConfig.headDim_eq_ok.mpr hd, manifestWeights,
    List.map_append, List.map_flatMap, insertAll_append, insertAll_flatMap, ← hlayers]
  split_ifs <;> rfl

theorem manifestWeights_perm (config : ModelConfig) :
    (manifestWeights config).Perm (modelWeights config) := by
  have hlayer : ∀ index, (layerWeights index).Perm (blockWeights index) :=
    fun index => List.Perm.map _ (by decide)
  have hblocks : ((List.range config.numHiddenLayers).flatMap layerWeights).Perm
      ((List.range config.numHiddenLayers).flatMap blockWeights) :=
    List.Perm.flatMap_left _ fun index _ => hlayer index
  unfold manifestWeights modelWeights
  rw [← List.singleton_append, List.append_assoc]
  refine List.Perm.append_left _ ?_
  refine List.perm_append_comm.trans ?_
  rw [List.append_assoc]
  exact List.Perm.append_left _ (hblocks.append_right _)

section Manifest

variable {spec : ModelSpec} {d : Nat} {manifest : ByName (List Nat)}

/-- The manifest lists every weight of the model once. -/
theorem toList_manifest_perm (hd : spec.config.Heads d)
    (h : expectedTensorShapes spec = .ok manifest) :
    manifest.toList.Perm ((modelWeights spec.config).map (Weight.entry spec.config d)) := by
  rw [expectedTensorShapes_eq hd] at h
  obtain rfl := Except.ok.inj h
  have hperm := manifestWeights_perm spec.config
  refine (toList_insertAll_perm ?_).trans (hperm.map _)
  rw [List.map_map]
  exact (hperm.nodup_iff.mpr nodup_modelWeights).map Weight.name_injective

theorem getElem?_manifest (hd : spec.config.Heads d) (h : expectedTensorShapes spec = .ok manifest)
    {name : String} {shape : List Nat} :
    manifest[name]? = some shape ↔
      ∃ w ∈ modelWeights spec.config, w.name = name ∧ w.shape spec.config d = shape := by
  rw [← ExtTreeMap.mem_toList_iff_getElem?_eq_some, (toList_manifest_perm hd h).mem_iff, List.mem_map]
  simp only [Weight.entry, Prod.mk.injEq]

theorem sum_manifest (hd : spec.config.Heads d) (h : expectedTensorShapes spec = .ok manifest) :
    (manifest.toList.map (·.2.prod)).sum = spec.config.parameters d := by
  rw [((toList_manifest_perm hd h).map _).sum_eq, List.map_map]
  exact sum_modelWeights spec.config d

/-- Counting the elements of tables of one or two dimensions. -/
theorem foldlM_count {entries : List (String × List Nat × SafetensorsDtype)} {start : Nat}
    (hdims : ∀ entry ∈ entries, ∀ dim ∈ entry.2.1, dim < 2 ^ 64)
    (hrank : ∀ entry ∈ entries, entry.2.1.length ≤ 2)
    (hfits : start + (entries.map (·.2.1.prod)).sum < 2 ^ 64) :
    entries.foldlM (fun total entry =>
      (entry.2.1.foldlM checkedMul 1).bind fun count => checkedAdd total count) start =
      some (start + (entries.map (·.2.1.prod)).sum) := by
  induction entries generalizing start with
  | nil => rfl
  | cons entry entries ih =>
    rw [List.map_cons, List.sum_cons] at hfits
    have hcount : entry.2.1.foldlM checkedMul 1 = some entry.2.1.prod := by
      have hdims' := hdims entry List.mem_cons_self
      have hrank' := hrank entry List.mem_cons_self
      rcases hshape : entry.2.1 with _ | ⟨a, _ | ⟨b, _ | ⟨c, rest⟩⟩⟩
      · rfl
      · rw [hshape] at hdims'
        simp only [List.foldlM_cons, List.foldlM_nil, List.prod_cons, List.prod_nil, Nat.mul_one]
        rw [checkedMul_some (by simpa using hdims' a (by simp)), Nat.one_mul]
        rfl
      · rw [hshape] at hdims' hfits
        simp only [List.prod_cons, List.prod_nil, Nat.mul_one] at hfits
        simp only [List.foldlM_cons, List.foldlM_nil, List.prod_cons, List.prod_nil, Nat.mul_one]
        rw [checkedMul_some (by simpa using hdims' a (by simp)), Nat.one_mul]
        show checkedMul a b >>= _ = _
        rw [checkedMul_some (by omega)]
        rfl
      · rw [hshape] at hrank'
        simp at hrank'
    rw [List.foldlM_cons, hcount]
    show (checkedAdd start entry.2.1.prod >>= _) = _
    rw [checkedAdd_some (by omega), List.map_cons, List.sum_cons, ← Nat.add_assoc]
    exact ih (fun e he => hdims e (List.mem_cons_of_mem _ he))
      (fun e he => hrank e (List.mem_cons_of_mem _ he)) (by omega)

theorem shape_length_le (config : ModelConfig) (d : Nat) (w : Weight) :
    (w.shape config d).length ≤ 2 := by
  cases w with
  | layer index part => cases part <;> simp [Weight.shape]
  | embedTokens => simp [Weight.shape]
  | norm => simp [Weight.shape]
  | lmHead => simp [Weight.shape]

/-- A checkpoint is accepted exactly when it has the tensors of the manifest, in the type of the
registry entry. -/
theorem validateTensorMetadata_iff (hd : spec.config.Heads d)
    (h : expectedTensorShapes spec = .ok manifest)
    (hdims : ∀ entry ∈ manifest.toList, ∀ dim ∈ entry.2, dim < 2 ^ 64)
    (hexpected : spec.expectedParameters = (manifest.toList.map (·.2.prod)).sum)
    (hfits : spec.expectedParameters < 2 ^ 64) (tensors : ByName (List Nat × SafetensorsDtype)) :
    validateTensorMetadata spec tensors = .ok () ↔
      ∀ name : String, tensors[name]? =
        manifest[name]?.map fun shape => (shape, spec.checkpointDtype.safetensors) := by
  have hmap : ∀ name : String, (tensors.map fun _ value => value.1)[name]? =
      tensors[name]?.map (·.1) := by
    intro name
    exact ExtTreeMap.getElem?_map
  simp only [validateTensorMetadata, bind_eq_ok, h, Except.ok.injEq, exists_eq_left', refuse_eq_ok,
    okOr_eq_ok, not_not, exists_const]
  constructor
  · rintro ⟨hdtypes, hshapes, -⟩ name
    rw [← hshapes, hmap, Option.map_map]
    cases hget : tensors[name]? with
    | none => rfl
    | some value =>
      have hmem := ExtTreeMap.mem_toList_iff_getElem?_eq_some.mpr hget
      rw [List.map_eq_nil_iff, List.filter_eq_nil_iff] at hdtypes
      have hdtype : value.2 = spec.checkpointDtype.safetensors := by
        simpa using hdtypes _ hmem
      rw [Option.map_some, Function.comp_apply, ← hdtype]
  · intro hall
    have hvalue : ∀ entry ∈ tensors.toList, entry.2.2 = spec.checkpointDtype.safetensors ∧
        (entry.1, entry.2.1) ∈ manifest.toList := by
      rintro ⟨name, shape, dtype⟩ hmem
      have hget := ExtTreeMap.mem_toList_iff_getElem?_eq_some.mp hmem
      rw [hall, Option.map_eq_some_iff] at hget
      obtain ⟨shape', hshape', heq⟩ := hget
      obtain ⟨rfl, rfl⟩ := Prod.mk.inj heq
      exact ⟨rfl, ExtTreeMap.mem_toList_iff_getElem?_eq_some.mpr hshape'⟩
    have hshapes : tensors.map (fun _ value => value.1) = manifest := by
      apply ExtTreeMap.ext_getElem?
      intro name
      rw [hmap, hall, Option.map_map]
      exact Option.map_id'
    have hsum : (tensors.toList.map (·.2.1.prod)).sum = spec.expectedParameters := by
      rw [hexpected, ← hshapes, ExtTreeMap.toList_map, List.map_map]
      rfl
    have hcount : tensors.toList.foldlM (fun total entry =>
        (entry.2.1.foldlM checkedMul 1).bind fun count => checkedAdd total count) 0 =
        some (0 + (tensors.toList.map (·.2.1.prod)).sum) := by
      apply foldlM_count
      · intro entry hentry dim hdim
        exact hdims _ (hvalue entry hentry).2 dim hdim
      · intro entry hentry
        have hmem := (toList_manifest_perm hd h).mem_iff.mp (hvalue entry hentry).2
        obtain ⟨w, -, hw⟩ := List.mem_map.mp hmem
        obtain ⟨-, hshape⟩ := Prod.mk.inj hw
        rw [← hshape]
        exact shape_length_le _ _ w
      · rw [Nat.zero_add, hsum]
        exact hfits
    refine ⟨?_, hshapes, _, hcount, ?_⟩
    · rw [List.map_eq_nil_iff, List.filter_eq_nil_iff]
      intro entry hentry
      simp [(hvalue entry hentry).1]
    · rw [Nat.zero_add, hsum]

end Manifest

end Dlir.Runtime
