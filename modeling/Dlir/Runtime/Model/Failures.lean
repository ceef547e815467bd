import Dlir.Runtime.Model.Loaded

namespace Dlir.Runtime.Model

open Dlir.Collectives Dlir.Framework Forward

variable {α β σ : Type} {lib : Library α} {config : ModelConfig}

section Loaded

/-- The weights that are found have the shape that is asked for. -/
def VarBuilder.Shaped (vb : VarBuilder (Tensor α)) : Prop :=
  ∀ request t, vb.backend request = .ok t → t.shape = request.shape

/-- A rank's share of the weights that are found has the shape that is asked for. -/
structure WeightSource.Shaped (source : WeightSource (Tensor α)) (parallel : ParallelContext) :
    Prop where
  dims : ∀ t, source.dims t = t.shape
  tensor : ∀ request t, source.tensor request parallel = .ok t →
    t.shape = request.localShape parallel.tpSize

/-- A model of a configuration, from any weights and with tables of any length. -/
def Llama.Loaded (lib : Library α) (config : ModelConfig)
    (model : Llama (Tensor α) (RotaryEmbedding α)) : Prop :=
  ∃ vb capacity asked, VarBuilder.Shaped vb ∧
    ((Llama.load (RotaryEmbedding.new lib) vb config capacity).run asked).1 = .ok model

def LlamaStage.Loaded (lib : Library α) (config : ModelConfig)
    (stage : LlamaStage (Tensor α) (RotaryEmbedding α)) : Prop :=
  ∃ vb start stop first last capacity asked, VarBuilder.Shaped vb ∧
    ((LlamaStage.load (RotaryEmbedding.new lib) vb config start stop first last capacity).run
      asked).1 = .ok stage

def TensorParallelLlama.Loaded (lib : Library α) (config : ModelConfig)
    (model : TensorParallelLlama (Tensor α) (RotaryEmbedding α)) : Prop :=
  ∃ source parallel capacity algorithm asked, WeightSource.Shaped source parallel ∧
    ((TensorParallelLlama.loadFrom (RotaryEmbedding.new lib) source config parallel capacity
      algorithm).run asked).1 = .ok model

theorem rotary_heads {capacity : Nat} {rope : RotaryEmbedding α}
    (h : RotaryEmbedding.new lib config capacity = .ok rope) : ∃ d, config.Heads d := by
  simp only [RotaryEmbedding.new, bind_eq_ok, ModelConfig.headDim_eq_ok] at h
  obtain ⟨d, hd, -⟩ := h
  exact ⟨d, hd⟩

variable (hlib : lib.Documented)

include hlib

theorem Llama.Loaded.fits {model : Llama (Tensor α) (RotaryEmbedding α)}
    (h : Llama.Loaded lib config model) :
    ∃ rows d, Llama.Fits model config rows d ∧ model.blocks.length = config.numHiddenLayers := by
  obtain ⟨vb, capacity, asked, hvb, hload⟩ := h
  have hheads : Always (fun _ => ∃ d, config.Heads d)
      (Llama.load (RotaryEmbedding.new lib) vb config capacity) := by
    have hrest : ∀ (table : Embedding (Tensor α)) (head : Linear (Tensor α)),
        Always (fun _ => ∃ d, config.Heads d) (do
          let blocks ← (List.range config.numHiddenLayers).mapM fun index =>
            Block.load (vb.pp s!"model.layers.{index}") config
          let finalNorm ← rmsNorm config.hiddenSize (vb.pp "model.norm")
          let rope ← settle (RotaryEmbedding.new lib config capacity)
          pure (Llama.mk table blocks finalNorm head rope) : Load _) := by
      intro table head
      refine (Always.trivial _).bind fun _ _ => ?_
      refine (Always.trivial _).bind fun _ _ => ?_
      exact (always_settle fun rope hrope => rotary_heads hrope).bind fun _ hd => Always.pure hd
    unfold Llama.load
    refine (Always.trivial _).bind fun table _ => ?_
    by_cases htie : config.tieWordEmbeddings = true
    · simp only [htie, if_true]
      exact hrest table ⟨table.embeddings⟩
    · simp only [htie]
      exact (Always.trivial _).bind fun head _ => hrest table head
  obtain ⟨d, hd⟩ := Asking.always_iff.mp hheads asked model hload
  exact ⟨capacity, d,
    Asking.always_iff.mp (llama_loaded hvb hlib hd capacity) asked model hload⟩

theorem LlamaStage.Loaded.fits {stage : LlamaStage (Tensor α) (RotaryEmbedding α)}
    (h : LlamaStage.Loaded lib config stage) : ∃ rows d, LlamaStage.Fits stage config rows d := by
  obtain ⟨vb, start, stop, first, last, capacity, asked, hvb, hload⟩ := h
  have hheads : Always (fun _ => ∃ d, config.Heads d)
      (LlamaStage.load (RotaryEmbedding.new lib) vb config start stop first last capacity) := by
    unfold LlamaStage.load
    refine (Always.trivial _).bind fun _ _ => ?_
    refine (Always.trivial _).bind fun _ _ => ?_
    refine (Always.trivial _).bind fun _ _ => ?_
    refine (Always.trivial _).bind fun _ _ => ?_
    refine (Always.trivial _).bind fun _ _ => ?_
    exact (always_settle fun rope hrope => rotary_heads hrope).bind fun _ hd => Always.pure hd
  obtain ⟨d, hd⟩ := Asking.always_iff.mp hheads asked stage hload
  exact ⟨capacity, d,
    (Asking.always_iff.mp (stage_loaded hvb hlib hd start stop first last capacity) asked stage
      hload).1⟩

theorem TensorParallelLlama.Loaded.fits
    {model : TensorParallelLlama (Tensor α) (RotaryEmbedding α)}
    (h : TensorParallelLlama.Loaded lib config model) :
    ∃ rows d, TensorParallelLlama.Fits model config rows d := by
  obtain ⟨source, parallel, capacity, algorithm, asked, hsource, hload⟩ := h
  have hplan : Always (fun _ => ∃ plan, planTensorShard config parallel = .ok plan)
      (TensorParallelLlama.loadFrom (RotaryEmbedding.new lib) source config parallel capacity
        algorithm) := by
    unfold TensorParallelLlama.loadFrom
    refine (always_settle fun plan hplan => hplan).bind fun plan hplan => ?_
    exact (Always.trivial _).imp fun _ _ => ⟨plan, hplan⟩
  obtain ⟨plan, hplan⟩ := Asking.always_iff.mp hplan asked model hload
  obtain ⟨d, hsharded, -⟩ := planTensorShard_ok hplan
  exact ⟨capacity, d, (Asking.always_iff.mp (tensor_loaded hsource.tensor hsharded hlib hsource.dims
    capacity) asked model hload).1⟩

end Loaded

/-- A call on a cache, with the state of what the communicator and the observer act on: its result
and the cache after it. -/
def Forward.call (c : Forward (StateM σ) α β) (cache : KvCache α) (s : σ) :
    Except DlirError β × KvCache α :=
  ((c.run.run cache).run s).1

theorem Forward.call_spec {c : Forward (StateM σ) α β} {cache : KvCache α}
    {Q : Except DlirError β → KvCache α → Prop} (h : Ensures c cache Q) {s : σ}
    {r : Except DlirError β} {cache' : KvCache α} (hcall : c.call cache s = (r, cache')) :
    Q r cache' := by
  have hrun := Always.run_state h s
  rw [show ((c.run.run cache).run s).1 = (r, cache') from hcall] at hrun
  exact hrun

section Missing

variable {m : Type → Type} [Monad m] [LawfulMonad m]

end Missing

/-- The caches that are made for a configuration, after any successful calls. -/
inductive KvCache.Reached [Zero α] (lib : Library α) (config : ModelConfig) : KvCache α → Prop
  | new {capacity : Nat} {cache : KvCache α} (hnew : KvCache.new config capacity = .ok cache) :
      Reached lib config cache
  | newForLayers {layerCount capacity : Nat} {cache : KvCache α}
      (hnew : KvCache.newForLayers config layerCount capacity = .ok cache) :
      Reached lib config cache
  | newTensorParallel {tpSize capacity : Nat} {cache : KvCache α}
      (hnew : KvCache.newTensorParallel config tpSize capacity = .ok cache) :
      Reached lib config cache
  | forward {σ : Type} {s : σ} {cache cache' : KvCache α}
      {model : Llama (Tensor α) (RotaryEmbedding α)} {tokens : TokenTensor} {position : Nat}
      {logits : Tensor α} (hcache : Reached lib config cache)
      (hmodel : Llama.Loaded lib config model)
      (hcall : (Llama.forward lib model tokens position).call cache s = (.ok logits, cache')) :
      Reached lib config cache'
  | forwardTokens {σ : Type} {s : σ} {cache cache' : KvCache α}
      {stage : LlamaStage (Tensor α) (RotaryEmbedding α)} {observer : LayerObserver (StateM σ)}
      {tokens : TokenTensor} {position : Nat} {hidden : Tensor α}
      (hcache : Reached lib config cache) (hstage : LlamaStage.Loaded lib config stage)
      (hcall : (LlamaStage.forwardTokens lib stage observer tokens position).call cache s =
        (.ok hidden, cache')) :
      Reached lib config cache'
  | forwardHidden {σ : Type} {s : σ} {cache cache' : KvCache α}
      {stage : LlamaStage (Tensor α) (RotaryEmbedding α)} {observer : LayerObserver (StateM σ)}
      {input hidden : Tensor α} {position : Nat}
      (hcache : Reached lib config cache) (hstage : LlamaStage.Loaded lib config stage)
      (hcall : (LlamaStage.forwardHidden lib stage observer input position).call cache s =
        (.ok hidden, cache')) :
      Reached lib config cache'
  | forwardObserved {σ : Type} {s : σ} {cache cache' : KvCache α}
      {model : TensorParallelLlama (Tensor α) (RotaryEmbedding α)}
      {collectives : CollectiveCommunicator (StateM σ) α} {observer : LayerObserver (StateM σ)}
      {tokens : TokenTensor} {position : Nat} {logits : Tensor α}
      (hcache : Reached lib config cache) (hmodel : TensorParallelLlama.Loaded lib config model)
      (hcollectives : collectives.Documented)
      (hcall : (TensorParallelLlama.forwardObserved lib model collectives observer tokens
        position).call cache s = (.ok logits, cache')) :
      Reached lib config cache'

/-- All layers of a cache in use hold the same number of positions. -/
structure KvCache.Even (config : ModelConfig) (cache : KvCache α) : Prop where
  filled : ∃ kvHeads width n, cache.Filled kvHeads width n
  pos : 0 < cache.layers.length
  le : cache.layers.length ≤ config.numHiddenLayers

namespace KvCache.Even

variable {cache cache' : KvCache α}

theorem of_newForLayers [Zero α] {layerCount capacity : Nat}
    (h : newForLayers config layerCount capacity = .ok cache) : cache.Even config := by
  have hparts := h
  simp only [newForLayers, bind_eq_ok, refuse_eq_ok, pure_eq_ok, exists_const] at hparts
  obtain ⟨hcount, -, layers, hlayers, -⟩ := hparts
  have heach := forall₂_of_mapM hlayers
  obtain ⟨layer, hlayer⟩ := exists_of_forall₂_left heach (List.mem_range.mpr
    (show 0 < layerCount by omega))
  have hnew := hlayer.2
  simp only [LayerKvCache.new, bind_eq_ok, ModelConfig.headDim_eq_ok] at hnew
  obtain ⟨d, hd, -⟩ := hnew
  obtain ⟨hfilled, hlength, -, hpos⟩ := filled_of_newForLayers hd h
  exact ⟨⟨_, _, _, hfilled⟩, by omega, by omega⟩

theorem of_new [Zero α] {capacity : Nat} (h : new config capacity = .ok cache) :
    cache.Even config := by
  simp only [new, bind_eq_ok, refuse_eq_ok, exists_const] at h
  exact of_newForLayers h.2

theorem extended (h : cache.Even config) {sequence : Nat}
    (hextended : cache.Extended cache.layers.length sequence cache') : cache'.Even config := by
  obtain ⟨kvHeads, width, n, hfilled⟩ := h.filled
  refine ⟨⟨_, _, _, hextended.filled (Nat.le_refl _) hfilled⟩, ?_, ?_⟩
  · rw [hextended.length]
    exact h.pos
  · rw [hextended.length]
    exact h.le

theorem length_eq (h : cache.Even config) {layer : LayerKvCache α} (hlayer : layer ∈ cache.layers) :
    layer.length = cache.len := by
  obtain ⟨kvHeads, width, n, hfilled⟩ := h.filled
  rw [KvCache.len_eq hfilled h.pos]
  exact (hfilled layer hlayer).length

section Forwards

variable (hlib : lib.Documented) {s : σ} {r : Except DlirError (Tensor α)} {tokens : TokenTensor}
  {position : Nat} (h : cache.Even config)

include hlib h

theorem forward {model : Llama (Tensor α) (RotaryEmbedding α)}
    (hmodel : Llama.Loaded lib config model) (hcount : cache.layers.length = model.blocks.length)
    (hcall : (Llama.forward lib model tokens position).call cache s = (r, cache')) :
    AllOrNothing cache position (tokens.ids.shape.getD 1 0) r cache' := by
  obtain ⟨rows, d, hfits, -⟩ := hmodel.fits hlib
  obtain ⟨kvHeads, width, n, hfilled⟩ := h.filled
  exact call_spec (llama_forward hlib hfits h.pos hcount hfilled) hcall

theorem forwardTokens {stage : LlamaStage (Tensor α) (RotaryEmbedding α)}
    {observer : LayerObserver (StateM σ)} (hstage : LlamaStage.Loaded lib config stage)
    (hcall : (LlamaStage.forwardTokens lib stage observer tokens position).call cache s =
      (r, cache')) :
    AllOrNothing cache position (tokens.ids.shape.getD 1 0) r cache' := by
  obtain ⟨rows, d, hfits⟩ := hstage.fits hlib
  obtain ⟨kvHeads, width, n, hfilled⟩ := h.filled
  exact call_spec (stage_forwardTokens hlib hfits observer h.pos hfilled) hcall

theorem forwardHidden {stage : LlamaStage (Tensor α) (RotaryEmbedding α)}
    {observer : LayerObserver (StateM σ)} (hstage : LlamaStage.Loaded lib config stage)
    {input : Tensor α}
    (hview : lib.contiguous input = true ∨ input.shape.getLast? = some config.hiddenSize)
    (hcall : (LlamaStage.forwardHidden lib stage observer input position).call cache s =
      (r, cache')) :
    AllOrNothing cache position (input.shape.getD 1 0) r cache' := by
  obtain ⟨rows, d, hfits⟩ := hstage.fits hlib
  obtain ⟨kvHeads, width, n, hfilled⟩ := h.filled
  exact call_spec (stage_forwardHidden hlib hfits observer h.pos hfilled hview position) hcall

theorem forwardObserved {model : TensorParallelLlama (Tensor α) (RotaryEmbedding α)}
    (hmodel : TensorParallelLlama.Loaded lib config model)
    {collectives : CollectiveCommunicator (StateM σ) α} (hcoll : collectives.Documented)
    {observer : LayerObserver (StateM σ)}
    (hcall : (TensorParallelLlama.forwardObserved lib model collectives observer tokens
      position).call cache s = (r, cache')) :
    AllOrInterrupted cache position (tokens.ids.shape.getD 1 0) r cache' := by
  obtain ⟨rows, d, hfits⟩ := hmodel.fits hlib
  obtain ⟨kvHeads, width, n, hfilled⟩ := h.filled
  exact call_spec (tensor_forward hlib hfits hcoll observer h.pos hfilled) hcall

end Forwards

end KvCache.Even

/-- A tensor of one value. -/
def fill (a : Nat) (shape : List Nat) : Except CandleError (Tensor Nat) :=
  Tensor.fromVec (List.replicate shape.prod a) shape

/-- The operations at the first position of a model whose weights are all zero: no product is
anything but zero, and the only angle is zero. -/
def zeroKernel (op : Op) (args : List (Tensor Nat)) (shape : List Nat) :
    Except CandleError (Tensor Nat) :=
  match op, args with
  | .narrow dim start len, [x] => x.narrow dim start len
  | .reshape _, [x] | .contiguous, [x] | .toF32, [x] | .toDtype, [x] | .toDtypeOf, [x, _] =>
    Tensor.fromVec x.data shape
  | .softmaxLastDim, _ | .cos, _ => fill 1 shape
  | _, _ => fill 0 shape

def zeroWeights : Library Nat where
  toCandle := LayerKvCache.reference
  run op args := match op.shape (args.map Tensor.shape) with
    | none => .error (.tensor (.shapeMismatch [] []))
    | some shape => (zeroKernel op args shape).mapError fun _ => .overflow
  embed table tokens := (fill 0 (tokens.ids.shape ++ [table.hiddenSize])).mapError fun _ => .overflow
  ofNat n := n
  inverseFrequency _ _ := 1
  sameDtype := true
  contiguous _ := true

theorem zeroKernel_shape {op : Op} {args : List (Tensor Nat)} {shape : List Nat} {t : Tensor Nat}
    (hshape : op.shape (args.map Tensor.shape) = some shape)
    (h : zeroKernel op args shape = .ok t) : t.shape = shape := by
  unfold zeroKernel at h
  split at h
  · simp only [Op.shape, List.map_cons, List.map_nil] at hshape
    split_ifs at hshape with hrange
    obtain rfl := Option.some.inj hshape
    rename_i dim start len x
    have hdim : x.shape[dim]? = some (x.shape.getD dim 0) := by simp [List.getD, hrange.1]
    rw [Tensor.narrow_eq_slice hdim hrange.2] at h
    obtain rfl := Except.ok.inj h
    exact Tensor.slice_shape hdim hrange.2
  all_goals exact (Tensor.fromVec_parts h).1

theorem zeroWeights_documented : zeroWeights.Documented where
  toDocumented := LayerKvCache.reference_documented
  sliceSet_room _ dst src dim offset hdim hsource hroom :=
    Tensor.overwrite_room hdim hsource hroom
  sliceSet_refused h := by cases h
  run_yields := by
    intro op args shape hshape
    cases hresult : zeroKernel op args shape with
    | error e =>
      refine .inl ?_
      simp only [zeroWeights, hshape, hresult]
      rfl
    | ok t =>
      refine .inr ⟨t, ?_, zeroKernel_shape hshape hresult⟩
      simp only [zeroWeights, hshape, hresult]
      rfl
  run_refuses := by
    intro op args hshape _
    refine ⟨.tensor (.shapeMismatch [] []), ?_, .inr ⟨_, rfl⟩⟩
    simp only [zeroWeights, hshape]
  embed_shape h := by
    simp only [zeroWeights, mapError_eq_ok] at h
    exact (Tensor.fromVec_parts h).1

section TwoRanks

/-- One layer, with one head for each of two ranks. -/
def smallConfig : ModelConfig := ⟨2, 4, 2, 1, 2, 2, 1, 0, 0, false⟩

def zeroSource : WeightSource (Tensor Nat) where
  dims t := t.shape
  tensor request parallel := (fill 0 (request.localShape parallel.tpSize)).mapError .tensor

theorem zeroSource_shaped (parallel : ParallelContext) :
    WeightSource.Shaped zeroSource parallel where
  dims _ := rfl
  tensor request t h := by
    simp only [zeroSource, mapError_eq_ok] at h
    exact (Tensor.fromVec_parts h).1

def silent : LayerObserver (StateM Nat) := ⟨fun _ => pure (), fun _ => pure ()⟩

end TwoRanks

end Dlir.Runtime.Model
