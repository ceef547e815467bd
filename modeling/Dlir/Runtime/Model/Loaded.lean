import Dlir.Runtime.Model.Forwards

namespace Dlir.Runtime.Model

open Dlir.Collectives Dlir.Framework

variable {α : Type} {lib : Library α} {config : ModelConfig} {d : Nat}

theorem always_ask {ρ τ ε : Type} {source : ρ → Except ε τ} {r : ρ} {P : τ → Prop}
    (h : ∀ t, source r = .ok t → P t) : Always P (ask source r) :=
  Asking.always_iff.mpr fun _ t ht => h t ht

theorem always_settle {ρ τ ε : Type} {x : Except ε τ} {P : τ → Prop} (h : ∀ t, x = .ok t → P t) :
    Always P (settle x : Asking ρ ε τ) :=
  Asking.always_iff.mpr fun _ t ht => h t ht

/-- The rotary tables have a row for each position and a column for each pair of a head. -/
theorem rotary_fits (hlib : lib.Documented) {capacity : Nat} {rope : RotaryEmbedding α}
    (h : RotaryEmbedding.new lib config capacity = .ok rope) (hd : config.Heads d) :
    rope.Fits capacity d := by
  simp only [RotaryEmbedding.new, bind_eq_ok, mapError_eq_ok, pure_eq_ok,
    ModelConfig.headDim_eq_ok] at h
  obtain ⟨d', hd', theta, htheta, positions, hpositions, positions', -, column, hcolumn, row, hrow,
    frequencies, hfrequencies, c, hc, c', hc', e, he, e', he', rfl⟩ := h
  obtain rfl := hd.unique hd'
  have hcolumn := hlib.shape_of_ok rfl hcolumn
  have hrow := hlib.shape_of_ok rfl hrow
  have hc := hlib.shape_of_some (s := frequencies.shape) rfl hc
  have hc' := hlib.shape_of_some (s := c.shape) rfl hc'
  have he := hlib.shape_of_some (s := frequencies.shape) rfl he
  have he' := hlib.shape_of_some (s := e.shape) rfl he'
  simp only [Op.shape, List.map_cons, List.map_nil, Option.ite_none_right_eq_some,
    Option.some.injEq, (Tensor.fromVec_parts htheta).1] at hcolumn hrow
  obtain ⟨-, hcolumn⟩ := hcolumn
  obtain ⟨hpairs, hrow⟩ := hrow
  have htable : frequencies.shape = [capacity, d / 2] :=
    hlib.shape_of_some (by simp [Op.shape, ← hcolumn, ← hrow]) hfrequencies
  have heven : d / 2 * 2 = d := by
    simp only [List.length_map, List.length_range', List.prod_cons, List.prod_nil, Nat.mul_one,
      Nat.one_mul] at hpairs
    omega
  exact ⟨⟨d / 2, by rw [hc', hc, htable], heven⟩, ⟨d / 2, by rw [he', he, htable], heven⟩⟩

section Monolithic

variable {vb : VarBuilder (Tensor α)}
  (hvb : ∀ request t, vb.backend request = .ok t → t.shape = request.shape)

include hvb

theorem linear_loaded (inDim outDim : Nat) (path : List String) :
    Always (fun layer => layer.weight.shape = [outDim, inDim])
      (linearNoBias inDim outDim { vb with path }) := by
  unfold linearNoBias
  refine (always_ask (P := fun t => t.shape = [outDim, inDim]) ?_).bind fun t ht => Always.pure ht
  exact fun t ht => hvb _ t ht

theorem rmsNorm_loaded (size : Nat) (path : List String) :
    Always (fun norm => norm.weight.shape = [size]) (rmsNorm size { vb with path }) := by
  unfold rmsNorm
  refine (always_ask (P := fun t => t.shape = [size]) ?_).bind fun t ht => Always.pure ht
  exact fun t ht => hvb _ t ht

theorem embedding_loaded (inSize outSize : Nat) (path : List String) :
    Always (fun table => table.embeddings.shape = [inSize, outSize] ∧ table.hiddenSize = outSize)
      (embedding inSize outSize { vb with path }) := by
  unfold embedding
  refine (always_ask (P := fun t => t.shape = [inSize, outSize]) ?_).bind
    fun t ht => Always.pure ⟨ht, rfl⟩
  exact fun t ht => hvb _ t ht

theorem attention_loaded (hd : config.Heads d) (path : List String) :
    Always (fun attention : CausalSelfAttention (Tensor α) =>
      (CausalSelfAttention.projections attention).Fits config.hiddenSize ∧
      attention.numAttentionHeads * attention.headDim = config.hiddenSize ∧
      attention.numKeyValueHeads = config.numKeyValueHeads ∧ attention.headDim = d ∧
      attention.oProj.weight.shape = [config.hiddenSize, config.hiddenSize])
      (CausalSelfAttention.load { vb with path } config) := by
  unfold CausalSelfAttention.load
  refine (always_settle (P := fun d' => d' = d) fun d' hd' =>
    (ModelConfig.headDim_eq_ok.mp hd').unique hd).bind ?_
  rintro _ rfl
  refine (linear_loaded hvb _ _ _).bind fun q hq => ?_
  refine (linear_loaded hvb _ _ _).bind fun k hk => ?_
  refine (linear_loaded hvb _ _ _).bind fun v hv => ?_
  refine (linear_loaded hvb _ _ _).bind fun o ho => ?_
  exact Always.pure ⟨⟨hq.trans (congrArg ([·, config.hiddenSize]) hd.hidden_eq), hk, hv,
    hd.keys_dvd⟩, hd.hidden_eq.symm, rfl, rfl, ho⟩

theorem mlp_loaded (path : List String) :
    Always (fun mlp : Mlp (Tensor α) =>
      mlp.gateProj.weight.shape = [config.intermediateSize, config.hiddenSize] ∧
      mlp.upProj.weight.shape = [config.intermediateSize, config.hiddenSize] ∧
      mlp.downProj.weight.shape = [config.hiddenSize, config.intermediateSize])
      (Mlp.load { vb with path } config) := by
  unfold Mlp.load
  refine (linear_loaded hvb _ _ _).bind fun gate hgate => ?_
  refine (linear_loaded hvb _ _ _).bind fun up hup => ?_
  refine (linear_loaded hvb _ _ _).bind fun down hdown => ?_
  exact Always.pure ⟨hgate, hup, hdown⟩

theorem block_loaded (hd : config.Heads d) (path : List String) :
    Always (fun block => Block.Fits block config d) (Block.load { vb with path } config) := by
  unfold Block.load
  refine (rmsNorm_loaded hvb _ _).bind fun inputNorm hinputNorm => ?_
  refine (attention_loaded hvb hd _).bind fun attention ⟨hheads, hwidth, hkv, hdim, ho⟩ => ?_
  refine (rmsNorm_loaded hvb _ _).bind fun postNorm hpostNorm => ?_
  refine (mlp_loaded hvb _).bind fun mlp ⟨hgate, hup, hdown⟩ => ?_
  exact Always.pure ⟨hinputNorm, hheads, hwidth, hkv, hdim, ho, hpostNorm, hgate, hup, hdown⟩

theorem blocks_loaded (hd : config.Heads d) (path : List String) (indices : List Nat) :
    Always (fun blocks => (∀ block ∈ blocks, Block.Fits block config d) ∧
        blocks.length = indices.length)
      (indices.mapM fun index =>
        Block.load ({ vb with path }.pp s!"model.layers.{index}") config) := by
  refine (Always.mapM (R := fun _ block => Block.Fits block config d) fun index _ =>
    block_loaded hvb hd _).imp fun blocks hblocks => ⟨fun block hblock => ?_, hblocks.length_eq.symm⟩
  obtain ⟨-, -, hfits⟩ := exists_of_forall₂_right hblocks hblock
  exact hfits

/-- A loaded model has the shapes of its configuration. -/
theorem llama_loaded (hlib : lib.Documented) (hd : config.Heads d) (capacity : Nat) :
    Always (fun model => Llama.Fits model config capacity d ∧
        model.blocks.length = config.numHiddenLayers)
      (Llama.load (RotaryEmbedding.new lib) vb config capacity) := by
  unfold Llama.load
  refine (embedding_loaded hvb _ _ _).bind fun table ⟨htable, hsize⟩ => ?_
  have hrest : ∀ head : Linear (Tensor α),
      head.weight.shape = [config.vocabSize, config.hiddenSize] →
      Always (fun model : Llama (Tensor α) (RotaryEmbedding α) =>
        Llama.Fits model config capacity d ∧ model.blocks.length = config.numHiddenLayers) (do
        let blocks ← (List.range config.numHiddenLayers).mapM fun index =>
          Block.load (vb.pp s!"model.layers.{index}") config
        let finalNorm ← rmsNorm config.hiddenSize (vb.pp "model.norm")
        let rope ← settle (RotaryEmbedding.new lib config capacity)
        pure ⟨table, blocks, finalNorm, head, rope⟩ : Load _) := by
    intro head hhead
    refine (blocks_loaded hvb hd vb.path _).bind fun blocks ⟨hblocks, hcount⟩ => ?_
    refine (rmsNorm_loaded hvb _ _).bind fun norm hnorm => ?_
    refine (always_settle (P := fun rope => rope.Fits capacity d) fun rope hrope =>
      rotary_fits hlib hrope hd).bind fun rope hrope => ?_
    rw [List.length_range] at hcount
    exact Always.pure ⟨⟨hsize, hblocks, hnorm, hhead, hrope⟩, hcount⟩
  by_cases htie : config.tieWordEmbeddings = true
  · simp only [htie, if_true]
    exact hrest ⟨table.embeddings⟩ htable
  · simp only [htie]
    exact (linear_loaded hvb _ _ _).bind hrest

omit hvb in
theorem loadWhen_always {β : Type} {wanted : Bool} {c : Load β} {P : β → Prop} (h : Always P c) :
    Always (fun r => ∀ b, r = some b → P b) (loadWhen wanted c) := by
  unfold loadWhen
  split_ifs
  · exact h.map fun b hb b' hb' => Option.some.inj hb' ▸ hb
  · exact Always.pure fun b hb => by cases hb

theorem stage_loaded (hlib : lib.Documented) (hd : config.Heads d) (start stop : Nat)
    (first last : Bool) (capacity : Nat) :
    Always (fun stage => LlamaStage.Fits stage config capacity d ∧
        stage.blocks.length = stop - start)
      (LlamaStage.load (RotaryEmbedding.new lib) vb config start stop first last capacity) := by
  unfold LlamaStage.load
  refine (Always.trivial _).bind fun _ _ => ?_
  refine (loadWhen_always (embedding_loaded hvb _ _ _)).bind fun table htable => ?_
  refine (blocks_loaded hvb hd vb.path _).bind fun blocks ⟨hblocks, hcount⟩ => ?_
  refine (Always.trivial _).bind fun norm _ => ?_
  refine (Always.trivial _).bind fun head _ => ?_
  refine (always_settle (P := fun rope => rope.Fits capacity d) fun rope hrope =>
    rotary_fits hlib hrope hd).bind fun rope hrope => ?_
  rw [List.length_range'] at hcount
  exact Always.pure ⟨⟨fun t ht => (htable t ht).2, hblocks, hrope⟩, hcount⟩

end Monolithic

section TensorParallel

variable {source : WeightSource (Tensor α)} {parallel : ParallelContext}
  (hsource : ∀ request t, source.tensor request parallel = .ok t →
    t.shape = request.localShape parallel.tpSize)
  (hsharded : Sharded config parallel d) {algorithm : AllReduceAlgorithm}

include hsource

/-- A weight that every rank has in full. -/
theorem replicated_loaded (name : String) (shape : List Nat) :
    Always (fun t => t.shape = shape) (source.get parallel name shape none) :=
  always_ask fun t ht => hsource _ t ht

/-- A weight split by rows. -/
theorem rows_loaded (name : String) (a b : Nat) :
    Always (fun t => t.shape = [a / parallel.tpSize, b])
      (source.get parallel name [a, b] (some 0)) :=
  always_ask fun t ht => hsource _ t ht

/-- A weight split by columns. -/
theorem columns_loaded (name : String) (a b : Nat) :
    Always (fun t => t.shape = [a, b / parallel.tpSize])
      (source.get parallel name [a, b] (some 1)) :=
  always_ask fun t ht => hsource _ t ht

omit hsource in
theorem rowParallel_loaded {weight : Tensor α} :
    Always (fun layer => layer.linear.weight = weight)
      (settle (RowParallelLinear.fromWeight source weight algorithm) : Load _) := by
  refine always_settle fun layer h => ?_
  simp only [RowParallelLinear.fromWeight, bind_eq_ok, pure_eq_ok] at h
  obtain ⟨-, -, rfl⟩ := h
  rfl

include hsharded

theorem tensorAttention_loaded (path : String) :
    Always (fun attention : TensorParallelAttention (Tensor α) =>
      (TensorParallelAttention.projections attention).Fits config.hiddenSize ∧
      attention.localKvHeads = config.numKeyValueHeads / parallel.tpSize ∧
      attention.headDim = d ∧ attention.oProj.linear.weight.shape =
        [config.hiddenSize, attention.localQueryHeads * attention.headDim])
      (TensorParallelAttention.load source path config parallel algorithm) := by
  have hlocal := hsharded.localHeads
  have hqueries : config.hiddenSize / parallel.tpSize =
      config.numAttentionHeads / parallel.tpSize * d := hlocal.hidden_eq
  have hkeys : config.numKeyValueHeads * d / parallel.tpSize =
      config.numKeyValueHeads / parallel.tpSize * d := by
    rw [Nat.mul_comm, Nat.mul_div_assoc _ hsharded.keys_dvd, Nat.mul_comm]
  unfold TensorParallelAttention.load
  refine (always_settle (P := fun d' => d' = d) fun d' hd' =>
    (ModelConfig.headDim_eq_ok.mp hd').unique hsharded.heads).bind ?_
  rintro _ rfl
  refine (rows_loaded hsource _ _ _).bind fun q hq => ?_
  refine (rows_loaded hsource _ _ _).bind fun k hk => ?_
  refine (rows_loaded hsource _ _ _).bind fun v hv => ?_
  refine (columns_loaded hsource _ _ _).bind fun o ho => ?_
  refine rowParallel_loaded.bind fun oProj hoProj => ?_
  rw [hqueries] at hq ho
  rw [hkeys] at hk hv
  refine Always.pure ⟨⟨hq, hk, hv, hlocal.keys_dvd⟩, rfl, rfl, ?_⟩
  rw [hoProj]
  exact ho

omit hsharded in
theorem tensorMlp_loaded (path : String) :
    Always (fun mlp : TensorParallelMlp (Tensor α) =>
      mlp.gateProj.weight.shape = [config.intermediateSize / parallel.tpSize, config.hiddenSize] ∧
      mlp.upProj.weight.shape = [config.intermediateSize / parallel.tpSize, config.hiddenSize] ∧
      mlp.downProj.linear.weight.shape =
        [config.hiddenSize, config.intermediateSize / parallel.tpSize])
      (TensorParallelMlp.load source path config parallel algorithm) := by
  unfold TensorParallelMlp.load
  refine (rows_loaded hsource _ _ _).bind fun gate hgate => ?_
  refine (rows_loaded hsource _ _ _).bind fun up hup => ?_
  refine (columns_loaded hsource _ _ _).bind fun down hdown => ?_
  refine rowParallel_loaded.bind fun downProj hdownProj => ?_
  refine Always.pure ⟨hgate, hup, ?_⟩
  rw [hdownProj]
  exact hdown

theorem tensorBlock_loaded (layer : Nat) :
    Always (fun block => TensorParallelBlock.Fits block config parallel.tpSize d)
      (TensorParallelBlock.load source layer config parallel algorithm) := by
  unfold TensorParallelBlock.load
  refine (replicated_loaded hsource _ _).bind fun inputNorm hinputNorm => ?_
  refine (replicated_loaded hsource _ _).bind fun postNorm hpostNorm => ?_
  refine (tensorAttention_loaded hsource hsharded _).bind fun attention hattention => ?_
  obtain ⟨hheads, hkv, hdim, ho⟩ := hattention
  refine (tensorMlp_loaded hsource _).bind fun mlp ⟨hgate, hup, hdown⟩ => ?_
  exact Always.pure ⟨hinputNorm, hheads, hkv, hdim, ho, hpostNorm, hgate, hup, hdown⟩

/-- A rank's model has the shapes of its share. -/
theorem tensor_loaded (hlib : lib.Documented) (hdims : ∀ t, source.dims t = t.shape)
    (capacity : Nat) :
    Always (fun model => TensorParallelLlama.Fits model config capacity d ∧
        model.parallel = parallel ∧ model.blocks.length = config.numHiddenLayers)
      (TensorParallelLlama.loadFrom (RotaryEmbedding.new lib) source config parallel capacity
        algorithm) := by
  unfold TensorParallelLlama.loadFrom
  refine (Always.trivial _).bind fun plan _ => ?_
  refine (rows_loaded hsource _ _ _).bind fun weight hweight => ?_
  refine (always_settle (P := fun table => table.embedding.hiddenSize = config.hiddenSize) ?_).bind
    fun table htable => ?_
  · intro table htable
    simp only [VocabParallelEmbedding.fromWeight, WeightSource.dims2, hdims, hweight, bind_eq_ok,
      pure_eq_ok] at htable
    obtain ⟨dims, hdims, -, -, rfl⟩ := htable
    obtain rfl := Except.ok.inj hdims
    rfl
  refine (Always.mapM (R := fun _ block =>
    TensorParallelBlock.Fits block config parallel.tpSize d) fun layer _ =>
      tensorBlock_loaded hsource hsharded layer).bind fun blocks hblocks => ?_
  have hfits : ∀ block ∈ blocks, TensorParallelBlock.Fits block config parallel.tpSize d := by
    intro block hblock
    obtain ⟨-, -, h⟩ := exists_of_forall₂_right hblocks hblock
    exact h
  have hcount : blocks.length = config.numHiddenLayers := by
    rw [← hblocks.length_eq, List.length_range]
  refine (replicated_loaded hsource _ _).bind fun norm hnorm => ?_
  have hrest : ∀ weight : Tensor α,
      weight.shape = [config.vocabSize / parallel.tpSize, config.hiddenSize] →
      Always (fun model : TensorParallelLlama (Tensor α) (RotaryEmbedding α) =>
        TensorParallelLlama.Fits model config capacity d ∧ model.parallel = parallel ∧
          model.blocks.length = config.numHiddenLayers) (do
        let lmHead ← settle (VocabParallelLmHead.fromWeight source weight config.vocabSize)
        let rope ← settle (RotaryEmbedding.new lib config capacity)
        pure {
          parallel
          embeddings := table.withAllReduce algorithm
          blocks
          finalNorm := ⟨norm⟩
          lmHead, rope } : Load _) := by
    intro weight hweight
    refine (always_settle (P := fun head : VocabParallelLmHead (Tensor α) =>
      head.linear = ⟨⟨weight⟩, config.vocabSize, true⟩) ?_).bind fun head hhead => ?_
    · intro head hhead
      simp only [VocabParallelLmHead.fromWeight, ColumnParallelLinear.fromWeight, bind_eq_ok,
        pure_eq_ok] at hhead
      obtain ⟨linear, ⟨-, -, -, -, rfl⟩, rfl⟩ := hhead
      rfl
    refine (always_settle (P := fun rope => rope.Fits capacity d) fun rope hrope =>
      rotary_fits hlib hrope hsharded.heads).bind fun rope hrope => ?_
    refine Always.pure ⟨⟨htable, hfits, hnorm, ?_, ?_, ?_, hrope⟩, rfl, hcount⟩
    · rw [hhead]
      exact hweight
    · rw [hhead]
    · rw [hhead]
      exact (Nat.div_mul_cancel hsharded.vocabulary_dvd).symm
  by_cases htie : config.tieWordEmbeddings = true
  · simp only [htie, if_true]
    exact hrest weight hweight
  · simp only [htie]
    exact (rows_loaded hsource _ _ _).bind hrest

end TensorParallel

end Dlir.Runtime.Model
