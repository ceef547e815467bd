import Dlir.Runtime.Model.Layers

namespace Dlir.Runtime.Model

open Dlir.Collectives Dlir.Framework Forward

variable {m : Type → Type} [Monad m] [LawfulMonad m] {α : Type} {lib : Library α}
  (hlib : lib.Documented) {cache : KvCache α} {config : ModelConfig} {tokens : TokenTensor}
  {position rows d kvHeads width n : Nat}

/-- The parts of a model have the shapes of the configuration. -/
structure Llama.Fits (model : Llama (Tensor α) (RotaryEmbedding α)) (config : ModelConfig)
    (rows d : Nat) : Prop where
  embeddings : model.embeddings.hiddenSize = config.hiddenSize
  blocks : ∀ block ∈ model.blocks, Block.Fits block config d
  finalNorm : model.finalNorm.weight.shape = [config.hiddenSize]
  lmHead : model.lmHead.weight.shape = [config.vocabSize, config.hiddenSize]
  rope : model.rope.Fits rows d

/-- The parts of a stage have the shapes of the configuration. -/
structure LlamaStage.Fits (stage : LlamaStage (Tensor α) (RotaryEmbedding α))
    (config : ModelConfig) (rows d : Nat) : Prop where
  embeddings : ∀ table, stage.embeddings = some table → table.hiddenSize = config.hiddenSize
  blocks : ∀ block ∈ stage.blocks, Block.Fits block config d
  rope : stage.rope.Fits rows d

/-- The parts of a rank's model have the shapes of its share. -/
structure TensorParallelLlama.Fits (model : TensorParallelLlama (Tensor α) (RotaryEmbedding α))
    (config : ModelConfig) (rows d : Nat) : Prop where
  embeddings : model.embeddings.embedding.hiddenSize = config.hiddenSize
  blocks : ∀ block ∈ model.blocks, TensorParallelBlock.Fits block config model.parallel.tpSize d
  finalNorm : model.finalNorm.weight.shape = [config.hiddenSize]
  lmHead : model.lmHead.linear.linear.weight.shape =
    [config.vocabSize / model.parallel.tpSize, config.hiddenSize]
  gathers : model.lmHead.linear.gatherOutput = true
  gathered : model.lmHead.linear.globalOutputFeatures =
    config.vocabSize / model.parallel.tpSize * model.parallel.tpSize
  rope : model.rope.Fits rows d

/-- What a forward pass over `sequence` positions does to a cache: all layers get the positions of
the input, or nothing happens. -/
def AllOrNothing (cache : KvCache α) (position sequence : Nat) (r : Except DlirError (Tensor α))
    (kv : KvCache α) : Prop :=
  match r with
  | .ok _ => position = cache.len ∧ cache.Extended cache.layers.length sequence kv
  | .error e => e = .overflow ∨ kv = cache

/-- As before, but a collective that fails leaves the layers before it extended. -/
def AllOrInterrupted (cache : KvCache α) (position sequence : Nat)
    (r : Except DlirError (Tensor α)) (kv : KvCache α) : Prop :=
  match r with
  | .ok _ => position = cache.len ∧ cache.Extended cache.layers.length sequence kv
  | .error e => e = .overflow ∨ kv = cache ∨
      Interrupted e ∧ ∃ count, cache.Extended count sequence kv

include hlib

theorem llama_forward {model : Llama (Tensor α) (RotaryEmbedding α)}
    (hmodel : Llama.Fits model config rows d) (hpos : 0 < cache.layers.length)
    (hcount : cache.layers.length = model.blocks.length)
    (hfilled : cache.Filled kvHeads width n) :
    Ensures (Llama.forward lib model tokens position : Forward m α _) cache
      (AllOrNothing cache position (tokens.ids.shape.getD 1 0)) := by
  unfold Llama.forward
  refine ensures_ofResult (fun _ _ => .inr rfl) ?_
  rintro ⟨batch, s⟩ hdims
  have htokens := dims2_ok.mp hdims
  refine ensures_refuse (fun _ => .inr rfl) fun hbatch => ?_
  refine ensures_refuse (fun _ => .inr rfl) fun hs => ?_
  refine ensures_cache ?_
  refine ensures_refuse (fun _ => .inr rfl) fun hposition => ?_
  refine ensures_refuse (fun _ => .inr rfl) fun hroom => ?_
  obtain rfl := not_not.mp hbatch
  have hposition := not_not.mp hposition
  rw [KvCache.len_eq hfilled hpos] at hposition
  subst hposition
  refine ensures_ofResult (fun _ _ => .inr rfl) fun x hembed => ?_
  have hx : x.shape = [1, s, config.hiddenSize] := by
    rw [hlib.embed_shape hembed, htokens, hmodel.embeddings]
    rfl
  refine Ensures.bind (pass_ensures (fun _ => False) cache s config.hiddenSize _
    (position + s ≤ rows ∧ lib.sameDtype = true ∧ config.numKeyValueHeads = kvHeads ∧ d = width)
    hcount (hcount ▸ hpos) (fun _ => hx) ?_ ?_) ?_ ?_
  · rintro ⟨hrange, hdtype, rfl, rfl⟩ block hblock layer hlayer
    exact block_step hlib (hmodel.blocks block hblock) hmodel.rope hdtype hrange hfilled hlayer
      (by omega)
  · intro hfit block hblock
    exact block_declines hlib (hmodel.blocks block hblock) hmodel.rope hx (.inr rfl) hfilled
      fun h => hfit h.2
  · rintro y kv ⟨hy, hkv⟩
    refine ensures_last (lastLogits_yields hlib hmodel.finalNorm hmodel.lmHead hy (by omega))
      (.inl rfl) fun logits _ => ⟨(KvCache.len_eq hfilled hpos).symm, ?_⟩
    rw [htokens]
    exact hkv
  · intro e kv he
    exact he.imp_right fun h => h.elim id fun h => h.1.elim

section Stage

variable {stage : LlamaStage (Tensor α) (RotaryEmbedding α)}
  (hstage : LlamaStage.Fits stage config rows d) (observer : LayerObserver m)
  (hpos : 0 < cache.layers.length) (hfilled : cache.Filled kvHeads width n)

include hstage hpos hfilled

theorem stage_forwardHidden {x : Tensor α}
    (hview : lib.contiguous x = true ∨ x.shape.getLast? = some config.hiddenSize) (position : Nat) :
    Ensures (LlamaStage.forwardHidden lib stage observer x position) cache
      (AllOrNothing cache position (x.shape.getD 1 0)) := by
  unfold LlamaStage.forwardHidden
  refine ensures_ofResult (fun _ _ => .inr rfl) ?_
  rintro ⟨batch, s, h⟩ hdims
  have hx := dims3_ok.mp hdims
  have hview : lib.contiguous x = true ∨ h = config.hiddenSize := by
    rw [hx] at hview
    exact hview.imp_right Option.some.inj
  refine ensures_refuse (fun _ => .inr rfl) fun hinput => ?_
  refine ensures_cache ?_
  refine ensures_refuse (fun _ => .inr rfl) fun hcount => ?_
  refine ensures_refuse (fun _ => .inr rfl) fun hposition => ?_
  refine ensures_refuse (fun _ => .inr rfl) fun hroom => ?_
  obtain ⟨hbatch, hs⟩ := not_or.mp hinput
  obtain rfl := not_not.mp hbatch
  have hcount : cache.layers.length = stage.blocks.length := not_not.mp hcount
  have hposition := not_not.mp hposition
  rw [KvCache.len_eq hfilled hpos] at hposition
  subst hposition
  refine Ensures.imp (pass_ensures (fun _ => False) cache s config.hiddenSize _
    (h = config.hiddenSize ∧ position + s ≤ rows ∧ lib.sameDtype = true ∧
      config.numKeyValueHeads = kvHeads ∧ d = width)
    hcount (hcount ▸ hpos) (fun hfit => by rw [hx, hfit.1]) ?_ ?_) ?_
  · rintro ⟨-, hrange, hdtype, rfl, rfl⟩ block hblock layer hlayer
    exact (block_step hlib (hstage.blocks block hblock) hstage.rope hdtype hrange hfilled hlayer
      (by omega)).observed _ _
  · intro hfit block hblock
    refine ensures_notify ?_
    exact (block_declines hlib (hstage.blocks block hblock) hstage.rope hx hview hfilled
      hfit).bind _
  · intro r kv hr
    cases r with
    | ok y =>
      refine ⟨(KvCache.len_eq hfilled hpos).symm, ?_⟩
      rw [hx]
      exact hr.2
    | error e => exact hr.imp_right fun h => h.elim id fun h => h.1.elim

theorem stage_forwardTokens :
    Ensures (LlamaStage.forwardTokens lib stage observer tokens position) cache
      (AllOrNothing cache position (tokens.ids.shape.getD 1 0)) := by
  unfold LlamaStage.forwardTokens
  refine ensures_ofResult (fun _ _ => .inr rfl) fun table htable => ?_
  refine ensures_ofResult (fun _ _ => .inr rfl) ?_
  rintro ⟨batch, s⟩ hdims
  refine ensures_refuse (fun _ => .inr rfl) fun _ => ?_
  refine ensures_ofResult (fun _ _ => .inr rfl) fun x hembed => ?_
  have hlast : x.shape.getLast? = some config.hiddenSize := by
    rw [hlib.embed_shape hembed, hstage.embeddings table (okOr_eq_ok.mp htable)]
    simp
  have hforward := stage_forwardHidden hlib hstage observer hpos hfilled (.inr hlast) position
  rw [hlib.embed_shape hembed, dims2_ok.mp hdims] at hforward
  rw [dims2_ok.mp hdims]
  exact hforward

end Stage

section TensorParallel

variable {model : TensorParallelLlama (Tensor α) (RotaryEmbedding α)}
  (hmodel : TensorParallelLlama.Fits model config rows d)
  {collectives : CollectiveCommunicator m α}

include hmodel

/-- The embeddings of all ranks together. -/
theorem embeddings_ensure (hreduce : collectives.Reduces) {kv : KvCache α} {s : Nat}
    (htokens : tokens.ids.shape = [1, s]) :
    Ensures (VocabParallelEmbedding.forward lib model.embeddings collectives tokens) kv
      fun r kv' => kv' = kv ∧ ∀ x, r = .ok x → x.shape = [1, s, config.hiddenSize] := by
  unfold VocabParallelEmbedding.forward
  refine ensures_ofResult (fun e _ => ⟨rfl, fun x hx => by cases hx⟩) fun own hown => ?_
  have hshape : own.shape = [1, s, config.hiddenSize] := by
    simp only [VocabParallelEmbedding.rows, bind_eq_ok, refuse_eq_ok, mapError_eq_ok] at hown
    obtain ⟨-, -, ⟨batch, s'⟩, hdims, ids, -, localIds, hlocal, table, hembed, mask, hmask, hrows⟩ :=
      hown
    rw [dims2_ok, htokens] at hdims
    obtain ⟨rfl, rfl⟩ : batch = 1 ∧ s' = s := by simpa [eq_comm] using hdims
    refine hlib.shape_of_some ?_ hrows
    simp only [Op.shape, List.map_cons, List.map_nil, hlib.embed_shape hembed,
      (Tensor.fromVec_parts hlocal).1, (Tensor.fromVec_parts hmask).1, hmodel.embeddings]
    rw [show [1, s'] ++ [config.hiddenSize] = [1, s', config.hiddenSize] from rfl,
      broadcastShape_rows]
  refine (collective_ensures (hreduce own model.embeddings.algorithm)).imp ?_
  rintro r kv' ⟨hkv, hr⟩
  refine ⟨hkv, fun x hx => ?_⟩
  subst hx
  exact hr.trans hshape

theorem lmHead_ensures (hcoll : collectives.Documented) {kv : KvCache α} {x : Tensor α}
    (hx : x.shape = [1, config.hiddenSize]) (hworld : collectives.worldSize = model.parallel.tpSize) :
    Ensures (VocabParallelLmHead.forward lib model.lmHead collectives x) kv fun r kv' =>
      kv' = kv ∧ ∀ e, r = .error e → e = .overflow ∨ Interrupted e := by
  unfold VocabParallelLmHead.forward ColumnParallelLinear.forward
  refine ensures_yields (lastLinear_yields hlib hmodel.lmHead hx)
    ⟨rfl, fun e he => .inl (Except.error.inj he).symm⟩ fun own hown => ?_
  rw [hmodel.gathers, if_pos rfl]
  have hrank : own.rank = 2 := by rw [Tensor.rank, hown]; rfl
  refine ensures_refuse (fun h => by omega) fun _ => ?_
  rw [hrank]
  refine (collective_ensures (hcoll.allGather own 1)).bind ?_ ?_
  · rintro gathered kv' ⟨rfl, hgathered⟩
    have hdim : gathered.dim 1 = .ok model.lmHead.linear.globalOutputFeatures := by
      simp [Tensor.dim, hgathered, hown, hworld, hmodel.gathered]
    refine ensures_yields (P := (· = model.lmHead.linear.globalOutputFeatures))
      (.inr ⟨_, by rw [hdim]; rfl, rfl⟩) ⟨rfl, fun e he => .inl (Except.error.inj he).symm⟩ ?_
    rintro _ rfl
    refine ensures_refuse (fun h => absurd rfl h) fun _ => ?_
    exact Ensures.pure ⟨rfl, fun e he => by cases he⟩
  · rintro e kv' ⟨rfl, he⟩
    exact ⟨rfl, fun e' he' => .inr (Except.error.inj he' ▸ he)⟩

omit hlib hmodel in
/-- Whatever the head does, it does not touch the cache. -/
theorem lmHead_keeps (head : VocabParallelLmHead (Tensor α)) (kv : KvCache α) (x : Tensor α) :
    Ensures (VocabParallelLmHead.forward lib head collectives x) kv fun _ kv' => kv' = kv := by
  unfold VocabParallelLmHead.forward ColumnParallelLinear.forward
  refine ensures_ofResult (fun _ _ => rfl) fun own _ => ?_
  split_ifs
  · refine ensures_ofResult (fun _ _ => rfl) fun _ _ => ?_
    refine (collective_ensures (P := fun _ => True)
      ((Always.trivial _).imp fun _ _ _ _ => trivial)).bind ?_ fun e kv' h => h.1
    rintro gathered kv' ⟨rfl, -⟩
    refine ensures_ofResult (fun _ _ => rfl) fun width _ => ?_
    exact ensures_ofResult (fun _ _ => rfl) fun _ _ => Ensures.pure rfl
  · exact Ensures.pure rfl

/-- What a rank makes of the hidden states after its layers. -/
def TensorParallelLlama.finish (lib : Library α) (model : TensorParallelLlama (Tensor α) (RotaryEmbedding α))
    (collectives : CollectiveCommunicator m α) (hidden : Tensor α) (sequence : Nat) :
    Forward m α (Tensor α) := do
  let last ← ofResult (lastPosition lib model.finalNorm hidden sequence)
  let logits ← VocabParallelLmHead.forward lib model.lmHead collectives last
  ofResult (lib.run .toF32 [logits])

/-- A pass up to the end of its layers: all of them get the positions of the input, but for failures. -/
theorem tensor_ensures (hreduce : collectives.Reduces) (observer : LayerObserver m)
    (hpos : 0 < cache.layers.length) (hfilled : cache.Filled kvHeads width n)
    {R : Except DlirError (Tensor α) → KvCache α → Prop}
    (herror : ∀ e kv, (e = .overflow ∨ kv = cache ∨ Interrupted e ∧
      ∃ count, cache.Extended count (tokens.ids.shape.getD 1 0) kv) → R (.error e) kv)
    (hfinish : ∀ s y kv, 0 < s → y.shape = [1, s, config.hiddenSize] → position = cache.len →
      collectives.worldSize = model.parallel.tpSize →
      cache.Extended cache.layers.length (tokens.ids.shape.getD 1 0) kv →
      Ensures (TensorParallelLlama.finish lib model collectives y s) kv R) :
    Ensures (TensorParallelLlama.forwardObserved lib model collectives observer tokens position)
      cache R := by
  have hnone : ∀ e, R (.error e) cache := fun e => herror e cache (.inr (.inl rfl))
  unfold TensorParallelLlama.forwardObserved
  refine ensures_refuse (fun _ => hnone _) fun hworld => ?_
  refine ensures_ofResult (fun _ _ => hnone _) ?_
  rintro ⟨batch, s⟩ hdims
  have htokens := dims2_ok.mp hdims
  refine ensures_refuse (fun _ => hnone _) fun hinput => ?_
  refine ensures_cache ?_
  refine ensures_refuse (fun _ => hnone _) fun hplace => ?_
  refine ensures_refuse (fun _ => hnone _) fun hroom => ?_
  obtain ⟨hbatch, hs⟩ := not_or.mp hinput
  obtain rfl := not_not.mp hbatch
  obtain ⟨hposition, hcount⟩ := not_or.mp hplace
  have hcount : cache.layers.length = model.blocks.length := not_not.mp hcount
  have hposition := not_not.mp hposition
  rw [htokens] at herror hfinish
  refine (embeddings_ensure hlib hmodel hreduce htokens).bind ?_ fun e kv h => herror e kv (.inr (.inl h.1))
  rintro x kv ⟨rfl, hx⟩
  have hx := hx x rfl
  have hlen := KvCache.len_eq hfilled hpos
  refine Ensures.bind (pass_ensures Interrupted kv s config.hiddenSize _
    (position + s ≤ rows ∧ lib.sameDtype = true ∧
      config.numKeyValueHeads / model.parallel.tpSize = kvHeads ∧ d = width)
    hcount (hcount ▸ hpos) (fun _ => hx) ?_ ?_) ?_ fun e kv' he => herror e kv' he
  · rintro ⟨hrange, hdtype, rfl, rfl⟩ block hblock layer hlayer
    rw [← hlen, ← hposition] at hfilled
    exact (tensorBlock_step hlib hreduce (hmodel.blocks block hblock) hmodel.rope hdtype hrange
      hfilled hlayer (by omega)).observed _ _
  · intro hfit block hblock
    refine ensures_notify ?_
    exact (tensorBlock_declines hlib (hmodel.blocks block hblock) hmodel.rope hx hfilled
      hfit).bind _
  · rintro y kv' ⟨hy, hkv'⟩
    exact hfinish s y kv' (by omega) hy hposition (not_not.mp (not_or.mp hworld).2) hkv'

theorem tensor_forward (hcoll : collectives.Documented) (observer : LayerObserver m)
    (hpos : 0 < cache.layers.length) (hfilled : cache.Filled kvHeads width n) :
    Ensures (TensorParallelLlama.forwardObserved lib model collectives observer tokens position)
      cache (AllOrInterrupted cache position (tokens.ids.shape.getD 1 0)) := by
  refine tensor_ensures hlib hmodel hcoll.allReduce observer hpos hfilled (fun e kv h => h) ?_
  intro s y kv hs hy hposition hworld hkv
  unfold TensorParallelLlama.finish
  refine ensures_yields (lastPosition_yields hlib hmodel.finalNorm hy hs) (.inl rfl) ?_
  intro last hlast
  refine (lmHead_ensures hlib hmodel hcoll hlast hworld).bind ?_ ?_
  · rintro logits kv' ⟨rfl, -⟩
    exact ensures_last (hlib.run_yields (s := logits.shape) (by simp [Op.shape])) (.inl rfl)
      fun _ _ => ⟨hposition, hkv⟩
  · rintro e kv' ⟨rfl, he⟩
    exact (he e rfl).imp_right fun h => .inr ⟨h, cache.layers.length, hkv⟩

/-- Where a pass succeeds, all layers have got the positions of the input. -/
theorem tensor_extends (hreduce : collectives.Reduces) (observer : LayerObserver m)
    (hpos : 0 < cache.layers.length) (hfilled : cache.Filled kvHeads width n) :
    Ensures (TensorParallelLlama.forwardObserved lib model collectives observer tokens position)
      cache fun r kv => ∀ y, r = .ok y →
        cache.Extended cache.layers.length (tokens.ids.shape.getD 1 0) kv := by
  refine tensor_ensures hlib hmodel hreduce observer hpos hfilled (fun e kv _ y hy => by cases hy) ?_
  intro s y kv hs hy hposition hworld hkv
  unfold TensorParallelLlama.finish
  refine ensures_ofResult (fun e _ y hy => by cases hy) fun last _ => ?_
  refine (lmHead_keeps model.lmHead kv last).bind ?_ fun e kv' _ y hy => by cases hy
  rintro logits kv' rfl
  exact Ensures.settled fun _ _ => hkv

end TensorParallel

end Dlir.Runtime.Model
