import Dlir.Framework.Feedback
import Dlir.Pipeline.Composition
import Dlir.Pipeline.Steps

namespace Dlir.Pipeline

open Dlir.Collectives Dlir.Framework Dlir.Math Dlir.Runtime Dlir.Runtime.Model PipelineRank

section Calls

variable {n : Nat} {α : Type} {self : PipelineWorld (n + 1) α}
  {model : Llama (Tensor α) (RotaryEmbedding α)}

/-- Where the cache of the whole model and the caches of the ranks stand between two steps. -/
def Abreast (self : PipelineWorld (n + 1) α) (model : Llama (Tensor α) (RotaryEmbedding α))
    (cache : Model.KvCache α) (kv : Nat → Model.KvCache α) : Prop :=
  InStep self.config model (partAt self model 0) ((List.range' 1 n).map (partAt self model)) cache
    (kv 0, (List.range' 1 n).map kv)

/-- An observer that hears nothing. -/
def silent : LayerObserver (StateM Unit) := ⟨fun _ => pure (), fun _ => pure ()⟩

/-- A call that the model admits has room. -/
theorem admits_of_onTokens {lib : Library α} {cache cache' : Model.KvCache α} {ids : List Nat}
    {input : TokenTensor} {logits : Tensor α} (hinput : tokenRow ids = .ok input)
    (hcall : Llama.onTokens lib () model cache input = (.ok logits, cache')) :
    Admits input ids.length ∧ cache.len + ids.length ≤ cache.capacity := by
  have hshape := tokenRow_shape hinput
  by_contra hnot
  have hrefused : ∀ sequence, Admits input sequence → ¬ cache.len + sequence ≤ cache.capacity := by
    intro sequence hsequence hroom
    have hsame := hsequence.shape
    rw [hshape] at hsame
    obtain rfl : ids.length = sequence := by simpa using hsame
    exact hnot ⟨hsequence, hroom⟩
  obtain ⟨e, hends⟩ := ends_llama_refused (m := StateM Unit) lib model hrefused
  rw [Llama.onTokens, hends.call ()] at hcall
  cases hcall

/-- A call that succeeds got through the embedding. -/
theorem embed_of_onTokens {lib : Library α} {cache cache' : Model.KvCache α} {sequence : Nat}
    {input : TokenTensor} {logits : Tensor α} (hadmits : Admits input sequence)
    (hroom : cache.len + sequence ≤ cache.capacity)
    (hcount : cache.layers.length = model.blocks.length)
    (hcall : Llama.onTokens lib () model cache input = (.ok logits, cache')) :
    ∃ x, lib.embed model.embeddings input = .ok x := by
  have hmodel := (ends_llama (m := StateM Unit) lib hadmits hroom hcount).call ()
  cases hembed : lib.embed model.embeddings input with
  | ok x => exact ⟨x, rfl⟩
  | error e =>
    rw [hembed] at hmodel
    rw [Llama.onTokens, hmodel] at hcall
    cases hcall

/-- What one call of the model is made of. -/
theorem turn_of_call (hlib : self.lib.Documented) (hn : 0 < n)
    (hlayers : n + 1 ≤ self.config.numHiddenLayers)
    (hmodel : Llama.Loaded self.lib self.config model) {cache cache' : Model.KvCache α}
    {kv : Nat → Model.KvCache α} (habreast : Abreast self model cache kv) {ids : List Nat}
    {input : TokenTensor} {logits : Tensor α} {step token : Nat} (hinput : tokenRow ids = .ok input)
    (hcall : Llama.onTokens self.lib () model cache input = (.ok logits, cache'))
    (hids : ids.length = rowsOf self step) (htoken : greedyToken self.argmax logits = .ok token)
    (hsmall : token < 2 ^ 32) :
    ∃ xs kv', Turn self model step input xs kv kv' token ∧ Abreast self model cache' kv' := by
  obtain ⟨rows, d, hfits, hcount⟩ := hmodel.fits hlib
  have hslices : Slices model (partAt self model 0) ((List.range' 1 n).map (partAt self model)) :=
    slices_stages hn hlayers hcount
  have hshares := habreast.shares hslices
  obtain ⟨hadmits, hroom⟩ := admits_of_onTokens hinput hcall
  obtain ⟨x, hembed⟩ := embed_of_onTokens hadmits hroom habreast.count hcall
  have hx : x.shape = [1, ids.length, self.config.hiddenSize] := by
    rw [hlib.embed_shape hembed, hadmits.shape, hfits.embeddings]
    rfl
  have hfirst : LlamaStage.onTokens self.lib silent () (partAt self model 0) (kv 0) input =
      LlamaStage.onHidden self.lib silent () (partAt self model 0) x (kv 0) := by
    unfold LlamaStage.onTokens LlamaStage.onHidden Forward.call
    rw [run_tokens hslices.embeddings hadmits hembed]
  obtain ⟨hresult, hcaches⟩ := @pipelineForward_hidden _ _ _ _ _ _
    ((List.range' 1 n).map (partAt self model)) (kv 0, (List.range' 1 n).map kv) _ _ hfirst
  have hcall' : (Llama.onTokens self.lib () model cache input).1 = .ok logits := by rw [hcall]
  obtain ⟨hsame, -, -⟩ := pipelineForward_same silent () hlib hslices habreast.count hshares
    habreast.layers input
  have hnext : InStep self.config model (partAt self model 0) ((List.range' 1 n).map (partAt self model))
      (Llama.onTokens self.lib () model cache input).2 (pipelineForward self.lib silent ()
        (partAt self model 0) ((List.range' 1 n).map (partAt self model))
        (kv 0, (List.range' 1 n).map kv) input).2 :=
    habreast.next hlib hmodel hslices hcall'
  rw [(hsame logits).mp hcall'] at hresult
  rw [cons_parts, cons_parts] at hresult hcaches hshares
  have hshare : ∀ r ≤ n, ShareOf cache (partAt self model r) (kv r) := by
    rw [List.forall₂_map_left_iff, List.forall₂_map_right_iff, List.forall₂_same] at hshares
    exact fun r hr => hshares r (List.mem_range.mpr (Nat.lt_succ_of_le hr))
  obtain ⟨y, hpass, hfinish⟩ := ok_of_bind hresult.symm
  obtain ⟨xs, kv', hstart, hend, hsteps, hstates⟩ := cascade_range hpass
  have hshapes : ∀ r ≤ n + 1, (xs r).shape = [1, ids.length, self.config.hiddenSize] := by
    intro r
    induction r with
    | zero =>
      intro _
      rw [hstart]
      exact hx
    | succ r ih =>
      intro hr
      exact onHidden_shape hlib (hshare r (by omega)) rfl hadmits.pos hroom (ih (by omega))
        (hsteps r (by omega))
  have hends : ∀ r ≤ n, Ends (LlamaStage.forwardHidden self.lib (partAt self model r)
      (rankLayerObserver step) (xs r) (kv r).len) (kv r) (layerNotes (n + 1) α step (layersAt self r))
      (.ok (xs (r + 1)), kv' r) := by
    intro r hr
    have hlength : (partAt self model r).blocks.length =
        (stageOf self.manifest.spec (n + 1) r).layerCount :=
      length_stagePart hcount (Nat.lt_succ_of_le hr)
    show Ends _ _ (layerNotes (n + 1) α step
      (List.range' _ (stageOf self.manifest.spec (n + 1) r).layerCount)) _
    rw [← hlength]
    exact ends_onHidden (hshare r hr) rfl hadmits.pos hroom (hshapes r (by omega)) (hsteps r (by omega))
  refine ⟨xs, kv', ⟨?_, ?_, ?_, ?_, hsmall⟩, ?_⟩
  · rw [← hids]
    exact hshapes
  · have hzero := hends 0 (Nat.zero_le n)
    rw [hstart] at hzero
    unfold Ends
    rw [run_tokens hslices.embeddings hadmits hembed]
    exact hzero
  · exact fun r _ hr => hends r hr
  · refine ⟨logits, ?_, htoken⟩
    rw [hend, ← hfinish, getLastD_parts _ n hn]
  · have hafter : (pipelineForward self.lib silent () (partAt self model 0)
        ((List.range' 1 n).map (partAt self model)) (kv 0, (List.range' 1 n).map kv) input).2 =
        (kv' 0, (List.range' 1 n).map kv') := by
      rw [hstates, ← cons_parts] at hcaches
      exact Prod.ext (List.cons.inj hcaches).1 (List.cons.inj hcaches).2
    rw [hafter, show (Llama.onTokens self.lib () model cache input).2 = cache' by rw [hcall]] at hnext
    exact hnext

end Calls

end Dlir.Pipeline
