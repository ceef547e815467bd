import Dlir.Runtime.Model.Locality

namespace Dlir.Runtime.Model

open Dlir.Collectives Dlir.Framework Forward

variable {α σ : Type}

section Pipeline

variable (lib : Library α) (observer : LayerObserver (StateM σ)) (s : σ)

/-- A call of the whole model at the end of its cache. -/
def Llama.onTokens (model : Llama (Tensor α) (RotaryEmbedding α)) (kv : KvCache α)
    (tokens : TokenTensor) : Except DlirError (Tensor α) × KvCache α :=
  (Llama.forward lib model tokens kv.len).call kv s

def LlamaStage.onTokens (stage : LlamaStage (Tensor α) (RotaryEmbedding α)) (kv : KvCache α)
    (tokens : TokenTensor) : Except DlirError (Tensor α) × KvCache α :=
  (LlamaStage.forwardTokens lib stage observer tokens kv.len).call kv s

def LlamaStage.onHidden (stage : LlamaStage (Tensor α) (RotaryEmbedding α)) (hidden : Tensor α)
    (kv : KvCache α) : Except DlirError (Tensor α) × KvCache α :=
  (LlamaStage.forwardHidden lib stage observer hidden kv.len).call kv s

/-- One call of all stages, each at the end of its own cache: the first one takes tokens, every other
one the result of the one before, and the last one finishes. -/
def pipelineForward (first : LlamaStage (Tensor α) (RotaryEmbedding α))
    (stages : List (LlamaStage (Tensor α) (RotaryEmbedding α)))
    (kvs : KvCache α × List (KvCache α)) (tokens : TokenTensor) :
    Except DlirError (Tensor α) × KvCache α × List (KvCache α) :=
  match LlamaStage.onTokens lib observer s first kvs.1 tokens with
  | (.error e, kv) => (.error e, kv, kvs.2)
  | (.ok hidden, kv) =>
    let (r, rest) := cascade (LlamaStage.onHidden lib observer s) stages hidden kvs.2
    (r >>= LlamaStage.finish lib (stages.getLastD first), kv, rest)

end Pipeline

/-- The stages are made of the parts of the model, in order. -/
structure Slices (model : Llama (Tensor α) (RotaryEmbedding α))
    (first : LlamaStage (Tensor α) (RotaryEmbedding α))
    (stages : List (LlamaStage (Tensor α) (RotaryEmbedding α))) : Prop where
  blocks : (first :: stages).flatMap (·.blocks) = model.blocks
  nonempty : ∀ stage ∈ first :: stages, stage.blocks ≠ []
  rope : ∀ stage ∈ first :: stages, stage.rope = model.rope
  embeddings : first.embeddings = some model.embeddings
  finalNorm : (stages.getLastD first).finalNorm = some model.finalNorm
  lmHead : (stages.getLastD first).lmHead = some model.lmHead

/-- The caches of the stages one after the other hold the layers of the cache. -/
def SameLayers (cache : KvCache α) (kvs : KvCache α × List (KvCache α)) : Prop :=
  (kvs.1 :: kvs.2).flatMap (·.layers) = cache.layers

/-- A stage's share of a cache. -/
structure ShareOf (cache : KvCache α) (stage : LlamaStage (Tensor α) (RotaryEmbedding α))
    (kv : KvCache α) : Prop where
  count : kv.layers.length = stage.blocks.length
  capacity : kv.capacity = cache.capacity
  len : kv.len = cache.len

section Pass

variable {lib : Library α} {observer : LayerObserver (StateM σ)} {s : σ}
  {model : Llama (Tensor α) (RotaryEmbedding α)}
  {first : LlamaStage (Tensor α) (RotaryEmbedding α)}
  {stages : List (LlamaStage (Tensor α) (RotaryEmbedding α))} {cache : KvCache α}
  {kvs : KvCache α × List (KvCache α)} {tokens : TokenTensor} {sequence hidden : Nat}

/-- The stage kept its layers and their room. -/
def Kept (cache : KvCache α) (stage : LlamaStage (Tensor α) (RotaryEmbedding α)) (kv : KvCache α) :
    Prop :=
  kv.layers.length = stage.blocks.length ∧ kv.capacity = cache.capacity

/-- A stage with its share, at work on the input of one call. -/
theorem onHidden_eq {stage : LlamaStage (Tensor α) (RotaryEmbedding α)} {kv : KvCache α}
    (hshare : ShareOf cache stage kv) (hrope : stage.rope = model.rope) (hpos : 0 < sequence)
    (hroom : cache.len + sequence ≤ cache.capacity) {x : Tensor α}
    (hx : x.shape = [1, sequence, hidden]) :
    LlamaStage.onHidden lib observer s stage x kv =
      ((passBlocks lib cache.len model.rope stage.blocks x kv.layers).1,
        { kv with layers := (passBlocks lib cache.len model.rope stage.blocks x kv.layers).2 }) := by
  have hlen := hshare.len
  have hcapacity := hshare.capacity
  obtain ⟨notes, hends, -⟩ := ends_stage (m := StateM σ) lib observer hx hpos
    (by omega) hshare.count
  rw [LlamaStage.onHidden, hends.call s, hrope, hlen]

variable (observer s) in
/-- The stages from some point on do what their blocks do on the layers of the cache. -/
theorem cascade_stages (hlib : lib.Documented) (hrope : ∀ stage ∈ stages, stage.rope = model.rope)
    {own : List (KvCache α)} (hshares : List.Forall₂ (ShareOf cache) stages own)
    (hpos : 0 < sequence) (hroom : cache.len + sequence ≤ cache.capacity) {x : Tensor α}
    (hx : x.shape = [1, sequence, hidden]) :
    (cascade (LlamaStage.onHidden lib observer s) stages x own).1 =
        (passBlocks lib cache.len model.rope (stages.flatMap (·.blocks)) x
          (own.flatMap (·.layers))).1 ∧
      (cascade (LlamaStage.onHidden lib observer s) stages x own).2.flatMap (·.layers) =
        (passBlocks lib cache.len model.rope (stages.flatMap (·.blocks)) x
          (own.flatMap (·.layers))).2 ∧
      ∀ y, (cascade (LlamaStage.onHidden lib observer s) stages x own).1 = .ok y →
        List.Forall₂ (Kept cache) stages
          (cascade (LlamaStage.onHidden lib observer s) stages x own).2 := by
  have hgroups : List.Forall₂ (fun stage kv => ShareOf cache stage kv ∧ stage.rope = model.rope)
      stages own := by
    clear hx
    induction hshares with
    | nil => exact .nil
    | cons hshare _ ih =>
      obtain ⟨hfirst, hrest⟩ := List.forall_mem_cons.mp hrope
      exact .cons ⟨hshare, hfirst⟩ (ih hrest)
  have hsame := cascade_groups (f := fun block x layer =>
      Block.onLayer lib block x cache.len model.rope layer)
    (g := LlamaStage.onHidden lib observer s) (fun stage => stage.blocks)
    (fun kv : KvCache α => kv.layers)
    (P := fun y : Tensor α => y.shape = [1, sequence, hidden])
    (fun block x layer y layer' hlayer hx => (onLayer_shape hlib hlayer).trans hx)
    (fun stage kv hrel => hrel.1.count.symm)
    (fun stage y kv hrel hy => by
      rw [onHidden_eq hrel.1 hrel.2 hpos hroom hy]
      exact ⟨rfl, rfl⟩) hgroups hx
  refine ⟨hsame.1, hsame.2, fun y hy => ?_⟩
  refine cascade_forall₂ (P := fun y : Tensor α => y.shape = [1, sequence, hidden]) ?_ hgroups hx hy
  intro stage y kv hrel hy
  rw [onHidden_eq hrel.1 hrel.2 hpos hroom hy]
  refine ⟨⟨?_, hrel.1.capacity⟩, fun z hz => ?_⟩
  · exact length_cascade.trans hrel.1.count
  · exact cascade_preserves (P := fun y : Tensor α => y.shape = [1, sequence, hidden])
      (fun block x layer y layer' hlayer hx => (onLayer_shape hlib hlayer).trans hx) hy hz

/-- Whoever observes a stage, it does the same. -/
theorem ends_onHidden {m : Type → Type} [Monad m] [LawfulMonad m] {watcher : LayerObserver m}
    {stage : LlamaStage (Tensor α) (RotaryEmbedding α)} {kv kv' : KvCache α}
    (hshare : ShareOf cache stage kv) (hrope : stage.rope = model.rope) (hpos : 0 < sequence)
    (hroom : cache.len + sequence ≤ cache.capacity) {x y : Tensor α}
    (hx : x.shape = [1, sequence, hidden])
    (h : LlamaStage.onHidden lib observer s stage x kv = (.ok y, kv')) :
    Ends (LlamaStage.forwardHidden lib stage watcher x kv.len) kv
      (notify (notesOf watcher.layerStarted watcher.layerCompleted
        (List.range' stage.layerStart stage.blocks.length))) (.ok y, kv') := by
  have hlen := hshare.len
  have hcapacity := hshare.capacity
  obtain ⟨notes, hends, hnotes⟩ := ends_stage (m := m) lib watcher hx hpos (by omega) hshare.count
  rw [onHidden_eq hshare hrope hpos hroom hx] at h
  obtain ⟨hresult, hafter⟩ := Prod.mk.inj h
  rw [hrope, hlen] at hends hnotes
  rw [hlen, ← hnotes y hresult, ← hresult, ← hafter]
  exact hends

/-- A stage keeps the shape of its input. -/
theorem onHidden_shape (hlib : lib.Documented) {stage : LlamaStage (Tensor α) (RotaryEmbedding α)}
    {kv kv' : KvCache α} (hshare : ShareOf cache stage kv) (hrope : stage.rope = model.rope)
    (hpos : 0 < sequence) (hroom : cache.len + sequence ≤ cache.capacity) {x y : Tensor α}
    (hx : x.shape = [1, sequence, hidden])
    (h : LlamaStage.onHidden lib observer s stage x kv = (.ok y, kv')) :
    y.shape = [1, sequence, hidden] := by
  rw [onHidden_eq hshare hrope hpos hroom hx] at h
  exact cascade_preserves (P := fun y : Tensor α => y.shape = [1, sequence, hidden])
    (fun block x layer y layer' hlayer hx => (onLayer_shape hlib hlayer).trans hx) hx
    (Prod.mk.inj h).1

theorem finish_eq {stage : LlamaStage (Tensor α) (RotaryEmbedding α)}
    (hnorm : stage.finalNorm = some model.finalNorm) (hhead : stage.lmHead = some model.lmHead)
    {x : Tensor α} (hx : x.shape = [1, sequence, hidden]) (hpos : 0 < sequence) :
    LlamaStage.finish lib stage x = lastLogits lib model.finalNorm model.lmHead x sequence := by
  have hsequence : refuse (sequence = 0)
      (DlirError.invalidConfig "final pipeline activation has zero sequence length") = .ok () :=
    if_neg (by omega)
  unfold LlamaStage.finish
  rw [hnorm, hhead, dims3_ok.mpr hx]
  show (refuse (sequence = 0) _ >>= fun _ => lastLogits lib model.finalNorm model.lmHead x sequence) = _
  rw [hsequence]
  rfl

/-- Where the first stage refuses, so does the call. -/
theorem pipelineForward_error {e : DlirError} {kv : KvCache α}
    (h : LlamaStage.onTokens lib observer s first kvs.1 tokens = (.error e, kv)) :
    pipelineForward lib observer s first stages kvs tokens = (.error e, kv, kvs.2) := by
  rw [pipelineForward, h]

variable (stages) in
/-- After the embedding all stages do alike. -/
theorem pipelineForward_hidden {x : Tensor α}
    (h : LlamaStage.onTokens lib observer s first kvs.1 tokens =
      LlamaStage.onHidden lib observer s first x kvs.1) :
    (pipelineForward lib observer s first stages kvs tokens).1 =
        ((cascade (LlamaStage.onHidden lib observer s) (first :: stages) x (kvs.1 :: kvs.2)).1 >>=
          LlamaStage.finish lib (stages.getLastD first)) ∧
      (pipelineForward lib observer s first stages kvs tokens).2.1 ::
          (pipelineForward lib observer s first stages kvs tokens).2.2 =
        (cascade (LlamaStage.onHidden lib observer s) (first :: stages) x (kvs.1 :: kvs.2)).2 := by
  rcases hfirst : LlamaStage.onHidden lib observer s first x kvs.1 with ⟨r, kv⟩
  rw [hfirst] at h
  rw [pipelineForward, h]
  cases r with
  | error e =>
    rw [cascade_cons_error hfirst]
    exact ⟨rfl, rfl⟩
  | ok y =>
    rw [cascade_cons_ok hfirst]
    exact ⟨rfl, rfl⟩

variable (observer s) in
/-- What the model refuses, the first stage refuses as well. -/
theorem onTokens_refused (hlib : lib.Documented) (kv : KvCache α) {table : Embedding (Tensor α)}
    (htable : first.embeddings = some table)
    (h : ∀ sequence, Admits tokens sequence → ¬ kv.len + sequence ≤ kv.capacity) :
    ∃ e, LlamaStage.onTokens lib observer s first kv tokens = (.error e, kv) := by
  by_cases hadmits : ∃ sequence, Admits tokens sequence
  · obtain ⟨sequence, hsequence⟩ := hadmits
    cases hembed : lib.embed table tokens with
    | error e => exact ⟨e, (ends_tokens_error htable hsequence hembed).call s⟩
    | ok x =>
      have hx : x.shape = [1, sequence, table.hiddenSize] := by
        rw [hlib.embed_shape hembed, hsequence.shape]
        rfl
      obtain ⟨e, hfull⟩ := ends_stage_full (m := StateM σ) lib first observer hx
        (h sequence hsequence)
      refine ⟨e, ?_⟩
      unfold LlamaStage.onTokens Forward.call
      rw [run_tokens htable hsequence hembed]
      exact hfull.call s
  · obtain ⟨e, hrefused⟩ := ends_tokens_refused (m := StateM σ) kv lib observer htable
      fun sequence hsequence => hadmits ⟨sequence, hsequence⟩
    exact ⟨e, hrefused.call s⟩

variable (observer s) in
/-- One call of the stages does what one call of the model does. -/
theorem pipelineForward_same (hlib : lib.Documented) (hslices : Slices model first stages)
    (hcount : cache.layers.length = model.blocks.length)
    (hshares : List.Forall₂ (ShareOf cache) (first :: stages) (kvs.1 :: kvs.2))
    (hlayers : SameLayers cache kvs) (tokens : TokenTensor) :
    SameResult (Llama.onTokens lib s model cache tokens).1
        (pipelineForward lib observer s first stages kvs tokens).1 ∧
      SameLayers (Llama.onTokens lib s model cache tokens).2
        (pipelineForward lib observer s first stages kvs tokens).2 ∧
      ∀ y, (pipelineForward lib observer s first stages kvs tokens).1 = .ok y →
        List.Forall₂ (Kept cache) (first :: stages)
          ((pipelineForward lib observer s first stages kvs tokens).2.1 ::
            (pipelineForward lib observer s first stages kvs tokens).2.2) := by
  have hshare : ShareOf cache first kvs.1 := (List.forall₂_cons.mp hshares).1
  have hlen := hshare.len
  have hcapacity := hshare.capacity
  by_cases hadmits : ∃ sequence, Admits tokens sequence ∧ cache.len + sequence ≤ cache.capacity
  · obtain ⟨sequence, hsequence, hroom⟩ := hadmits
    have hmodel := (ends_llama (m := StateM σ) lib hsequence hroom hcount).call s
    cases hembed : lib.embed model.embeddings tokens with
    | error e =>
      rw [hembed] at hmodel
      have hfirst : LlamaStage.onTokens lib observer s first kvs.1 tokens = (.error e, kvs.1) :=
        (ends_tokens_error hslices.embeddings hsequence hembed).call s
      rw [Llama.onTokens, hmodel, pipelineForward_error hfirst]
      exact ⟨.of_eq rfl, hlayers, fun y hy => by cases hy⟩
    | ok x =>
      rw [hembed] at hmodel
      have hx : x.shape = [1, sequence, model.embeddings.hiddenSize] := by
        rw [hlib.embed_shape hembed, hsequence.shape]
        rfl
      have hfirst : LlamaStage.onTokens lib observer s first kvs.1 tokens =
          LlamaStage.onHidden lib observer s first x kvs.1 := by
        unfold LlamaStage.onTokens LlamaStage.onHidden Forward.call
        rw [run_tokens hslices.embeddings hsequence hembed]
      obtain ⟨hresult, hcaches⟩ := pipelineForward_hidden stages hfirst
      obtain ⟨hpass, hown, hkept⟩ := cascade_stages observer s hlib hslices.rope hshares
        hsequence.pos hroom hx
      have hall : (kvs.1 :: kvs.2).flatMap (·.layers) = cache.layers := hlayers
      rw [hslices.blocks, hall] at hpass hown
      have hlast : ((passBlocks lib cache.len model.rope model.blocks x cache.layers).1 >>= fun y =>
          lastLogits lib model.finalNorm model.lmHead y sequence) =
          ((passBlocks lib cache.len model.rope model.blocks x cache.layers).1 >>=
            LlamaStage.finish lib (stages.getLastD first)) := by
        rcases hblocks : (passBlocks lib cache.len model.rope model.blocks x cache.layers).1 with e | y
        · rfl
        · have hy : y.shape = [1, sequence, model.embeddings.hiddenSize] :=
            cascade_preserves (P := fun y : Tensor α => y.shape = [1, sequence, _])
              (fun block x layer y layer' hlayer hx => (onLayer_shape hlib hlayer).trans hx) hx hblocks
          exact (finish_eq hslices.finalNorm hslices.lmHead hy hsequence.pos).symm
      rw [Llama.onTokens, hmodel]
      refine ⟨.of_eq ?_, ?_, fun y hy => ?_⟩
      · rw [hpass] at hresult
        exact hlast.trans hresult.symm
      · unfold SameLayers
        rw [hcaches, hown]
      · rw [hresult] at hy
        obtain ⟨z, hz, -⟩ := ok_of_bind hy
        rw [hcaches]
        exact hkept z hz
  · have hrefused : ∀ sequence, Admits tokens sequence → ¬ cache.len + sequence ≤ cache.capacity :=
      fun sequence hsequence hroom => hadmits ⟨sequence, hsequence, hroom⟩
    obtain ⟨e, hmodel⟩ := ends_llama_refused (m := StateM σ) lib model hrefused
    obtain ⟨e', hfirst⟩ := onTokens_refused observer s hlib kvs.1 hslices.embeddings
      fun sequence hsequence => by rw [hlen, hcapacity]; exact hrefused sequence hsequence
    rw [Llama.onTokens, hmodel.call s, pipelineForward_error hfirst]
    exact ⟨.of_errors ⟨e, rfl⟩ ⟨e', rfl⟩, hlayers, fun y hy => by cases hy⟩

/-- Where a cache and the caches of the stages stand between two calls. -/
structure InStep (config : ModelConfig) (model : Llama (Tensor α) (RotaryEmbedding α))
    (first : LlamaStage (Tensor α) (RotaryEmbedding α))
    (stages : List (LlamaStage (Tensor α) (RotaryEmbedding α))) (cache : KvCache α)
    (kvs : KvCache α × List (KvCache α)) : Prop where
  even : cache.Even config
  count : cache.layers.length = model.blocks.length
  layers : SameLayers cache kvs
  counts : List.Forall₂ (fun stage kv => kv.layers.length = stage.blocks.length) (first :: stages)
    (kvs.1 :: kvs.2)
  capacity : ∀ kv ∈ kvs.1 :: kvs.2, kv.capacity = cache.capacity

/-- All layers of all stages hold as many positions as the cache. -/
theorem InStep.shares {config : ModelConfig} (hslices : Slices model first stages)
    (h : InStep config model first stages cache kvs) :
    List.Forall₂ (ShareOf cache) (first :: stages) (kvs.1 :: kvs.2) := by
  have hlen : ∀ kv ∈ kvs.1 :: kvs.2, kv.layers ≠ [] → kv.len = cache.len := by
    intro kv hkv hne
    obtain ⟨layer, layers, hlayers⟩ := List.exists_cons_of_ne_nil hne
    have hmem : layer ∈ cache.layers := by
      rw [← show (kvs.1 :: kvs.2).flatMap (·.layers) = cache.layers from h.layers]
      exact List.mem_flatMap.mpr ⟨kv, hkv, by rw [hlayers]; exact List.mem_cons_self⟩
    rw [KvCache.len, hlayers]
    exact h.even.length_eq hmem
  have hall : ∀ {stages : List (LlamaStage (Tensor α) (RotaryEmbedding α))} {own : List (KvCache α)},
      List.Forall₂ (fun stage kv => kv.layers.length = stage.blocks.length) stages own →
      (∀ stage ∈ stages, stage.blocks ≠ []) →
      (∀ kv ∈ own, kv.capacity = cache.capacity ∧ (kv.layers ≠ [] → kv.len = cache.len)) →
      List.Forall₂ (ShareOf cache) stages own := by
    intro stages own hcounts hne hown
    induction hcounts with
    | nil => exact .nil
    | @cons stage kv stages own hcount _ ih =>
      obtain ⟨hstage, hstages⟩ := List.forall_mem_cons.mp hne
      obtain ⟨hkv, hrest⟩ := List.forall_mem_cons.mp hown
      have hlayers : kv.layers ≠ [] := by
        intro hnil
        rw [hnil] at hcount
        exact hstage (List.length_eq_zero_iff.mp hcount.symm)
      exact .cons ⟨hcount, hkv.1, hkv.2 hlayers⟩ (ih hstages hrest)
  exact hall h.counts hslices.nonempty fun kv hkv => ⟨h.capacity kv hkv, hlen kv hkv⟩

/-- A call that succeeds keeps them in step. -/
theorem InStep.next {config : ModelConfig} (hlib : lib.Documented)
    (hmodel : Llama.Loaded lib config model) (hslices : Slices model first stages)
    (h : InStep config model first stages cache kvs) {logits : Tensor α}
    (hcall : (Llama.onTokens lib s model cache tokens).1 = .ok logits) :
    InStep config model first stages (Llama.onTokens lib s model cache tokens).2
      (pipelineForward lib observer s first stages kvs tokens).2 := by
  obtain ⟨hsame, hlayers, hkept⟩ := pipelineForward_same observer s hlib hslices
    h.count (h.shares hslices) h.layers tokens
  have hrun : Llama.onTokens lib s model cache tokens =
      (.ok logits, (Llama.onTokens lib s model cache tokens).2) := by rw [← hcall]
  obtain ⟨-, hextended⟩ := h.even.forward hlib hmodel h.count hrun
  have hcounts := hkept logits ((hsame logits).mp hcall)
  refine ⟨h.even.extended hextended, ?_, hlayers, hcounts.imp fun _ _ hk => hk.1, fun kv hkv => ?_⟩
  · rw [hextended.length, h.count]
  · obtain ⟨stage, -, hk⟩ := exists_of_forall₂_right hcounts hkv
    rw [hextended.capacity]
    exact hk.2

/-- Calls of the stages do what calls of the model do. -/
theorem pipeline_calls {config : ModelConfig} (hlib : lib.Documented)
    (hmodel : Llama.Loaded lib config model) (hslices : Slices model first stages)
    (h : InStep config model first stages cache kvs) (inputs : List TokenTensor) :
    List.Forall₂ SameResult (calls (Llama.onTokens lib s model) cache inputs).1
        (calls (pipelineForward lib observer s first stages) kvs inputs).1 ∧
      SameLayers (calls (Llama.onTokens lib s model) cache inputs).2
        (calls (pipelineForward lib observer s first stages) kvs inputs).2 := by
  refine calls_related (R := InStep config model first stages) (fun _ _ hstep => hstep.layers) ?_ h
  intro cache kvs tokens hstep
  obtain ⟨hsame, hlayers, -⟩ := pipelineForward_same observer s hlib hslices
    hstep.count (hstep.shares hslices) hstep.layers tokens
  exact ⟨hsame, hlayers, fun logits hlogits => hstep.next hlib hmodel hslices hlogits⟩

end Pass

end Dlir.Runtime.Model
