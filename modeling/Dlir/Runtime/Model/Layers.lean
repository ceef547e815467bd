import Dlir.Runtime.Model.Shapes

namespace Dlir.Runtime.Model

open Dlir.Collectives Dlir.Framework Forward

variable {m : Type → Type} [Monad m] [LawfulMonad m] {α β γ : Type}

section Rules

variable {x : Except DlirError β} {kv : KvCache α} {f : β → Forward m α γ}
  {R : Except DlirError γ → KvCache α → Prop}

/-- A part that does not touch the cache. -/
theorem ensures_ofResult (herror : ∀ e, x = .error e → R (.error e) kv)
    (hok : ∀ b, x = .ok b → Ensures (f b) kv R) : Ensures (ofResult x >>= f) kv R := by
  refine (Ensures.settled (Q := fun r c => r = x ∧ c = kv) ⟨rfl, rfl⟩).bind ?_ ?_
  · rintro b c ⟨hb, rfl⟩
    exact hok b hb.symm
  · rintro e c ⟨he, rfl⟩
    exact herror e he.symm

/-- A part that succeeds unless the process is stopped. -/
theorem ensures_yields {P : β → Prop} (h : Yields x P) (hstop : R (.error .overflow) kv)
    (hok : ∀ b, P b → Ensures (f b) kv R) : Ensures (ofResult x >>= f) kv R := by
  refine ensures_ofResult ?_ ?_
  · intro e he
    rcases h with hx | ⟨b, hx, -⟩
    · rw [he] at hx
      obtain rfl := Except.error.inj hx
      exact hstop
    · rw [he] at hx
      cases hx
  · intro b hb
    rcases h with hx | ⟨b', hx, hP⟩
    · rw [hb] at hx
      cases hx
    · rw [hb] at hx
      obtain rfl := Except.ok.inj hx
      exact hok b hP

theorem ensures_last {Q : Except DlirError β → KvCache α → Prop} {P : β → Prop} (h : Yields x P)
    (hstop : Q (.error .overflow) kv) (hok : ∀ b, P b → Q (.ok b) kv) :
    Ensures (ofResult x : Forward m α β) kv Q := by
  rw [← bind_pure (ofResult x : Forward m α β)]
  exact ensures_yields h hstop fun b hb => Ensures.pure (hok b hb)

theorem ensures_append {lib : Library α} {layer : Nat} {keys values : Tensor α}
    {f : Tensor α × Tensor α → Forward m α γ} {result : Except DlirError (Tensor α × Tensor α)}
    {kv' : KvCache α} (h : kv.append lib.toCandle layer keys values = (result, kv'))
    (herror : ∀ e, result = .error e → R (.error e) kv')
    (hok : ∀ views, result = .ok views → Ensures (f views) kv' R) :
    Ensures (append lib layer keys values >>= f) kv R := by
  have happend : Ensures (append lib layer keys values : Forward m α _) kv
      fun r c => r = result ∧ c = kv' :=
    Always.pure (by rw [h]; exact ⟨rfl, rfl⟩)
  refine happend.bind ?_ ?_
  · rintro views c ⟨hviews, rfl⟩
    exact hok views hviews.symm
  · rintro e c ⟨he, rfl⟩
    exact herror e he.symm

/-- An early return. -/
theorem ensures_refuse {p : Prop} [Decidable p] {e : DlirError} {f : Unit → Forward m α γ}
    (hrefused : p → R (.error e) kv) (hok : ¬ p → Ensures (f ()) kv R) :
    Ensures (ofResult (refuse p e) >>= f) kv R := by
  refine ensures_ofResult ?_ ?_
  · intro e' he
    unfold refuse at he
    split_ifs at he with hp
    obtain rfl := Except.error.inj he
    exact hrefused hp
  · intro _ hb
    exact hok (refuse_eq_ok.mp hb)

theorem ensures_cache {f : KvCache α → Forward m α γ} (h : Ensures (f kv) kv R) :
    Ensures (Forward.cache >>= f) kv R := by
  have hget : Ensures (Forward.cache : Forward m α (KvCache α)) kv fun r c => r = .ok kv ∧ c = kv :=
    Always.pure ⟨rfl, rfl⟩
  refine hget.bind ?_ ?_
  · rintro _ c ⟨hb, rfl⟩
    obtain rfl := Except.ok.inj hb
    exact h
  · rintro e c ⟨he, -⟩
    cases he

/-- Notifications do not touch the cache either. -/
theorem ensures_notify {x : m Unit} {f : Unit → Forward m α γ} (h : Ensures (f ()) kv R) :
    Ensures (lift (.ok <$> x) >>= f) kv R := by
  have hlift : Ensures (lift (.ok <$> x) : Forward m α Unit) kv fun r c => r = .ok () ∧ c = kv :=
    Ensures.lift (P := (· = .ok ())) ((Always.trivial x).map fun _ _ => rfl) fun r hr => ⟨hr, rfl⟩
  refine hlift.bind ?_ ?_
  · rintro _ c ⟨-, rfl⟩
    exact h
  · rintro e c ⟨he, -⟩
    cases he

end Rules

/-- The pass fails and leaves the cache as it was. -/
def Declines (c : Forward m α β) (cache : KvCache α) : Prop :=
  Ensures c cache fun r kv => (∃ e, r = .error e) ∧ kv = cache

namespace Declines

variable {c : Forward m α β} {cache : KvCache α} {f : β → Forward m α γ}

theorem bind (h : Declines c cache) (f : β → Forward m α γ) : Declines (c >>= f) cache := by
  refine Ensures.bind h ?_ ?_
  · rintro b kv ⟨⟨e, he⟩, -⟩
    cases he
  · rintro e kv ⟨-, hkv⟩
    exact ⟨⟨e, rfl⟩, hkv⟩

theorem of_refuses {x : Except DlirError β} (h : Refuses x) (f : β → Forward m α γ) :
    Declines (ofResult x >>= f) cache := by
  obtain ⟨e, he, -⟩ := h
  refine ensures_ofResult (fun e' _ => ⟨⟨e', rfl⟩, rfl⟩) fun b hb => ?_
  rw [he] at hb
  cases hb

/-- What comes before does not touch the cache. -/
theorem after {x : Except DlirError β} {P : β → Prop} (h : Yields x P)
    (hf : ∀ b, P b → Declines (f b) cache) : Declines (ofResult x >>= f) cache :=
  ensures_yields h ⟨⟨_, rfl⟩, rfl⟩ hf

end Declines

/-- How a layer of a forward pass over `sequence` positions goes, for a cache that has been extended
in the layers before it. The failures in `fails` may come at any time. -/
def Step (fails : DlirError → Prop) (cache : KvCache α) (sequence hidden layer : Nat)
    (f : Tensor α → Forward m α (Tensor α)) : Prop :=
  ∀ (x : Tensor α) (kv : KvCache α), x.shape = [1, sequence, hidden] →
    cache.Extended layer sequence kv → Ensures (f x) kv fun r kv' => match r with
      | .ok y => y.shape = [1, sequence, hidden] ∧ cache.Extended (layer + 1) sequence kv'
      | .error e => e = .overflow ∨ fails e ∧ ∃ count, cache.Extended count sequence kv'

/-- Notifications before and after a layer. -/
theorem Step.observed {fails : DlirError → Prop} {cache : KvCache α} {s hidden layer : Nat}
    {f : Tensor α → Forward m α (Tensor α)} (h : Step fails cache s hidden layer f)
    (before after : m Unit) : Step fails cache s hidden layer (fun x => do
      lift (.ok <$> before)
      let y ← f x
      lift (.ok <$> after)
      pure y) := by
  intro x kv hx hkv
  refine ensures_notify ?_
  refine (h x kv hx hkv).bind ?_ fun e kv' he => he
  rintro y kv' hy
  exact ensures_notify (Ensures.pure hy)

/-- A pass through consecutive layers. -/
theorem layers_ensures {τ : Type} {fails : DlirError → Prop} {cache : KvCache α} {s hidden : Nat}
    {f : Tensor α → τ × Nat → Forward m α (Tensor α)} (blocks : List τ) (start : Nat)
    (hstep : ∀ block layer, (block, layer) ∈ blocks.zipIdx start →
      Step fails cache s hidden layer fun x => f x (block, layer)) {x : Tensor α} {kv : KvCache α}
    (hx : x.shape = [1, s, hidden]) (hkv : cache.Extended start s kv) :
    Ensures ((blocks.zipIdx start).foldlM f x) kv fun r kv' => match r with
      | .ok y => y.shape = [1, s, hidden] ∧ cache.Extended (start + blocks.length) s kv'
      | .error e => e = .overflow ∨ fails e ∧ ∃ count, cache.Extended count s kv' := by
  induction blocks generalizing start x kv with
  | nil => exact Ensures.pure ⟨hx, hkv⟩
  | cons block blocks ih =>
    rw [List.zipIdx_cons, List.foldlM_cons]
    have hfirst := hstep block start (by rw [List.zipIdx_cons]; exact List.mem_cons_self)
    refine (hfirst x kv hx hkv).bind ?_ fun e kv' he => he
    rintro y kv' ⟨hy, hkv'⟩
    have hrest := ih (start + 1) (fun b layer hmem => hstep b layer (by
      rw [List.zipIdx_cons]
      exact List.mem_cons_of_mem _ hmem)) hy hkv'
    rw [List.length_cons, show start + (blocks.length + 1) = start + 1 + blocks.length by omega]
    exact hrest

/-- Where the first layer declines, so does the pass. -/
theorem layers_decline {τ : Type} {cache : KvCache α} {blocks : List τ} (hne : blocks ≠ [])
    {f : Tensor α → τ × Nat → Forward m α (Tensor α)} {x : Tensor α}
    (h : ∀ block ∈ blocks, Declines (f x (block, 0)) cache) :
    Declines (blocks.zipIdx.foldlM f x) cache := by
  cases blocks with
  | nil => exact absurd rfl hne
  | cons block blocks =>
    rw [List.zipIdx_cons, List.foldlM_cons]
    exact (h block List.mem_cons_self).bind _

/-- A pass through one block for each layer of the cache. Whether the blocks can work on the input
shows at the first one. -/
theorem pass_ensures {τ : Type} (fails : DlirError → Prop) (cache : KvCache α) (s hidden : Nat)
    (f : Tensor α → τ × Nat → Forward m α (Tensor α)) {blocks : List τ} {x : Tensor α} (fit : Prop)
    (hcount : cache.layers.length = blocks.length) (hpos : 0 < blocks.length)
    (hx : fit → x.shape = [1, s, hidden])
    (hstep : fit → ∀ block ∈ blocks, ∀ layer < cache.layers.length,
      Step fails cache s hidden layer fun x => f x (block, layer))
    (hdecline : ¬ fit → ∀ block ∈ blocks, Declines (f x (block, 0)) cache) :
    Ensures (blocks.zipIdx.foldlM f x) cache fun r kv => match r with
      | .ok y => y.shape = [1, s, hidden] ∧ cache.Extended cache.layers.length s kv
      | .error e => e = .overflow ∨ kv = cache ∨ fails e ∧ ∃ count, cache.Extended count s kv := by
  by_cases hfit : fit
  · have hpass := layers_ensures (f := f) blocks 0 (fun block layer hmem => by
      have hget := List.mem_zipIdx_iff_getElem?.mp hmem
      refine hstep hfit block (List.mem_of_getElem? hget) layer ?_
      rw [hcount]
      exact (List.getElem?_eq_some_iff.mp hget).1) (hx hfit) (.refl cache s)
    refine hpass.imp ?_
    intro r kv hr
    cases r with
    | ok y => exact ⟨hr.1, by rw [hcount]; simpa using hr.2⟩
    | error e => exact hr.imp_right .inr
  · refine (layers_decline (List.length_pos_iff.mp hpos) (hdecline hfit)).imp ?_
    rintro r kv ⟨⟨e, rfl⟩, hkv⟩
    exact .inr (.inl hkv)

section Layer

variable {lib : Library α} (hlib : lib.Documented) {cache kv : KvCache α}
  {heads : Projections α} {hidden rows s position layer : Nat} (hheads : heads.Fits hidden)
  {rope : RotaryEmbedding α} (hrope : rope.Fits rows heads.headDim) {x : Tensor α}
  (hx : x.shape = [1, s, hidden])

include hlib hheads hrope hx

/-- Queries, keys and values of a layer whose turn it is. -/
theorem cached_ensures (hdtype : lib.sameDtype = true) (hrange : position + s ≤ rows)
    (hfilled : cache.Filled heads.kvHeads heads.headDim position)
    (hlayer : layer < cache.layers.length) (hroom : position + s ≤ cache.capacity)
    (hkv : cache.Extended layer s kv) :
    Ensures (heads.cached lib rope x 1 s position layer : Forward m α _) kv fun r kv' =>
      match r with
      | .ok (q, k, v) => q.shape = [1, heads.queryHeads, s, heads.headDim] ∧
          k.shape = [1, heads.kvHeads, position + s, heads.headDim] ∧
          v.shape = [1, heads.kvHeads, position + s, heads.headDim] ∧
          cache.Extended (layer + 1) s kv'
      | .error e => e = .overflow := by
  unfold Projections.cached
  refine ensures_yields (project_yields hlib hheads hrope hx hrange) rfl ?_
  rintro ⟨q, k, v⟩ ⟨hq, hk, hv⟩
  obtain ⟨kview, vview, kv', happend, hkview, hvview, hkv'⟩ :=
    hkv.append hlib hdtype hfilled hlayer hk hv hroom
  refine ensures_append happend ?_ ?_
  · intro e he
    cases he
  · intro views hviews
    obtain rfl := Except.ok.inj hviews
    exact Ensures.pure ⟨hq, hkview, hvview, hkv'⟩

/-- Positions outside the tables and caches for other heads are refused. -/
theorem cached_declines {kvHeads width n : Nat} (hfilled : cache.Filled kvHeads width n)
    (h : ¬ (position + s ≤ rows ∧ lib.sameDtype = true ∧ heads.kvHeads = kvHeads ∧
      heads.headDim = width)) :
    Declines (heads.cached lib rope x 1 s position layer : Forward m α _) cache := by
  unfold Projections.cached
  by_cases hrange : position + s ≤ rows
  · refine .after (project_yields hlib hheads hrope hx hrange) ?_
    rintro ⟨q, k, v⟩ ⟨-, hk, -⟩
    obtain ⟨e, happend⟩ := KvCache.append_refused hlib hfilled hk
      (fun hsame => h ⟨hrange, hsame⟩) layer v
    refine ensures_append happend (fun e' _ => ⟨⟨e', rfl⟩, rfl⟩) fun views hviews => ?_
    cases hviews
  · exact .of_refuses (project_refuses hlib hheads hrope hx hrange) _

end Layer

/-- The weights of a block have the shapes of the configuration. -/
structure Block.Fits (block : Block (Tensor α)) (config : ModelConfig) (d : Nat) : Prop where
  inputNorm : block.inputNorm.weight.shape = [config.hiddenSize]
  heads : (CausalSelfAttention.projections block.attention).Fits config.hiddenSize
  width : block.attention.numAttentionHeads * block.attention.headDim = config.hiddenSize
  kvHeads : block.attention.numKeyValueHeads = config.numKeyValueHeads
  headDim : block.attention.headDim = d
  oProj : block.attention.oProj.weight.shape = [config.hiddenSize, config.hiddenSize]
  postAttentionNorm : block.postAttentionNorm.weight.shape = [config.hiddenSize]
  gateProj : block.mlp.gateProj.weight.shape = [config.intermediateSize, config.hiddenSize]
  upProj : block.mlp.upProj.weight.shape = [config.intermediateSize, config.hiddenSize]
  downProj : block.mlp.downProj.weight.shape = [config.hiddenSize, config.intermediateSize]

section Block

variable {lib : Library α} (hlib : lib.Documented) {cache kv : KvCache α}
  {block : Block (Tensor α)} {config : ModelConfig} {rows d s position layer : Nat}
  (hblock : Block.Fits block config d) {rope : RotaryEmbedding α} (hrope : rope.Fits rows d)

include hlib hblock

theorem mlp_yields {x : Tensor α} (hx : x.shape = [1, s, config.hiddenSize]) :
    Yields (Mlp.forward lib block.mlp x) fun t => t.shape = [1, s, config.hiddenSize] := by
  refine (gatedProduct_yields hlib hblock.gateProj hblock.upProj hx).bind fun t ht => ?_
  exact linear_yields hlib hblock.downProj ht

include hrope

theorem attention_ensures {x : Tensor α} (hx : x.shape = [1, s, config.hiddenSize])
    (hdtype : lib.sameDtype = true) (hrange : position + s ≤ rows)
    (hfilled : cache.Filled config.numKeyValueHeads d position)
    (hlayer : layer < cache.layers.length) (hroom : position + s ≤ cache.capacity)
    (hkv : cache.Extended layer s kv) :
    Ensures (CausalSelfAttention.forward lib block.attention x position layer rope :
        Forward m α _) kv fun r kv' => match r with
      | .ok y => y.shape = [1, s, config.hiddenSize] ∧ cache.Extended (layer + 1) s kv'
      | .error e => e = .overflow := by
  unfold CausalSelfAttention.forward
  refine ensures_yields (.inr ⟨_, dims3_ok.mpr hx, rfl⟩) rfl ?_
  rintro _ rfl
  have hcached := cached_ensures (m := m) hlib hblock.heads (hblock.headDim ▸ hrope) hx hdtype hrange
    (by rw [← hblock.kvHeads, ← hblock.headDim] at hfilled; exact hfilled) hlayer hroom hkv
  refine hcached.bind ?_ fun e kv' he => he
  rintro ⟨q, k, v⟩ kv' ⟨hq, hk, hv, hkv'⟩
  have hattend := attend_yields hlib hblock.heads x hq hk hv
  rw [show (CausalSelfAttention.projections block.attention).queryHeads *
    (CausalSelfAttention.projections block.attention).headDim = config.hiddenSize from
      hblock.width] at hattend
  refine ensures_yields hattend rfl fun o ho => ?_
  exact ensures_last (linear_yields hlib hblock.oProj ho) rfl fun y hy => ⟨hy, hkv'⟩

/-- A block extends its layer and nothing fails. -/
theorem block_step (hdtype : lib.sameDtype = true) (hrange : position + s ≤ rows)
    (hfilled : cache.Filled config.numKeyValueHeads d position)
    (hlayer : layer < cache.layers.length) (hroom : position + s ≤ cache.capacity) :
    Step (m := m) (fun _ => False) cache s config.hiddenSize layer fun x =>
      Block.forward lib block x position layer rope := by
  intro x kv hx hkv
  unfold Block.forward
  refine ensures_yields (rmsNorm_yields hlib hblock.inputNorm hx) (.inl rfl) fun n hn => ?_
  have hattention := attention_ensures (m := m) hlib hblock hrope hn hdtype hrange hfilled hlayer hroom hkv
  refine hattention.bind ?_ fun e kv' he => .inl he
  rintro a kv' ⟨ha, hkv'⟩
  refine ensures_yields (add_yields hlib hx ha) (.inl rfl) fun h hh => ?_
  refine ensures_yields (rmsNorm_yields hlib hblock.postAttentionNorm hh) (.inl rfl) fun n hn => ?_
  refine ensures_yields (mlp_yields hlib hblock hn) (.inl rfl) fun t ht => ?_
  exact ensures_last (add_yields hlib hh ht) (.inl rfl) fun y hy => ⟨hy, hkv'⟩

/-- The first block refuses what it cannot do before anything is written. -/
theorem block_declines {x : Tensor α} {h kvHeads width n : Nat} (hx : x.shape = [1, s, h])
    (hview : lib.contiguous x = true ∨ h = config.hiddenSize) (hfilled : cache.Filled kvHeads width n)
    (hother : ¬ (h = config.hiddenSize ∧ position + s ≤ rows ∧ lib.sameDtype = true ∧
      config.numKeyValueHeads = kvHeads ∧ d = width)) :
    Declines (Block.forward lib block x position layer rope : Forward m α _) cache := by
  unfold Block.forward
  by_cases hh : h = config.hiddenSize
  · subst hh
    refine .after (rmsNorm_yields hlib hblock.inputNorm hx) fun n hn => ?_
    refine Declines.bind ?_ _
    unfold CausalSelfAttention.forward
    refine .after (.inr ⟨_, dims3_ok.mpr hn, rfl⟩) ?_
    rintro _ rfl
    refine (cached_declines hlib hblock.heads (hblock.headDim ▸ hrope) hn hfilled ?_).bind _
    intro hsame
    exact hother ⟨rfl, hsame.1, hsame.2.1, hblock.kvHeads.symm.trans hsame.2.2.1,
      hblock.headDim.symm.trans hsame.2.2.2⟩
  · exact .of_refuses (rmsNorm_refuses hlib hblock.inputNorm hx hh (hview.resolve_right hh)) _

end Block

/-- An all-reduce that succeeds keeps the shape. -/
def CollectiveCommunicator.Reduces (comm : CollectiveCommunicator m α) : Prop :=
  ∀ t algorithm, Always (fun r => ∀ t', r = .ok t' → t'.shape = t.shape) (comm.allReduce t algorithm)

/-- The failures of collectives. -/
def Interrupted (e : DlirError) : Prop := ∃ e', e = .collective e'

/-- The weights of a block have the shapes of a rank's share. -/
structure TensorParallelBlock.Fits (block : TensorParallelBlock (Tensor α)) (config : ModelConfig)
    (tp d : Nat) : Prop where
  inputNorm : block.inputNorm.weight.shape = [config.hiddenSize]
  heads : (TensorParallelAttention.projections block.attention).Fits config.hiddenSize
  kvHeads : block.attention.localKvHeads = config.numKeyValueHeads / tp
  headDim : block.attention.headDim = d
  oProj : block.attention.oProj.linear.weight.shape =
    [config.hiddenSize, block.attention.localQueryHeads * block.attention.headDim]
  postAttentionNorm : block.postAttentionNorm.weight.shape = [config.hiddenSize]
  gateProj : block.mlp.gateProj.weight.shape = [config.intermediateSize / tp, config.hiddenSize]
  upProj : block.mlp.upProj.weight.shape = [config.intermediateSize / tp, config.hiddenSize]
  downProj : block.mlp.downProj.linear.weight.shape =
    [config.hiddenSize, config.intermediateSize / tp]

section TensorParallelBlock

variable {lib : Library α} (hlib : lib.Documented) {collectives : CollectiveCommunicator m α}
  (hreduce : collectives.Reduces) {cache kv : KvCache α}

theorem collective_ensures {x : m (Except CollectivesError (Tensor α))}
    {P : Tensor α → Prop} (h : Always (fun r => ∀ t, r = .ok t → P t) x) :
    Ensures (collective x) kv fun r kv' => kv' = kv ∧ match r with
      | .ok t => P t
      | .error e => Interrupted e := by
  refine Ensures.lift (P := fun r => match r with
    | .ok t => P t
    | .error e => Interrupted e) (h.map fun r hr => ?_) fun r hr => ⟨rfl, hr⟩
  cases r with
  | ok t => exact hr t rfl
  | error e => exact ⟨e, rfl⟩

include hlib hreduce

theorem rowParallel_ensures {layer : RowParallelLinear (Tensor α)} {x : Tensor α} {o i s : Nat}
    (hw : layer.linear.weight.shape = [o, i]) (hx : x.shape = [1, s, i]) :
    Ensures (RowParallelLinear.forward lib layer collectives x) kv fun r kv' => kv' = kv ∧
      match r with
      | .ok t => t.shape = [1, s, o]
      | .error e => e = .overflow ∨ Interrupted e := by
  unfold RowParallelLinear.forward
  refine ensures_yields (linear_yields hlib hw hx) ⟨rfl, .inl rfl⟩ fun t ht => ?_
  refine (collective_ensures (hreduce t layer.algorithm)).imp ?_
  rintro r kv' ⟨hkv, hr⟩
  refine ⟨hkv, ?_⟩
  cases r with
  | ok t' => exact hr.trans ht
  | error e => exact .inr hr

variable {block : TensorParallelBlock (Tensor α)} {config : ModelConfig}
  {tp rows d s position layer : Nat} (hblock : TensorParallelBlock.Fits block config tp d)
  {rope : RotaryEmbedding α} (hrope : rope.Fits rows d)

include hblock hrope

theorem tensorAttention_ensures {x : Tensor α} (hx : x.shape = [1, s, config.hiddenSize])
    (hdtype : lib.sameDtype = true) (hrange : position + s ≤ rows)
    (hfilled : cache.Filled (config.numKeyValueHeads / tp) d position)
    (hlayer : layer < cache.layers.length) (hroom : position + s ≤ cache.capacity)
    (hkv : cache.Extended layer s kv) :
    Ensures (TensorParallelAttention.forward lib block.attention collectives x position layer rope)
      kv fun r kv' => match r with
      | .ok y => y.shape = [1, s, config.hiddenSize] ∧ cache.Extended (layer + 1) s kv'
      | .error e => e = .overflow ∨ Interrupted e ∧ cache.Extended (layer + 1) s kv' := by
  unfold TensorParallelAttention.forward
  refine ensures_yields (.inr ⟨_, dims3_ok.mpr hx, rfl⟩) (.inl rfl) ?_
  rintro _ rfl
  have hcached := cached_ensures (m := m) hlib hblock.heads (hblock.headDim ▸ hrope) hx hdtype hrange
    (by rw [← hblock.kvHeads, ← hblock.headDim] at hfilled; exact hfilled) hlayer hroom hkv
  refine hcached.bind ?_ fun e kv' he => .inl he
  rintro ⟨q, k, v⟩ kv' ⟨hq, hk, hv, hkv'⟩
  refine ensures_yields (attend_yields hlib hblock.heads x hq hk hv) (.inl rfl) ?_
  intro o ho
  refine (rowParallel_ensures hlib hreduce hblock.oProj ho).imp ?_
  rintro r kv'' ⟨rfl, hr⟩
  cases r with
  | ok y => exact ⟨hr, hkv'⟩
  | error e => exact hr.imp_right fun he => ⟨he, hkv'⟩

/-- A block extends its layer, and only its collectives can fail. -/
theorem tensorBlock_step (hdtype : lib.sameDtype = true) (hrange : position + s ≤ rows)
    (hfilled : cache.Filled (config.numKeyValueHeads / tp) d position)
    (hlayer : layer < cache.layers.length) (hroom : position + s ≤ cache.capacity) :
    Step Interrupted cache s config.hiddenSize layer fun x =>
      TensorParallelBlock.forward lib block collectives x position layer rope := by
  intro x kv hx hkv
  unfold TensorParallelBlock.forward
  refine ensures_yields (rmsNorm_yields hlib hblock.inputNorm hx) (.inl rfl) fun n hn => ?_
  have hattention := tensorAttention_ensures hlib hreduce hblock hrope hn hdtype hrange hfilled hlayer hroom
    hkv
  refine hattention.bind ?_ fun e kv' he => he.imp_right fun h => ⟨h.1, _, h.2⟩
  rintro a kv' ⟨ha, hkv'⟩
  refine ensures_yields (add_yields hlib hx ha) (.inl rfl) fun h hh => ?_
  refine ensures_yields (rmsNorm_yields hlib hblock.postAttentionNorm hh) (.inl rfl) fun n hn => ?_
  have hmlp : Ensures (TensorParallelMlp.forward lib block.mlp collectives n) kv' fun r kv'' =>
      kv'' = kv' ∧ match r with
      | .ok t => t.shape = [1, s, config.hiddenSize]
      | .error e => e = .overflow ∨ Interrupted e := by
    refine ensures_yields (gatedProduct_yields hlib hblock.gateProj hblock.upProj hn)
      ⟨rfl, .inl rfl⟩ fun t ht => ?_
    exact rowParallel_ensures hlib hreduce hblock.downProj ht
  refine hmlp.bind ?_ ?_
  · rintro t kv'' ⟨rfl, ht⟩
    exact ensures_last (add_yields hlib hh ht) (.inl rfl) fun y hy => ⟨hy, hkv'⟩
  · rintro e kv'' ⟨rfl, he⟩
    exact he.imp_right fun h => ⟨h, _, hkv'⟩

omit hreduce in
/-- The first block refuses what it cannot do before anything is written. -/
theorem tensorBlock_declines {x : Tensor α} {kvHeads width n : Nat}
    (hx : x.shape = [1, s, config.hiddenSize]) (hfilled : cache.Filled kvHeads width n)
    (hother : ¬ (position + s ≤ rows ∧ lib.sameDtype = true ∧
      config.numKeyValueHeads / tp = kvHeads ∧ d = width)) :
    Declines (TensorParallelBlock.forward lib block collectives x position layer rope) cache := by
  unfold TensorParallelBlock.forward
  refine .after (rmsNorm_yields hlib hblock.inputNorm hx) fun n hn => ?_
  refine Declines.bind ?_ _
  unfold TensorParallelAttention.forward
  refine .after (.inr ⟨_, dims3_ok.mpr hn, rfl⟩) ?_
  rintro _ rfl
  refine (cached_declines hlib hblock.heads (hblock.headDim ▸ hrope) hn hfilled ?_).bind _
  intro hsame
  exact hother ⟨hsame.1, hsame.2.1, hblock.kvHeads.symm.trans hsame.2.2.1,
    hblock.headDim.symm.trans hsame.2.2.2⟩

end TensorParallelBlock

end Dlir.Runtime.Model
