import Dlir.Runtime.Model.Numerics

namespace Dlir.Runtime.Model

open Dlir.Collectives Dlir.Framework

variable {α : Type}

/-- Preallocated per-layer key and value state for one autoregressive sequence. -/
structure KvCache (α : Type) where
  layers : List (LayerKvCache α)
  capacity : Nat

namespace KvCache

/-- Allocates cache storage for only `layerCount` transformer layers. -/
def newForLayers [Zero α] (config : ModelConfig) (layerCount capacity : Nat) :
    Except DlirError (KvCache α) := do
  refuse (layerCount = 0 ∨ layerCount > config.numHiddenLayers) <| .invalidConfig
    s!"cache layer count must be between 1 and {config.numHiddenLayers}, got {layerCount}"
  refuse (capacity = 0 ∨ capacity > config.maxPositionEmbeddings) <| .invalidConfig
    s!"cache capacity {capacity} is outside model context 1..={config.maxPositionEmbeddings}"
  let layers ← (List.range layerCount).mapM fun _ => LayerKvCache.new config capacity
  pure ⟨layers, capacity⟩

/-- Allocates zero-filled key and value tensors for every registered transformer layer. -/
def new [Zero α] (config : ModelConfig) (capacity : Nat) : Except DlirError (KvCache α) := do
  refuse (capacity = 0 ∨ capacity > config.maxPositionEmbeddings) <| .invalidConfig
    s!"cache capacity {capacity} is outside model context 1..={config.maxPositionEmbeddings}"
  newForLayers config config.numHiddenLayers capacity

/-- Allocates every transformer layer while storing only this rank's compact KV heads. -/
def newTensorParallel [Zero α] (config : ModelConfig) (tpSize capacity : Nat) :
    Except DlirError (KvCache α) := do
  refuse (tpSize = 0 ∨ config.numKeyValueHeads % tpSize ≠ 0) <| .invalidConfig
    s!"{config.numKeyValueHeads} KV heads cannot be divided across TP={tpSize}"
  new (Runtime.KvCache.localConfig config tpSize) capacity

/-- The populated positions visible to the next forward call. -/
def len (self : KvCache α) : Nat := self.layers.head?.elim 0 (·.length)

def layerCount (self : KvCache α) : Nat := self.layers.length

def append (candle : Candle α) (self : KvCache α) (layer : Nat) (keys values : Tensor α) :
    Except DlirError (Tensor α × Tensor α) × KvCache α :=
  match self.layers[layer]? with
  | none => (.error (.invalidConfig s!"cache has no layer {layer}"), self)
  | some cache =>
    let (result, cache) := cache.append candle keys values
    (result, { self with layers := self.layers.set layer cache })

/-- Logical bytes populated across all layer keys and values. -/
def usedBytes (self : KvCache α) (config : ModelConfig) (elementBytes : Nat) :
    Except DlirError Nat := do
  let both ← u64 (2 * self.layers.length)
  let positions ← u64 (both * self.len)
  let heads ← u64 (positions * config.numKeyValueHeads)
  let elements ← u64 (heads * (← config.headDim))
  u64 (elements * elementBytes)

end KvCache

/-- A layer that holds `n` positions of `heads` heads. -/
structure LayerKvCache.Filled (layer : LayerKvCache α) (heads width capacity n : Nat) : Prop where
  represents : ∃ accepted, layer.Represents accepted
  keys : layer.keys.shape = [1, heads, capacity, width]
  values : layer.values.shape = [1, heads, capacity, width]
  length : layer.length = n
  capacity : layer.capacity = capacity

/-- What a call that appends `sequence` positions makes of a layer. -/
structure LayerKvCache.Grown (sequence : Nat) (layer layer' : LayerKvCache α) : Prop where
  length : layer'.length = layer.length + sequence
  capacity : layer'.capacity = layer.capacity
  front : LayerKvCache.SameFront layer.length layer layer'
  represents : ∃ accepted, layer'.Represents accepted

namespace LayerKvCache.Filled

variable {layer : LayerKvCache α} {heads width capacity n : Nat}

theorem of_new [Zero α] {config : ModelConfig} {d : Nat} (hd : config.Heads d)
    (h : LayerKvCache.new config capacity = .ok layer) :
    layer.Filled config.numKeyValueHeads d capacity 0 := by
  have hrep := Represents.of_new h
  obtain ⟨-, -, -, hlength, hcapacity⟩ := new_ok h
  simp only [LayerKvCache.new, zeros, bind_eq_ok, mapError_eq_ok, ModelConfig.headDim_eq_ok] at h
  obtain ⟨d', hd', keys, hkeys, values, hvalues, hcache⟩ := h
  obtain rfl := hd.unique hd'
  obtain rfl := Except.ok.inj hcache
  exact ⟨⟨[], hrep⟩, (Tensor.fromVec_parts hkeys).1, (Tensor.fromVec_parts hvalues).1, hlength,
    hcapacity⟩

section Append

variable {lib : Library α} (hlib : lib.Documented) {keys values : Tensor α}

include hlib

/-- A chunk of the right shape that has room is taken. -/
theorem append (hdtype : lib.sameDtype = true) (h : layer.Filled heads width capacity n)
    {sequence : Nat} (hkeys : keys.shape = [1, heads, sequence, width])
    (hvalues : values.shape = [1, heads, sequence, width]) (hroom : n + sequence ≤ capacity) :
    ∃ kview vview layer', layer.append lib.toCandle keys values = (.ok (kview, vview), layer') ∧
      kview.shape = [1, heads, n + sequence, width] ∧
      vview.shape = [1, heads, n + sequence, width] ∧
      layer'.Filled heads width capacity (n + sequence) ∧ layer.Grown sequence layer' := by
  obtain ⟨accepted, hrep⟩ := h.represents
  have hcapacity : capacity < 2 ^ 64 := layer.keys.usize capacity (by rw [h.keys]; simp)
  have hdims : dims4 keys = .ok (1, heads, sequence, width) := by unfold dims4; rw [hkeys]
  have hattempted : (n + sequence) % 2 ^ 64 = n + sequence := Nat.mod_eq_of_lt (by omega)
  obtain ⟨keys', hset⟩ := hlib.sliceSet_room hdtype layer.keys keys 2 n
    (by simp [h.keys]) (by rw [h.keys, hkeys]; rfl) (by rw [h.keys, hkeys]; exact hroom)
  obtain ⟨values', hset'⟩ := hlib.sliceSet_room hdtype layer.values values 2 n
    (by simp [h.values]) (by rw [h.values, hvalues]; rfl) (by rw [h.values, hvalues]; exact hroom)
  have hwkeys := hlib.sliceSet_ok hset
  have hwvalues := hlib.sliceSet_ok hset'
  have hkdim : keys'.shape[2]? = some capacity := by rw [hwkeys.shape, h.keys]; rfl
  have hvdim : values'.shape[2]? = some capacity := by rw [hwvalues.shape, h.values]; rfl
  have hrange : 0 + (n + sequence) ≤ capacity := by omega
  have hknarrow := Tensor.narrow_eq_slice hkdim hrange
  have hvnarrow := Tensor.narrow_eq_slice hvdim hrange
  have happend : layer.append lib.toCandle keys values =
      (.ok (keys'.slice 2 0 (n + sequence), values'.slice 2 0 (n + sequence)),
        { layer with keys := keys', values := values', length := n + sequence }) := by
    have hfull : ¬ n + sequence > layer.capacity := by rw [h.capacity]; omega
    simp only [LayerKvCache.append, hkeys, hvalues, hdims, h.length, hattempted, ne_eq,
      not_true_eq_false, if_false, hfull, writeChunks, hset, hset', hlib.upTo_eq hkdim hroom,
      hlib.upTo_eq hvdim hroom, hknarrow, hvnarrow]
    rfl
  obtain ⟨hrep', hfront, -, -, -⟩ := append_ok hlib.toDocumented hrep happend
  refine ⟨_, _, _, happend, ?_, ?_, ⟨⟨_, hrep'⟩, ?_, ?_, rfl, h.capacity⟩, ?_, rfl, hfront, _,
    hrep'⟩
  · rw [Tensor.slice_shape hkdim hrange, hwkeys.shape, h.keys]
    rfl
  · rw [Tensor.slice_shape hvdim hrange, hwvalues.shape, h.values]
    rfl
  · rw [hwkeys.shape, h.keys]
  · rw [hwvalues.shape, h.values]
  · rw [h.length]

/-- A chunk of other heads or of another element type is refused before anything is written. -/
theorem append_refused (h : layer.Filled heads width capacity n) {heads' sequence width' : Nat}
    (hkeys : keys.shape = [1, heads', sequence, width'])
    (hother : ¬ (lib.sameDtype = true ∧ heads' = heads ∧ width' = width)) (values : Tensor α) :
    ∃ e, layer.append lib.toCandle keys values = (.error e, layer) := by
  unfold LayerKvCache.append writeChunks
  split_ifs with hshapes
  · exact ⟨_, rfl⟩
  · split
    · exact ⟨_, rfl⟩
    · dsimp only
      split_ifs with hfull
      · exact ⟨_, rfl⟩
      · have hset : ∃ e, lib.sliceSet layer.keys keys 2 layer.length = .error e := by
          cases hdtype : lib.sameDtype with
          | false => exact hlib.sliceSet_refused hdtype _ _ _ _
          | true =>
            cases hset : lib.sliceSet layer.keys keys 2 layer.length with
            | error e => exact ⟨e, rfl⟩
            | ok keys' =>
              have hsource := (hlib.sliceSet_ok hset).source
              rw [h.keys, hkeys] at hsource
              simp only [List.getD, List.set_cons_succ, List.set_cons_zero, List.cons.injEq,
                true_and, and_true] at hsource
              exact absurd ⟨hdtype, hsource.1, hsource.2.2⟩ hother
        obtain ⟨e, he⟩ := hset
        exact ⟨_, by rw [he]⟩

end Append

theorem grow (h : layer.Filled heads width capacity n) {layer' : LayerKvCache α} {sequence : Nat}
    (hgrown : layer.Grown sequence layer') :
    layer'.Filled heads width capacity (n + sequence) where
  represents := hgrown.represents
  keys := hgrown.front.keys.shape.symm.trans h.keys
  values := hgrown.front.values.shape.symm.trans h.values
  length := by rw [hgrown.length, h.length]
  capacity := hgrown.capacity.trans h.capacity

end LayerKvCache.Filled

namespace KvCache

/-- Every layer holds `n` positions of `heads` heads. -/
def Filled (cache : KvCache α) (heads width n : Nat) : Prop :=
  ∀ layer ∈ cache.layers, layer.Filled heads width cache.capacity n

/-- The first `count` layers have got `sequence` more positions, the others are as they were. -/
structure Extended (cache : KvCache α) (count sequence : Nat) (cache' : KvCache α) : Prop where
  capacity : cache'.capacity = cache.capacity
  length : cache'.layers.length = cache.layers.length
  grown : ∀ i < count, ∀ layer layer', cache.layers[i]? = some layer →
    cache'.layers[i]? = some layer' → layer.Grown sequence layer'
  rest : ∀ i, count ≤ i → cache'.layers[i]? = cache.layers[i]?

namespace Extended

variable {cache cache' : KvCache α} {heads width n count sequence : Nat}

theorem refl (cache : KvCache α) (sequence : Nat) : cache.Extended 0 sequence cache where
  capacity := rfl
  length := rfl
  grown := by
    intro i hi
    cases hi
  rest _ _ := rfl

/-- After all layers the cache holds that many positions more. -/
theorem filled (h : cache.Extended count sequence cache') (hcount : cache.layers.length ≤ count)
    (hfilled : cache.Filled heads width n) : cache'.Filled heads width (n + sequence) := by
  intro layer' hlayer'
  obtain ⟨i, hi⟩ := List.getElem?_of_mem hlayer'
  obtain ⟨hlt, -⟩ := List.getElem?_eq_some_iff.mp hi
  rw [h.length] at hlt
  have hget : cache.layers[i]? = some cache.layers[i] := List.getElem?_eq_getElem hlt
  have hgrown := h.grown i (by omega) _ _ hget hi
  rw [h.capacity]
  exact (hfilled _ (List.mem_of_getElem? hget)).grow hgrown

/-- The next layer gets its positions as well. -/
theorem set (h : cache.Extended count sequence cache') {layer layer' : LayerKvCache α}
    (hlayer : cache.layers[count]? = some layer) (hgrown : layer.Grown sequence layer') :
    cache.Extended (count + 1) sequence
      { cache' with layers := cache'.layers.set count layer' } where
  capacity := h.capacity
  length := by rw [List.length_set, h.length]
  grown := by
    intro i hi l l' hl hl'
    by_cases heq : i = count
    · subst heq
      obtain ⟨hlt, -⟩ := List.getElem?_eq_some_iff.mp hlayer
      rw [← h.length] at hlt
      rw [List.getElem?_set_self hlt] at hl'
      obtain rfl := Option.some.inj hl'
      rw [hlayer] at hl
      obtain rfl := Option.some.inj hl
      exact hgrown
    · rw [List.getElem?_set_ne (Ne.symm heq)] at hl'
      exact h.grown i (by omega) l l' hl hl'
  rest := by
    intro i hi
    rw [List.getElem?_set_ne (by omega)]
    exact h.rest i (by omega)

section Append

variable {lib : Library α} (hlib : lib.Documented) {keys values : Tensor α}

include hlib

theorem append (hdtype : lib.sameDtype = true) (h : cache.Extended count sequence cache')
    (hfilled : cache.Filled heads width n) (hcount : count < cache.layers.length) (hkeys : keys.shape = [1, heads, sequence, width])
    (hvalues : values.shape = [1, heads, sequence, width])
    (hroom : n + sequence ≤ cache.capacity) :
    ∃ kview vview cache'', cache'.append lib.toCandle count keys values =
        (.ok (kview, vview), cache'') ∧
      kview.shape = [1, heads, n + sequence, width] ∧
      vview.shape = [1, heads, n + sequence, width] ∧
      cache.Extended (count + 1) sequence cache'' := by
  have hlayer : cache.layers[count]? = some cache.layers[count] := List.getElem?_eq_getElem hcount
  obtain ⟨kview, vview, layer', happend, hkview, hvview, -, hgrown⟩ :=
    (hfilled _ (List.mem_of_getElem? hlayer)).append hlib hdtype hkeys hvalues hroom
  refine ⟨kview, vview, _, ?_, hkview, hvview, h.set hlayer hgrown⟩
  simp only [KvCache.append, h.rest count (Nat.le_refl _), hlayer, happend]

end Append

end Extended

theorem append_refused {lib : Library α} (hlib : lib.Documented) {cache : KvCache α}
    {heads width n heads' sequence width' : Nat} {keys : Tensor α}
    (hfilled : cache.Filled heads width n) (hkeys : keys.shape = [1, heads', sequence, width'])
    (hother : ¬ (lib.sameDtype = true ∧ heads' = heads ∧ width' = width)) (layer : Nat)
    (values : Tensor α) :
    ∃ e, cache.append lib.toCandle layer keys values = (.error e, cache) := by
  unfold append
  cases hlayer : cache.layers[layer]? with
  | none => exact ⟨_, rfl⟩
  | some l =>
    obtain ⟨e, he⟩ := (hfilled l (List.mem_of_getElem? hlayer)).append_refused hlib hkeys hother values
    obtain ⟨hlt, hget⟩ := List.getElem?_eq_some_iff.mp hlayer
    refine ⟨e, ?_⟩
    simp only [he]
    rw [← hget, List.set_getElem_self hlt]

theorem filled_of_newForLayers [Zero α] {config : ModelConfig} {layerCount capacity d : Nat}
    {cache : KvCache α} (hd : config.Heads d)
    (h : newForLayers config layerCount capacity = .ok cache) :
    cache.Filled config.numKeyValueHeads d 0 ∧ cache.layers.length = layerCount ∧
      cache.capacity = capacity ∧ 0 < layerCount := by
  simp only [newForLayers, bind_eq_ok, refuse_eq_ok, pure_eq_ok, exists_const] at h
  obtain ⟨hcount, -, layers, hlayers, rfl⟩ := h
  have heach := forall₂_of_mapM hlayers
  refine ⟨fun layer hlayer => ?_, ?_, rfl, by omega⟩
  · obtain ⟨-, -, hnew⟩ := exists_of_forall₂_right heach hlayer
    exact .of_new hd hnew
  · rw [← heach.length_eq, List.length_range]

theorem len_eq {cache : KvCache α} {heads width n : Nat} (h : cache.Filled heads width n)
    (hpos : 0 < cache.layers.length) : cache.len = n := by
  unfold len
  cases hlayers : cache.layers with
  | nil => simp [hlayers] at hpos
  | cons layer layers => exact (h layer (by rw [hlayers]; exact List.mem_cons_self)).length

end KvCache

end Dlir.Runtime.Model
