import Dlir.Runtime.Model.Buffer
import Dlir.Runtime.Shards

namespace Dlir.Runtime.Model

open Dlir.Collectives Dlir.Framework Dlir.Math

/-- What the cache uses of the tensor library. -/
structure Candle (α : Type) where
  /-- The buffer after `dst.slice_set(src, dim, offset)`. -/
  sliceSet : Tensor α → Tensor α → Nat → Nat → Except CandleError (Tensor α)
  /-- The view `t.i((.., .., ..n, ..))`. -/
  upTo : Tensor α → Nat → Except CandleError (Tensor α)

/-- How these operations are documented: a write covers exactly its range, or fails and does
nothing, and indexing a range from the start returns it. -/
structure Candle.Documented {α : Type} (candle : Candle α) : Prop where
  sliceSet_ok : ∀ {dst src : Tensor α} {dim offset : Nat} {dst' : Tensor α},
    candle.sliceSet dst src dim offset = .ok dst' → dst.Writes src dim offset dst'
  upTo_eq : ∀ {t : Tensor α} {n d : Nat}, t.shape[2]? = some d → n ≤ d →
    candle.upTo t n = t.narrow 2 0 n

variable {α : Type}

/-- A tensor of zeros. -/
def zeros [Zero α] (shape : List Nat) : Except CandleError (Tensor α) :=
  Tensor.fromVec (List.replicate shape.prod 0) shape

def dims4 (t : Tensor α) : Except CandleError (Nat × Nat × Nat × Nat) :=
  match t.shape with
  | [a, b, c, d] => .ok (a, b, c, d)
  | shape => .error (.unexpectedNumberOfDims 4 shape)

theorem dims4_ok {t : Tensor α} {a b c d : Nat} (h : dims4 t = .ok (a, b, c, d)) :
    t.shape = [a, b, c, d] := by
  unfold dims4 at h
  split at h
  · rename_i hshape
    obtain ⟨rfl, rfl, rfl, rfl⟩ := by simpa using h
    exact hshape
  · cases h

/-- Preallocated keys and values of one layer. -/
structure LayerKvCache (α : Type) where
  keys : Tensor α
  values : Tensor α
  length : Nat
  capacity : Nat

namespace LayerKvCache

def new [Zero α] (config : ModelConfig) (capacity : Nat) : Except DlirError (LayerKvCache α) := do
  let headDim ← config.headDim
  let shape := [1, config.numKeyValueHeads, capacity, headDim]
  let keys ← (zeros shape).mapError .tensor
  let values ← (zeros shape).mapError .tensor
  .ok ⟨keys, values, 0, capacity⟩

/-- Writes the chunks of a call that fits; the keys stay written when the values cannot be. -/
def writeChunks (candle : Candle α) (self : LayerKvCache α) (attempted : Nat)
    (keys values : Tensor α) : Except DlirError (Tensor α × Tensor α) × LayerKvCache α :=
  match candle.sliceSet self.keys keys 2 self.length with
  | .error e => (.error (.tensor e), self)
  | .ok keys' => match candle.sliceSet self.values values 2 self.length with
    | .error e => (.error (.tensor e), { self with keys := keys' })
    | .ok values' =>
      let self := { self with keys := keys', values := values', length := attempted }
      (do
        let keys ← (candle.upTo self.keys self.length).mapError .tensor
        let values ← (candle.upTo self.values self.length).mapError .tensor
        .ok (keys, values), self)

/-- The result of a call and the cache it leaves behind. -/
def append (candle : Candle α) (self : LayerKvCache α) (keys values : Tensor α) :
    Except DlirError (Tensor α × Tensor α) × LayerKvCache α :=
  if keys.shape ≠ values.shape then
    (.error (.invalidConfig "key and value cache chunks have different shapes"), self)
  else match dims4 keys with
    | .error e => (.error (.tensor e), self)
    | .ok (_, _, sequence, _) =>
      let attempted := (self.length + sequence) % 2 ^ 64
      if attempted > self.capacity then
        (.error (.cacheCapacityExceeded attempted self.capacity), self)
      else self.writeChunks candle attempted keys values

/-- The cache after a sequence of calls. -/
def afterCalls (candle : Candle α) (self : LayerKvCache α) (calls : List (Tensor α × Tensor α)) :
    LayerKvCache α :=
  calls.foldl (fun cache call => (cache.append candle call.1 call.2).2) self

/-- The chunks of the calls that are accepted. -/
def acceptedCalls (candle : Candle α) (self : LayerKvCache α) :
    List (Tensor α × Tensor α) → List (Tensor α × Tensor α)
  | [] => []
  | (keys, values) :: calls =>
    match self.append candle keys values with
    | (.ok _, cache) => (keys, values) :: cache.acceptedCalls candle calls
    | (.error _, cache) => cache.acceptedCalls candle calls

/-- A fresh cache allocates what the planner of the cache expects. -/
theorem new_ok [Zero α] {config : ModelConfig} {capacity : Nat} {cache : LayerKvCache α}
    (h : new config capacity = .ok cache) :
    Runtime.LayerKvCache.new config capacity 4 =
      .ok ⟨cache.keys.shape, cache.values.shape, cache.length, cache.capacity⟩ ∧
    cache.keys.shape[2]? = some capacity ∧ cache.values.shape[2]? = some capacity ∧
    cache.length = 0 ∧ cache.capacity = capacity := by
  simp only [new, zeros, bind_eq_ok, mapError_eq_ok] at h
  obtain ⟨headDim, hheads, keys, hkeys, values, hvalues, hcache⟩ := h
  obtain rfl := Except.ok.inj hcache
  obtain ⟨hkeysShape, hkeysData⟩ := Tensor.fromVec_parts hkeys
  obtain ⟨hvaluesShape, -⟩ := Tensor.fromVec_parts hvalues
  have hfits : [1, config.numKeyValueHeads, capacity, headDim].prod * 4 < 2 ^ 64 := by
    have hlt := keys.fits
    rw [keys.size, hkeysShape] at hlt
    omega
  refine ⟨?_, by rw [hkeysShape]; rfl, by rw [hvaluesShape]; rfl, rfl, rfl⟩
  simp only [Runtime.LayerKvCache.new, Runtime.zeros, bind_eq_ok, u64_eq_ok, pure_eq_ok]
  exact ⟨headDim, hheads, _, ⟨_, ⟨hfits, rfl⟩, rfl⟩, _, ⟨_, ⟨hfits, rfl⟩, rfl⟩, by
    rw [hkeysShape, hvaluesShape]⟩

end LayerKvCache

end Dlir.Runtime.Model
