import Dlir.Runtime.Model.Cache

namespace Dlir.Runtime.Model.LayerKvCache

open Dlir.Collectives Dlir.Framework Dlir.Math

variable {α : Type} {candle : Candle α} {cache cache' : LayerKvCache α}
  {accepted : List (Tensor α × Tensor α)} {keys values : Tensor α}

/-- The cache holds exactly these chunks. -/
structure Represents (cache : LayerKvCache α) (accepted : List (Tensor α × Tensor α)) : Prop where
  keys : cache.keys.Holds 2 (accepted.map Prod.fst) cache.length
  values : cache.values.Holds 2 (accepted.map Prod.snd) cache.length
  keys_dim : cache.keys.shape[2]? = some cache.capacity
  values_dim : cache.values.shape[2]? = some cache.capacity

theorem Represents.of_new [Zero α] {config : ModelConfig} {capacity : Nat}
    (h : new config capacity = .ok cache) : cache.Represents [] := by
  obtain ⟨-, hkeys, hvalues, hlength, hcapacity⟩ := new_ok h
  refine ⟨?_, ?_, by rw [hkeys, hcapacity], by rw [hvalues, hcapacity]⟩
  · rw [hlength]
    exact Tensor.Holds.empty _ _
  · rw [hlength]
    exact Tensor.Holds.empty _ _

theorem Represents.length_le (h : cache.Represents accepted) : cache.length ≤ cache.capacity := by
  have hroom := h.keys.room
  simpa [List.getD, h.keys_dim] using hroom

/-- The keys and values a reader of the first `n` positions sees are the same. -/
structure SameFront (n : Nat) (cache cache' : LayerKvCache α) : Prop where
  keys : Tensor.SameFront 2 n cache.keys cache'.keys
  values : Tensor.SameFront 2 n cache.values cache'.values

theorem SameFront.refl (n : Nat) (cache : LayerKvCache α) : SameFront n cache cache :=
  ⟨.refl _ _ _, .refl _ _ _⟩

theorem SameFront.trans {n : Nat} {a b c : LayerKvCache α} (h : SameFront n a b)
    (h' : SameFront n b c) : SameFront n a c :=
  ⟨h.keys.trans h'.keys, h.values.trans h'.values⟩

theorem SameFront.mono {m n : Nat} {a b : LayerKvCache α} (h : SameFront n a b) (hle : m ≤ n) :
    SameFront m a b :=
  ⟨h.keys.mono hle, h.values.mono hle⟩

/-- What a call can do. -/
theorem append_cases (hcandle : candle.Documented) (hrep : cache.Represents accepted)
    (keys values : Tensor α) :
    (∃ e, cache.append candle keys values = (.error e, cache)) ∨
    (∃ e keys', cache.keys.Writes keys 2 cache.length keys' ∧
      cache.append candle keys values = (.error e, { cache with keys := keys' })) ∨
    ∃ keys' values' kview vview, cache.keys.Writes keys 2 cache.length keys' ∧
      cache.values.Writes values 2 cache.length values' ∧ keys.shape = values.shape ∧
      keys'.narrow 2 0 (cache.length + keys.shape.getD 2 0) = .ok kview ∧
      values'.narrow 2 0 (cache.length + keys.shape.getD 2 0) = .ok vview ∧
      cache.append candle keys values = (.ok (kview, vview),
        { cache with
          keys := keys'
          values := values'
          length := cache.length + keys.shape.getD 2 0 }) := by
  by_cases hshape : keys.shape = values.shape
  swap
  · refine .inl ⟨.invalidConfig "key and value cache chunks have different shapes", ?_⟩
    rw [append, if_pos hshape]
  cases hdims : dims4 keys with
  | error e => exact .inl ⟨.tensor e, by rw [append, if_neg (not_not.mpr hshape), hdims]⟩
  | ok dims =>
    obtain ⟨b, h, sequence, w⟩ := dims
    have hsequence : keys.shape.getD 2 0 = sequence := by rw [dims4_ok hdims]; rfl
    by_cases hfull : (cache.length + sequence) % 2 ^ 64 > cache.capacity
    · refine .inl ⟨.cacheCapacityExceeded ((cache.length + sequence) % 2 ^ 64) cache.capacity, ?_⟩
      rw [append, if_neg (not_not.mpr hshape), hdims]
      exact if_pos hfull
    have happend : cache.append candle keys values =
        cache.writeChunks candle ((cache.length + sequence) % 2 ^ 64) keys values := by
      rw [append, if_neg (not_not.mpr hshape), hdims]
      exact if_neg hfull
    rw [happend, hsequence]
    cases hkeys : candle.sliceSet cache.keys keys 2 cache.length with
    | error e => exact .inl ⟨.tensor e, by rw [writeChunks, hkeys]⟩
    | ok keys' =>
      have hwkeys := hcandle.sliceSet_ok hkeys
      cases hvalues : candle.sliceSet cache.values values 2 cache.length with
      | error e => exact .inr (.inl ⟨.tensor e, keys', hwkeys, by rw [writeChunks, hkeys, hvalues]⟩)
      | ok values' =>
        have hwvalues := hcandle.sliceSet_ok hvalues
        have hroom : cache.length + sequence ≤ cache.capacity := by
          have hle := hwkeys.room
          rw [hsequence] at hle
          simpa [List.getD, hrep.keys_dim] using hle
        have hattempted : (cache.length + sequence) % 2 ^ 64 = cache.length + sequence := by
          have hlt := cache.keys.usize cache.capacity (List.mem_of_getElem? hrep.keys_dim)
          exact Nat.mod_eq_of_lt (by omega)
        have hkdim : keys'.shape[2]? = some cache.capacity := by rw [hwkeys.shape, hrep.keys_dim]
        have hvdim : values'.shape[2]? = some cache.capacity := by
          rw [hwvalues.shape, hrep.values_dim]
        have hrange : 0 + (cache.length + sequence) ≤ cache.capacity := by omega
        have hknarrow := Tensor.narrow_eq_slice hkdim hrange
        have hvnarrow := Tensor.narrow_eq_slice hvdim hrange
        refine .inr (.inr ⟨keys', values', _, _, hwkeys, hwvalues, hshape, hknarrow, hvnarrow, ?_⟩)
        simp only [writeChunks, hkeys, hvalues, hattempted, hcandle.upTo_eq hkdim hroom,
          hcandle.upTo_eq hvdim hroom, hknarrow, hvnarrow]
        rfl

theorem append_error (hcandle : candle.Documented) (hrep : cache.Represents accepted)
    {e : DlirError} (h : cache.append candle keys values = (.error e, cache')) :
    cache'.Represents accepted ∧ cache'.length = cache.length ∧
      SameFront cache.length cache cache' := by
  rcases append_cases hcandle hrep keys values with ⟨e', h'⟩ | ⟨e', keys', hwrites, h'⟩ |
    ⟨keys', values', kview, vview, -, -, -, -, -, h'⟩
  · rw [h'] at h
    obtain ⟨-, rfl⟩ := Prod.mk.inj h
    exact ⟨hrep, rfl, .refl _ _⟩
  · rw [h'] at h
    obtain ⟨-, rfl⟩ := Prod.mk.inj h
    have hsame := hwrites.sameFront hrep.keys_dim
    refine ⟨⟨hrep.keys.of_sameFront hsame, hrep.values, ?_, hrep.values_dim⟩, rfl, hsame,
      .refl _ _ _⟩
    rw [hwrites.shape]
    exact hrep.keys_dim
  · rw [h'] at h
    cases (Prod.mk.inj h).1

theorem append_ok (hcandle : candle.Documented) (hrep : cache.Represents accepted)
    {kview vview : Tensor α} (h : cache.append candle keys values = (.ok (kview, vview), cache')) :
    cache'.Represents (accepted ++ [(keys, values)]) ∧ SameFront cache.length cache cache' ∧
      cache.length ≤ cache'.length ∧ cache'.keys.narrow 2 0 cache'.length = .ok kview ∧
      cache'.values.narrow 2 0 cache'.length = .ok vview := by
  rcases append_cases hcandle hrep keys values with ⟨e', h'⟩ | ⟨e', keys', hwrites, h'⟩ |
    ⟨keys', values', kview', vview', hwkeys, hwvalues, hshape, hkview, hvview, h'⟩
  · rw [h'] at h
    cases (Prod.mk.inj h).1
  · rw [h'] at h
    cases (Prod.mk.inj h).1
  · rw [h'] at h
    obtain ⟨hviews, rfl⟩ := Prod.mk.inj h
    obtain ⟨rfl, rfl⟩ := Prod.mk.inj (Except.ok.inj hviews)
    refine ⟨⟨?_, ?_, ?_, ?_⟩, ⟨hwkeys.sameFront hrep.keys_dim, hwvalues.sameFront hrep.values_dim⟩,
      Nat.le_add_right _ _, hkview, hvview⟩
    · rw [List.map_append]
      exact hrep.keys.write hrep.keys_dim hwkeys
    · rw [List.map_append]
      have hheld := hrep.values.write hrep.values_dim hwvalues
      rw [← hshape] at hheld
      exact hheld
    · rw [hwkeys.shape]
      exact hrep.keys_dim
    · rw [hwvalues.shape]
      exact hrep.values_dim

section Runs

variable (hcandle : candle.Documented)

include hcandle

/-- After any calls the cache holds the chunks of the accepted ones, and readers of what it held
before see the same. -/
theorem Represents.afterCalls (hrep : cache.Represents accepted)
    (calls : List (Tensor α × Tensor α)) :
    (cache.afterCalls candle calls).Represents (accepted ++ cache.acceptedCalls candle calls) ∧
      SameFront cache.length cache (cache.afterCalls candle calls) := by
  induction calls generalizing cache accepted with
  | nil => exact ⟨by simpa [LayerKvCache.afterCalls, acceptedCalls] using hrep, .refl _ _⟩
  | cons call calls ih =>
    obtain ⟨keys, values⟩ := call
    cases h : cache.append candle keys values with
    | mk result cache' =>
      have hafter : cache.afterCalls candle ((keys, values) :: calls) =
          cache'.afterCalls candle calls := by
        simp [LayerKvCache.afterCalls, h]
      cases result with
      | error e =>
        obtain ⟨hrep', hlength, hsame⟩ := append_error hcandle hrep h
        obtain ⟨hlast, hlater⟩ := ih hrep'
        have haccepted : cache.acceptedCalls candle ((keys, values) :: calls) =
            cache'.acceptedCalls candle calls := by
          simp [acceptedCalls, h]
        rw [hafter, haccepted]
        rw [hlength] at hlater
        exact ⟨hlast, hsame.trans hlater⟩
      | ok views =>
        obtain ⟨hrep', hsame, hle, -⟩ := append_ok hcandle hrep h
        obtain ⟨hlast, hlater⟩ := ih hrep'
        have haccepted : cache.acceptedCalls candle ((keys, values) :: calls) =
            (keys, values) :: cache'.acceptedCalls candle calls := by
          simp [acceptedCalls, h]
        rw [hafter, haccepted, List.append_cons]
        exact ⟨hlast, hsame.trans (hlater.mono hle)⟩

end Runs

/-- Appending to the preallocated cache refines appending to lists of chunks. Whatever calls were
made before, the length stays within the capacity; an accepted call returns the concatenation of
exactly the accepted chunks, and no later call changes what it returned; a rejected call changes
neither the length nor the populated positions. -/
theorem append_refines [Zero α] (candle : Candle α) (hcandle : candle.Documented)
    (config : ModelConfig) (capacity : Nat) (cache : LayerKvCache α)
    (hnew : new config capacity = .ok cache) (calls : List (Tensor α × Tensor α)) :
    (cache.afterCalls candle calls).length ≤ capacity ∧
    ∀ (keys values : Tensor α) (cache' : LayerKvCache α),
      (∀ kview vview, (cache.afterCalls candle calls).append candle keys values =
          (.ok (kview, vview), cache') →
        Tensor.cat ((cache.acceptedCalls candle calls ++ [(keys, values)]).map Prod.fst) 2 = .ok kview ∧
        Tensor.cat ((cache.acceptedCalls candle calls ++ [(keys, values)]).map Prod.snd) 2 = .ok vview ∧
        ∀ later, (cache'.afterCalls candle later).keys.narrow 2 0 cache'.length = .ok kview ∧
          (cache'.afterCalls candle later).values.narrow 2 0 cache'.length = .ok vview) ∧
      (∀ e, (cache.afterCalls candle calls).append candle keys values = (.error e, cache') →
        cache'.length = (cache.afterCalls candle calls).length ∧
        cache'.keys.narrow 2 0 cache'.length =
          (cache.afterCalls candle calls).keys.narrow 2 0 cache'.length ∧
        cache'.values.narrow 2 0 cache'.length =
          (cache.afterCalls candle calls).values.narrow 2 0 cache'.length) := by
  have hstart := Represents.of_new hnew
  obtain ⟨hrep, hfront⟩ := hstart.afterCalls hcandle calls
  rw [List.nil_append] at hrep
  have hcapacity : (cache.afterCalls candle calls).capacity = capacity := by
    obtain ⟨-, hdim, -⟩ := new_ok hnew
    have hdim' := hrep.keys_dim
    rw [← hfront.keys.shape, hdim] at hdim'
    exact (Option.some.inj hdim').symm
  refine ⟨hcapacity ▸ hrep.length_le, fun keys values cache' => ⟨?_, ?_⟩⟩
  · intro kview vview h
    obtain ⟨hrep', -, -, hkview, hvview⟩ := append_ok hcandle hrep h
    refine ⟨?_, ?_, fun later => ?_⟩
    · rw [hrep'.keys.cat_eq hrep'.keys_dim (by simp), hkview]
    · rw [hrep'.values.cat_eq hrep'.values_dim (by simp), hvview]
    · obtain ⟨-, hsame⟩ := hrep'.afterCalls hcandle later
      rw [← hsame.keys.narrow_eq hrep'.keys_dim hrep'.length_le,
        ← hsame.values.narrow_eq hrep'.values_dim hrep'.length_le]
      exact ⟨hkview, hvview⟩
  · intro e h
    obtain ⟨-, hlength, hsame⟩ := append_error hcandle hrep h
    rw [hlength]
    exact ⟨rfl, (hsame.keys.narrow_eq hrep.keys_dim hrep.length_le).symm,
      (hsame.values.narrow_eq hrep.values_dim hrep.length_le).symm⟩

/-- The operations as they are documented. -/
def reference : Candle α := ⟨Tensor.overwrite, fun t n => t.narrow 2 0 n⟩

theorem reference_documented : (reference : Candle α).Documented :=
  ⟨Tensor.writes_of_overwrite, fun _ _ => rfl⟩

/-- A chunk of one position. -/
def position (a : Nat) : Tensor Nat := ⟨[1, 1, 1, 1], [a], rfl, by simp, by simp⟩

theorem append_refines_two :
    Tensor.cat [position 5, position 7] 2 =
      .ok ⟨[1, 1, 2, 1], [5, 7], rfl, by simp, by simp⟩ := by
  have hrefines := append_refines reference reference_documented
    ⟨1, 1, 1, 1, 1, 1, 4, 0, 0, false⟩ 2
    ⟨⟨[1, 1, 2, 1], [0, 0], rfl, by simp, by simp⟩, ⟨[1, 1, 2, 1], [0, 0], rfl, by simp, by simp⟩, 0, 2⟩
    rfl [(position 5, position 6), (position 1, ⟨[1], [0], rfl, by simp, by simp⟩)]
  exact ((hrefines.2 (position 7) (position 8) _).1 _ _ rfl).1

end Dlir.Runtime.Model.LayerKvCache
