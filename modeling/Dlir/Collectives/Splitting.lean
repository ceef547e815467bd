import Dlir.Collectives.Pairwise

namespace Dlir.Collectives

open Dlir.Math

namespace Tensor

variable {α : Type}

/-- The `o`-th of equally long pieces can be cut out again. -/
theorem take_drop_flatMap {β : Type} {l : List β} {f : β → List α} {width : Nat}
    (h : ∀ b ∈ l, (f b).length = width) {i : Nat} {b : β} (hb : l[i]? = some b) :
    ((l.flatMap f).drop (i * width)).take width = f b := by
  induction l generalizing i with
  | nil => cases hb
  | cons a l ih =>
    have ha : (f a).length = width := h a List.mem_cons_self
    have hrest := fun c hc => h c (List.mem_cons_of_mem a hc)
    rw [List.flatMap_cons]
    cases i with
    | zero =>
      obtain rfl : a = b := by simpa using hb
      rw [Nat.zero_mul, List.drop_zero, List.take_left' ha]
    | succ i =>
      have hlength : (i + 1) * width = (f a).length + i * width := by
        rw [ha, Nat.succ_mul, Nat.add_comm]
      rw [hlength, List.drop_length_add_append]
      exact ih hrest (by simpa using hb)

theorem block_of_data {t : Tensor α} {axis d : Nat} {f : Nat → List α}
    (hd : t.shape[axis]? = some d)
    (hdata : t.data = (List.range (outer t.shape axis)).flatMap f)
    (hf : ∀ o < outer t.shape axis, (f o).length = d * inner t.shape axis) {o : Nat}
    (ho : o < outer t.shape axis) : t.block axis o = f o := by
  have hget : t.shape.getD axis 0 = d := by simp [List.getD, hd]
  rw [block, hget, hdata]
  exact take_drop_flatMap (fun o ho => hf o (List.mem_range.mp ho)) (by simp [ho])

/-- Tensors of one shape with the same blocks are the same. -/
theorem ext_blocks {t u : Tensor α} {axis d : Nat} (hshape : t.shape = u.shape)
    (hd : t.shape[axis]? = some d)
    (hblock : ∀ o < outer t.shape axis, t.block axis o = u.block axis o) : t = u := by
  have hd' : u.shape[axis]? = some d := by rw [← hshape, hd]
  ext1
  · exact hshape
  · rw [← flatMap_block hd, ← flatMap_block hd', ← hshape]
    exact List.flatMap_congr fun o ho => hblock o (List.mem_range.mp ho)

section

variable {axis : Nat} {shape : List Nat}

theorem outer_set (n : Nat) : outer (shape.set axis n) axis = outer shape axis := by
  rw [outer, outer, List.take_set_of_le le_rfl]

theorem inner_set (n : Nat) : inner (shape.set axis n) axis = inner shape axis := by
  rw [inner, inner, List.drop_set_of_lt (Nat.lt_succ_self axis)]

end

theorem block_slice {t : Tensor α} {axis d start len o : Nat} (hd : t.shape[axis]? = some d)
    (hle : start + len ≤ d) (ho : o < outer t.shape axis) :
    (t.slice axis start len).block axis o =
      ((t.block axis o).drop (start * inner t.shape axis)).take (len * inner t.shape axis) := by
  have hshape := slice_shape hd hle
  obtain ⟨hlt, -⟩ := List.getElem?_eq_some_iff.mp hd
  have houter : outer (t.slice axis start len).shape axis = outer t.shape axis := by
    rw [hshape, outer_set]
  have hinner : inner (t.slice axis start len).shape axis = inner t.shape axis := by
    rw [hshape, inner_set]
  have hlen : (t.slice axis start len).shape[axis]? = some len := by
    rw [hshape]
    simp [hlt]
  have hdata := slice_data hd hle
  rw [← houter] at hdata
  rw [block_of_data hlen hdata (fun o ho => ?_) (by rwa [houter])]
  · have hget : t.shape.getD axis 0 = d := by simp [List.getD, hd]
    have hroom : len * inner t.shape axis ≤ d * inner t.shape axis - start * inner t.shape axis := by
      rw [← Nat.sub_mul]
      exact Nat.mul_le_mul_right _ (by omega)
    rw [block, hget, List.drop_take, List.take_take, Nat.min_eq_left hroom, List.drop_drop,
      ← Nat.mul_assoc, ← Nat.add_mul]
  · rw [hinner]
    exact length_narrow_block start len hd hle (by rwa [houter] at ho)

section Cat

variable {l : List (Tensor α)} {shape : List Nat} {axis d : Nat} {u : Tensor α}
  (hl : ∀ t ∈ l, t.shape = shape) (hd : shape[axis]? = some d) (hcat : cat l axis = .ok u)
  (hshape : u.shape = shape.set axis (l.length * d))
  (hdata : u.data = (List.range (outer shape axis)).flatMap fun o => l.flatMap fun t => t.block axis o)

include hl hd hshape hdata

/-- The blocks of a concatenation are the concatenated blocks. -/
theorem block_cat {o : Nat} (ho : o < outer shape axis) :
    u.block axis o = l.flatMap fun t => t.block axis o := by
  obtain ⟨hlt, -⟩ := List.getElem?_eq_some_iff.mp hd
  have houter : outer u.shape axis = outer shape axis := by rw [hshape, outer_set]
  have hinner : inner u.shape axis = inner shape axis := by rw [hshape, inner_set]
  rw [← houter] at hdata ho
  have hdu : u.shape[axis]? = some (l.length * d) := by simp [hshape, hlt]
  refine block_of_data hdu hdata (fun o ho => ?_) ho
  rw [hinner, List.length_flatMap, List.map_congr_left (g := fun _ => d * inner shape axis)]
  · rw [List.map_const', List.sum_replicate_nat, Nat.mul_assoc]
  · intro t ht
    have hdt : t.shape[axis]? = some d := by rw [hl t ht, hd]
    have hlength := length_block hdt (o := o) (by rw [hl t ht]; rwa [houter] at ho)
    rwa [hl t ht] at hlength

/-- Cutting a concatenation at the seams gives its parts back. -/
theorem slice_cat {i : Nat} {t : Tensor α} (hi : l[i]? = some t) : u.slice axis (i * d) d = t := by
  obtain ⟨hlt, -⟩ := List.getElem?_eq_some_iff.mp hd
  obtain ⟨hil, -⟩ := List.getElem?_eq_some_iff.mp hi
  have ht : t.shape = shape := hl t (List.mem_of_getElem? hi)
  have hdu : u.shape[axis]? = some (l.length * d) := by simp [hshape, hlt]
  have hle : i * d + d ≤ l.length * d := by
    rw [← Nat.succ_mul]
    exact Nat.mul_le_mul_right d hil
  have houter : outer u.shape axis = outer shape axis := by rw [hshape, outer_set]
  have hinner : inner u.shape axis = inner shape axis := by rw [hshape, inner_set]
  have hs : (u.slice axis (i * d) d).shape = shape := by
    obtain ⟨hlt, hget⟩ := List.getElem?_eq_some_iff.mp hd
    rw [slice_shape hdu hle, hshape, List.set_set, ← hget, List.set_getElem_self]
  refine ext_blocks (hs.trans ht.symm) (by rw [hs, hd]) fun o ho => ?_
  rw [hs] at ho
  rw [block_slice hdu hle (by rwa [houter]), block_cat hl hd hshape hdata ho, hinner, Nat.mul_assoc]
  refine take_drop_flatMap (fun t' ht' => ?_) hi
  have hdt : t'.shape[axis]? = some d := by rw [hl t' ht', hd]
  have hlength := length_block hdt (o := o) (by rw [hl t' ht']; exact ho)
  rwa [hl t' ht'] at hlength

end Cat

end Tensor

namespace Group

variable {world : Nat} {α : Type} [NeZero world] {axis width : Nat} (hdiv : width % world = 0)

include hdiv

/-- The shards of what parts of equal length were concatenated to are the parts. -/
theorem shard_cat {y : Rank world → Tensor α} {t u : Tensor α} (hd : t.shape[axis]? = some width)
    (hy : ∀ q, (y q).shape = t.shape.set axis (width / world))
    (hcat : Tensor.cat ((List.finRange world).map y) axis = .ok u) (r : Rank world) :
    shard u axis r = y r := by
  obtain ⟨u', hu', hshape, hdata⟩ := cat_parts hdiv hd hy
  obtain rfl : u = u' := Except.ok.inj (hcat.symm.trans hu')
  obtain ⟨hlt, hget⟩ := List.getElem?_eq_some_iff.mp hd
  have hmul : world * (width / world) = width :=
    Nat.mul_div_cancel' (Nat.dvd_of_mod_eq_zero hdiv)
  have hall : ∀ v ∈ (List.finRange world).map y, v.shape = t.shape.set axis (width / world) := by
    intro v hv
    obtain ⟨q, -, rfl⟩ := List.mem_map.mp hv
    exact hy q
  have hwhole : u.shape = (t.shape.set axis (width / world)).set axis
      (((List.finRange world).map y).length * (width / world)) := by
    rw [hshape, List.length_map, List.length_finRange, hmul, List.set_set, ← hget,
      List.set_getElem_self]
  rw [← Tensor.outer_set (width / world)] at hdata
  have hslice := Tensor.slice_cat hall (by simp [hlt]) hwhole hdata (i := r.val) (t := y r)
    (by simp)
  rwa [shard, hshape, show t.shape.getD axis 0 = width by simp [List.getD, hd]]

omit [NeZero world] hdiv in
theorem flatMap_finRange {f : Nat → List α} :
    ((List.finRange world).flatMap fun r => f r.val) = (List.range world).flatMap f := by
  rw [← map_val_finRange, List.flatMap_map]

omit [NeZero world] in
theorem block_shard {t : Tensor α} (hd : t.shape[axis]? = some width) (r : Rank world) {o : Nat}
    (ho : o < Tensor.outer t.shape axis) : (shard t axis r).block axis o =
      ((t.block axis o).drop (r.val * (width / world * Tensor.inner t.shape axis))).take
        (width / world * Tensor.inner t.shape axis) := by
  rw [shard, show t.shape.getD axis 0 = width by simp [List.getD, hd],
    Tensor.block_slice hd (shard_bound hdiv r) ho, Nat.mul_assoc]

/-- The shards of a tensor put together again. -/
theorem cat_shards {t : Tensor α} (hd : t.shape[axis]? = some width) :
    Tensor.cat ((List.finRange world).map fun r => shard t axis r) axis = .ok t := by
  have hy : ∀ r, (shard t axis r : Tensor α).shape = t.shape.set axis (width / world) :=
    fun r : Rank world => shard_shape hd hdiv r
  obtain ⟨u, hu, hshape, hdata⟩ := cat_parts hdiv hd hy
  rw [hu]
  have hlength : ∀ o < Tensor.outer t.shape axis, (t.block axis o).length =
      world * (width / world * Tensor.inner t.shape axis) := by
    intro o ho
    rw [Tensor.length_block hd ho, ← Nat.mul_assoc,
      Nat.mul_div_cancel' (Nat.dvd_of_mod_eq_zero hdiv)]
  have hblocks : ∀ o < Tensor.outer t.shape axis,
      (((List.finRange world).map fun r => shard t axis r).flatMap fun v => v.block axis o) =
        t.block axis o := by
    intro o ho
    rw [List.flatMap_map, List.flatMap_congr fun r _ => block_shard hdiv hd r ho,
      flatMap_finRange (f := fun r => ((t.block axis o).drop
        (r * (width / world * Tensor.inner t.shape axis))).take
          (width / world * Tensor.inner t.shape axis))]
    exact Tensor.flatMap_pieces (hlength o ho)
  refine congrArg _ (Tensor.ext hshape ?_)
  rw [hdata, List.flatMap_congr fun o ho => hblocks o (List.mem_range.mp ho), Tensor.flatMap_block hd]

variable {x : Rank world → Tensor α} {shape : List Nat} (hx : ∀ r, (x r).shape = shape)
  (hwidth : shape[axis]? = some width)

include hx hwidth

/-- Block `s` of what rank `r` gets is block `r` of what rank `s` had. -/
theorem shard_transposed (r s : Rank world) :
    shard (transposed x axis r) axis s = shard (x s) axis r := by
  have hd : (x r).shape[axis]? = some width := by rw [hx r, hwidth]
  have hy : ∀ q, (shard (x q) axis r).shape = (x r).shape.set axis (width / world) := fun q => by
    rw [shards_shape hx hwidth hdiv q r, hx r]
  exact shard_cat hdiv hd hy (cat_transposed hx hwidth hdiv r) s

theorem transposed_shape (r : Rank world) : (transposed x axis r).shape = shape := by
  have hd : (x r).shape[axis]? = some width := by rw [hx r, hwidth]
  have hy : ∀ q, (shard (x q) axis r).shape = (x r).shape.set axis (width / world) := fun q => by
    rw [shards_shape hx hwidth hdiv q r, hx r]
  obtain ⟨u, hu, hshape, -⟩ := cat_parts hdiv hd hy
  rw [Except.ok.inj ((cat_transposed hx hwidth hdiv r).symm.trans hu), hshape, hx r]

theorem transposed_transposed (r : Rank world) : transposed (transposed x axis) axis r = x r := by
  have hcat := cat_transposed (transposed_shape hdiv hx hwidth) hwidth hdiv r
  simp only [shard_transposed hdiv hx hwidth] at hcat
  rw [cat_shards hdiv (by rw [hx r, hwidth])] at hcat
  exact (Except.ok.inj hcat).symm

end Group

end Dlir.Collectives
