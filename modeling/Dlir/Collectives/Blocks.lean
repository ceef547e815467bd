import Dlir.Collectives.Tensor

namespace Dlir.Collectives

open Dlir.Math

namespace Tensor

variable {α : Type}

theorem prod_split {shape : List Nat} {axis d : Nat} (h : shape[axis]? = some d) :
    shape.prod = outer shape axis * (d * inner shape axis) := by
  obtain ⟨hlt, rfl⟩ := List.getElem?_eq_some_iff.mp h
  rw [outer, inner, ← List.prod_cons, ← List.drop_eq_getElem_cons hlt,
    List.prod_take_mul_prod_drop]

theorem prod_set_split {shape : List Nat} {axis : Nat} (h : axis < shape.length) (n : Nat) :
    (shape.set axis n).prod = outer shape axis * (n * inner shape axis) := by
  have hget : (shape.set axis n)[axis]? = some n := by simp [h]
  rw [prod_split hget, outer, inner, outer, inner, List.take_set_of_le le_rfl,
    List.drop_set_of_lt (Nat.lt_succ_self axis)]

theorem length_flatMap_range {n width : Nat} {f : Nat → List α}
    (h : ∀ o < n, (f o).length = width) : ((List.range n).flatMap f).length = n * width := by
  rw [List.length_flatMap, List.map_congr_left (g := fun _ => width)]
  · simp
  · intro o ho
    exact h o (List.mem_range.mp ho)

/-- One block of a valid `narrow` lies inside the data. -/
theorem length_narrow_block {t : Tensor α} {axis d o : Nat} (start len : Nat)
    (hd : t.shape[axis]? = some d) (hle : start + len ≤ d) (ho : o < outer t.shape axis) :
    ((t.data.drop ((o * d + start) * inner t.shape axis)).take
      (len * inner t.shape axis)).length = len * inner t.shape axis := by
  have hrow : (o + 1) * d ≤ outer t.shape axis * d := Nat.mul_le_mul_right d ho
  have hbound : (o * d + start + len) * inner t.shape axis ≤ t.data.length := by
    rw [t.size, prod_split hd, ← Nat.mul_assoc]
    refine Nat.mul_le_mul_right _ (le_trans ?_ hrow)
    rw [Nat.succ_mul]
    omega
  rw [Nat.add_mul] at hbound
  simp only [List.length_take, List.length_drop]
  omega

/-- `narrow` succeeds exactly on ranges inside the axis. -/
theorem narrow_ok {t : Tensor α} {axis d start len : Nat} (hd : t.shape[axis]? = some d)
    (hle : start + len ≤ d) : ∃ u, t.narrow axis start len = .ok u ∧
      u.shape = t.shape.set axis len ∧
      u.data = (List.range (outer t.shape axis)).flatMap fun o =>
        (t.data.drop ((o * d + start) * inner t.shape axis)).take (len * inner t.shape axis) := by
  obtain ⟨hlt, -⟩ := List.getElem?_eq_some_iff.mp hd
  have hlen : ((List.range (outer t.shape axis)).flatMap fun o =>
      (t.data.drop ((o * d + start) * inner t.shape axis)).take
        (len * inner t.shape axis)).length = (t.shape.set axis len).prod := by
    rw [length_flatMap_range fun o ho => length_narrow_block start len hd hle ho, prod_set_split hlt]
  have hdlt : d < 2 ^ 64 := t.usize d (List.mem_of_getElem? hd)
  have hfits : ((List.range (outer t.shape axis)).flatMap fun o =>
      (t.data.drop ((o * d + start) * inner t.shape axis)).take
        (len * inner t.shape axis)).length < 2 ^ 61 := by
    refine lt_of_le_of_lt ?_ t.fits
    rw [hlen, t.size, prod_set_split hlt, prod_split hd]
    exact Nat.mul_le_mul_left _ (Nat.mul_le_mul_right _ (by omega))
  have husize : ∀ n ∈ t.shape.set axis len, n < 2 ^ 64 := by
    intro n hn
    rcases List.mem_or_eq_of_mem_set hn with hn | rfl
    · exact t.usize n hn
    · omega
  refine ⟨⟨_, _, hlen, hfits, husize⟩, ?_, rfl, rfl⟩
  have hng : ¬ start + len > d := by omega
  simp only [narrow, dim, hd, bind, Except.bind, if_neg hng]
  exact fromVec_ok hlen hfits husize

/-- The result of a `narrow` known to be in range. -/
def slice (t : Tensor α) (axis start len : Nat) : Tensor α :=
  (t.narrow axis start len).toOption.getD t

section Slice

variable {t : Tensor α} {axis d start len : Nat}

theorem narrow_eq_slice (hd : t.shape[axis]? = some d) (hle : start + len ≤ d) :
    t.narrow axis start len = .ok (t.slice axis start len) := by
  obtain ⟨u, hu, -⟩ := narrow_ok hd hle
  simp [slice, hu, Except.toOption]

theorem slice_shape (hd : t.shape[axis]? = some d) (hle : start + len ≤ d) :
    (t.slice axis start len).shape = t.shape.set axis len := by
  obtain ⟨u, hu, hs, -⟩ := narrow_ok hd hle
  simp [slice, hu, Except.toOption, hs]

theorem slice_data (hd : t.shape[axis]? = some d) (hle : start + len ≤ d) :
    (t.slice axis start len).data = (List.range (outer t.shape axis)).flatMap fun o =>
      (t.data.drop ((o * d + start) * inner t.shape axis)).take (len * inner t.shape axis) := by
  obtain ⟨u, hu, -, hv⟩ := narrow_ok hd hle
  simp [slice, hu, Except.toOption, hv]

end Slice

/-- The `index`-th of the equal pieces of `width` elements of a flattened tensor. -/
def chunk (t : Tensor α) (width index : Nat) : Tensor α :=
  t.flattenAll.slice 0 (index * width) width

section Chunk

variable {t : Tensor α} {width index : Nat}

theorem narrow_eq_chunk (h : (index + 1) * width ≤ t.elemCount) :
    t.flattenAll.narrow 0 (index * width) width = .ok (t.chunk width index) := by
  rw [Nat.succ_mul] at h
  exact narrow_eq_slice (d := t.elemCount) rfl h

theorem chunk_shape (h : (index + 1) * width ≤ t.elemCount) :
    (t.chunk width index).shape = [width] := by
  rw [Nat.succ_mul] at h
  exact slice_shape (d := t.elemCount) rfl h

theorem chunk_data (h : (index + 1) * width ≤ t.elemCount) :
    (t.chunk width index).data = (t.data.drop (index * width)).take width := by
  rw [Nat.succ_mul] at h
  have hshape : t.flattenAll.shape[0]? = some t.elemCount := rfl
  have hs := slice_data hshape h
  simpa [chunk, flattenAll, outer, inner] using hs

end Chunk

/-- Consecutive pieces of one width make up the whole list. -/
theorem flatMap_pieces {l : List α} {n width : Nat} (h : l.length = n * width) :
    ((List.range n).flatMap fun o => (l.drop (o * width)).take width) = l := by
  induction n generalizing l with
  | zero =>
    obtain rfl := List.eq_nil_of_length_eq_zero (h.trans (Nat.zero_mul width))
    rfl
  | succ n ih =>
    have hrest : (l.drop width).length = n * width := by
      rw [List.length_drop, h, Nat.succ_mul, Nat.add_sub_cancel]
    have hshift : ∀ o, (l.drop ((o + 1) * width)).take width =
        ((l.drop width).drop (o * width)).take width := by
      intro o
      rw [List.drop_drop, Nat.succ_mul, Nat.add_comm]
    rw [List.range_succ_eq_map, List.flatMap_cons, List.flatMap_map]
    simp only [hshift]
    rw [ih hrest, Nat.zero_mul, List.drop_zero, List.take_append_drop]

theorem length_block {t : Tensor α} {axis d o : Nat} (hd : t.shape[axis]? = some d)
    (ho : o < outer t.shape axis) : (t.block axis o).length = d * inner t.shape axis := by
  have hget : t.shape.getD axis 0 = d := by simp [List.getD, hd]
  have hb := length_narrow_block 0 d hd (by omega) ho
  rw [Nat.add_zero, Nat.mul_assoc] at hb
  rw [block, hget]
  exact hb

theorem flatMap_block {t : Tensor α} {axis d : Nat} (hd : t.shape[axis]? = some d) :
    ((List.range (outer t.shape axis)).flatMap fun o => t.block axis o) = t.data := by
  have hget : t.shape.getD axis 0 = d := by simp [List.getD, hd]
  simp only [block, hget]
  exact flatMap_pieces (by rw [t.size, prod_split hd])

theorem sameExcept_self (axis : Nat) (shape : List Nat) : sameExcept axis shape shape = true := by
  simp [sameExcept]

/-- Tensors of one shape can be concatenated when the result is representable. -/
theorem cat_ok {l : List (Tensor α)} {shape : List Nat} {d : Nat} (axis : Nat) (hne : l ≠ [])
    (hl : ∀ u ∈ l, u.shape = shape) (hd : shape[axis]? = some d) (hdim : l.length * d < 2 ^ 64)
    (hfit : outer shape axis * (l.length * d * inner shape axis) < 2 ^ 61) :
    ∃ u, cat l axis = .ok u ∧ u.shape = shape.set axis (l.length * d) ∧
      u.data = (List.range (outer shape axis)).flatMap fun o => l.flatMap fun u => u.block axis o := by
  obtain ⟨hlt, hget⟩ := List.getElem?_eq_some_iff.mp hd
  match l, hne with
  | [t], _ =>
    have ht : t.shape = shape := hl t (by simp)
    subst ht
    refine ⟨t, rfl, ?_, ?_⟩
    · rw [List.length_singleton, Nat.one_mul, ← hget, List.set_getElem_self]
    · simpa using (flatMap_block hd).symm
  | t :: u :: rest, _ =>
    have ht : t.shape = shape := hl t (by simp)
    subst ht
    have hsum : ((t :: u :: rest).map fun v => v.shape.getD axis 0).sum =
        (t :: u :: rest).length * d := by
      rw [List.map_congr_left (g := fun _ => d)]
      · rw [List.map_const', List.sum_replicate_nat]
      · intro v hv
        simp [hl v hv, List.getD, hd]
    have hfind : (t :: u :: rest).find? (fun v => !sameExcept axis t.shape v.shape) = none := by
      rw [List.find?_eq_none]
      intro v hv
      simp [hl v hv, sameExcept_self]
    have hblock : ∀ o < outer t.shape axis, ((t :: u :: rest).flatMap fun v =>
        v.block axis o).length = (t :: u :: rest).length * d * inner t.shape axis := by
      intro o ho
      rw [List.length_flatMap, List.map_congr_left (g := fun _ => d * inner t.shape axis)]
      · rw [List.map_const', List.sum_replicate_nat, Nat.mul_assoc]
      · intro v hv
        have hvs := hl v hv
        have hd' : v.shape[axis]? = some d := by rw [hvs, hd]
        have hb := length_block hd' (by rwa [hvs])
        rwa [hvs] at hb
    have hlen := length_flatMap_range hblock
    have hprod := prod_set_split hlt ((t :: u :: rest).length * d)
    have husize : ∀ n ∈ t.shape.set axis ((t :: u :: rest).length * d), n < 2 ^ 64 := by
      intro n hn
      rcases List.mem_or_eq_of_mem_set hn with hn | rfl
      · exact t.usize n hn
      · exact hdim
    refine ⟨⟨_, _, hlen.trans hprod.symm, by rw [hlen]; exact hfit, husize⟩, ?_, rfl, rfl⟩
    have hcat := fromVec_ok (hlen.trans hprod.symm) (by rw [hlen]; exact hfit) husize
    simp only [cat]
    rw [if_neg (by omega), hfind, hsum]
    exact hcat

theorem reshape_ok {t : Tensor α} (shape : List Nat) (h : shape.prod = t.elemCount)
    (hu : ∀ d ∈ shape, d < 2 ^ 64) :
    ∃ u, t.reshape shape = .ok u ∧ u.shape = shape ∧ u.data = t.data := by
  refine ⟨⟨shape, t.data, h.symm, t.fits, hu⟩, ?_, rfl, rfl⟩
  unfold reshape
  rw [if_pos h]
  exact fromVec_ok h.symm t.fits hu

end Tensor

end Dlir.Collectives
