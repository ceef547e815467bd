import Dlir.Collectives.Splitting

namespace Dlir.Collectives.Tensor

variable {α : Type} {axis : Nat}

/-- `dst'` is `dst` with `src` written over the range of `axis` that starts at `offset`. -/
structure Writes (dst src : Tensor α) (axis offset : Nat) (dst' : Tensor α) : Prop where
  shape : dst'.shape = dst.shape
  source : src.shape = dst.shape.set axis (src.shape.getD axis 0)
  room : offset + src.shape.getD axis 0 ≤ dst.shape.getD axis 0
  block : ∀ o < outer dst.shape axis, dst'.block axis o =
    (dst.block axis o).take (offset * inner dst.shape axis) ++ src.block axis o ++
      (dst.block axis o).drop ((offset + src.shape.getD axis 0) * inner dst.shape axis)

/-- The first `n` positions along `axis` of one tensor are those of the other. -/
structure SameFront (axis n : Nat) (t u : Tensor α) : Prop where
  shape : t.shape = u.shape
  block : ∀ o < outer t.shape axis, (t.block axis o).take (n * inner t.shape axis) =
    (u.block axis o).take (n * inner t.shape axis)

/-- The first `n` positions along `axis` are these chunks one after the other. -/
structure Holds (t : Tensor α) (axis : Nat) (chunks : List (Tensor α)) (n : Nat) : Prop where
  chunk : ∀ c ∈ chunks, c.shape = t.shape.set axis (c.shape.getD axis 0)
  length : n = (chunks.map fun c => c.shape.getD axis 0).sum
  room : n ≤ t.shape.getD axis 0
  block : ∀ o < outer t.shape axis, (t.block axis o).take (n * inner t.shape axis) =
    chunks.flatMap fun c => c.block axis o

namespace SameFront

variable {n : Nat} {t u v : Tensor α}

theorem refl (axis n : Nat) (t : Tensor α) : SameFront axis n t t := ⟨rfl, fun _ _ => rfl⟩

theorem trans (h : SameFront axis n t u) (h' : SameFront axis n u v) : SameFront axis n t v := by
  refine ⟨h.shape.trans h'.shape, fun o ho => ?_⟩
  have hblock := h'.block o (by rw [← h.shape]; exact ho)
  rw [← h.shape] at hblock
  exact (h.block o ho).trans hblock

theorem mono {m : Nat} (h : SameFront axis n t u) (hle : m ≤ n) : SameFront axis m t u := by
  refine ⟨h.shape, fun o ho => ?_⟩
  have htake : ∀ w : Tensor α, (w.block axis o).take (m * inner t.shape axis) =
      ((w.block axis o).take (n * inner t.shape axis)).take (m * inner t.shape axis) := by
    intro w
    rw [List.take_take, Nat.min_eq_left (Nat.mul_le_mul_right _ hle)]
  rw [htake t, htake u, h.block o ho]

/-- Indexing the first positions does not see the rest. -/
theorem narrow_eq {d : Nat} (h : SameFront axis n t u) (hd : t.shape[axis]? = some d)
    (hle : n ≤ d) : t.narrow axis 0 n = u.narrow axis 0 n := by
  have hdu : u.shape[axis]? = some d := by rw [← h.shape, hd]
  have hle' : 0 + n ≤ d := by omega
  have hshape : (t.slice axis 0 n).shape = (u.slice axis 0 n).shape := by
    rw [slice_shape hd hle', slice_shape hdu hle', h.shape]
  obtain ⟨hlt, -⟩ := List.getElem?_eq_some_iff.mp hd
  have hdn : (t.slice axis 0 n).shape[axis]? = some n := by
    rw [slice_shape hd hle']
    simp [hlt]
  rw [narrow_eq_slice hd hle', narrow_eq_slice hdu hle']
  refine congrArg _ (ext_blocks hshape hdn fun o ho => ?_)
  rw [slice_shape hd hle', outer_set] at ho
  rw [block_slice hd hle' ho, block_slice hdu hle' (by rw [← h.shape]; exact ho), ← h.shape,
    Nat.zero_mul, List.drop_zero, List.drop_zero]
  exact h.block o ho

end SameFront

theorem getElem?_of_source {t u : Tensor α} {axis d : Nat} (hd : t.shape[axis]? = some d)
    (h : u.shape = t.shape.set axis (u.shape.getD axis 0)) :
    u.shape[axis]? = some (u.shape.getD axis 0) := by
  obtain ⟨hlt, -⟩ := List.getElem?_eq_some_iff.mp hd
  rw [h]
  simp [List.getD, hlt]

theorem length_block_source {t u : Tensor α} {axis d o : Nat} (hd : t.shape[axis]? = some d)
    (h : u.shape = t.shape.set axis (u.shape.getD axis 0)) (ho : o < outer t.shape axis) :
    (u.block axis o).length = u.shape.getD axis 0 * inner t.shape axis := by
  have houter : outer u.shape axis = outer t.shape axis := by rw [h, outer_set]
  have hinner : inner u.shape axis = inner t.shape axis := by rw [h, inner_set]
  have hlen := length_block (getElem?_of_source hd h) (o := o) (by rw [houter]; exact ho)
  rwa [hinner] at hlen

/-- Writes a range of `axis` where the shapes allow it. -/
def overwrite (dst src : Tensor α) (axis offset : Nat) : Except CandleError (Tensor α) :=
  if axis < dst.shape.length ∧ src.shape = dst.shape.set axis (src.shape.getD axis 0) ∧
      offset + src.shape.getD axis 0 ≤ dst.shape.getD axis 0 then
    fromVec ((List.range (outer dst.shape axis)).flatMap fun o =>
      (dst.block axis o).take (offset * inner dst.shape axis) ++ src.block axis o ++
        (dst.block axis o).drop ((offset + src.shape.getD axis 0) * inner dst.shape axis)) dst.shape
  else .error (.shapeMismatch dst.shape src.shape)

/-- A block stays as long as it is. -/
theorem length_overwritten {dst src : Tensor α} {offset o : Nat} (hlt : axis < dst.shape.length)
    (hsource : src.shape = dst.shape.set axis (src.shape.getD axis 0))
    (hroom : offset + src.shape.getD axis 0 ≤ dst.shape.getD axis 0)
    (ho : o < outer dst.shape axis) :
    ((dst.block axis o).take (offset * inner dst.shape axis) ++ src.block axis o ++
      (dst.block axis o).drop ((offset + src.shape.getD axis 0) * inner dst.shape axis)).length =
      dst.shape.getD axis 0 * inner dst.shape axis := by
  have hd : dst.shape[axis]? = some (dst.shape.getD axis 0) := by simp [List.getD, hlt]
  have hblock := length_block hd ho
  have hsrc := length_block_source hd hsource ho
  have hfront : offset * inner dst.shape axis ≤ dst.shape.getD axis 0 * inner dst.shape axis :=
    Nat.mul_le_mul_right _ (by omega)
  have hwritten : (offset + src.shape.getD axis 0) * inner dst.shape axis ≤
      dst.shape.getD axis 0 * inner dst.shape axis := Nat.mul_le_mul_right _ hroom
  rw [List.length_append, List.length_append, List.length_take, List.length_drop, hblock, hsrc,
    Nat.min_eq_left hfront]
  rw [Nat.add_mul] at hwritten ⊢
  omega

theorem overwrite_room {dst src : Tensor α} {offset : Nat} (hlt : axis < dst.shape.length)
    (hsource : src.shape = dst.shape.set axis (src.shape.getD axis 0))
    (hroom : offset + src.shape.getD axis 0 ≤ dst.shape.getD axis 0) :
    ∃ dst', overwrite dst src axis offset = .ok dst' := by
  have hd : dst.shape[axis]? = some (dst.shape.getD axis 0) := by simp [List.getD, hlt]
  have hlength := length_flatMap_range (n := outer dst.shape axis) fun o ho =>
    length_overwritten hlt hsource hroom ho
  rw [← prod_split hd] at hlength
  unfold overwrite
  rw [if_pos ⟨hlt, hsource, hroom⟩]
  exact ⟨_, fromVec_ok hlength (by rw [hlength, ← dst.size]; exact dst.fits) dst.usize⟩

theorem writes_of_overwrite {dst src dst' : Tensor α} {offset : Nat}
    (h : overwrite dst src axis offset = .ok dst') : dst.Writes src axis offset dst' := by
  unfold overwrite at h
  split_ifs at h with hcond
  obtain ⟨hlt, hsource, hroom⟩ := hcond
  obtain ⟨hshape, hdata⟩ := fromVec_parts h
  have hd : dst.shape[axis]? = some (dst.shape.getD axis 0) := by simp [List.getD, hlt]
  refine ⟨hshape, hsource, hroom, fun o ho => ?_⟩
  rw [← hshape] at hd hdata ho ⊢
  refine block_of_data hd hdata (fun o ho => ?_) ho
  rw [hshape] at ho ⊢
  exact length_overwritten hlt hsource hroom ho

namespace Writes

variable {dst src dst' : Tensor α} {offset d : Nat} (hd : dst.shape[axis]? = some d)

include hd

/-- A write leaves everything before its offset alone. -/
theorem sameFront (h : Writes dst src axis offset dst') : SameFront axis offset dst dst' := by
  refine ⟨h.shape.symm, fun o ho => ?_⟩
  have hget : dst.shape.getD axis 0 = d := by simp [List.getD, hd]
  have hroom := h.room
  have hlen : ((dst.block axis o).take (offset * inner dst.shape axis)).length =
      offset * inner dst.shape axis := by
    rw [List.length_take, length_block hd ho, Nat.min_eq_left]
    exact Nat.mul_le_mul_right _ (by omega)
  rw [h.block o ho, List.append_assoc, List.take_append_of_le_length (by rw [hlen]), List.take_take,
    Nat.min_self]

end Writes

namespace Holds

variable {t u : Tensor α} {chunks : List (Tensor α)} {n d : Nat}

theorem empty (t : Tensor α) (axis : Nat) : Holds t axis [] 0 :=
  ⟨by simp, rfl, by simp, by simp⟩

theorem of_sameFront (h : Holds t axis chunks n) (hsame : SameFront axis n t u) :
    Holds u axis chunks n where
  chunk := by rw [← hsame.shape]; exact h.chunk
  length := h.length
  room := by rw [← hsame.shape]; exact h.room
  block := by
    intro o ho
    rw [← hsame.shape] at ho ⊢
    rw [← hsame.block o ho]
    exact h.block o ho

/-- Writing a chunk behind the others. -/
theorem write {src : Tensor α} (h : Holds t axis chunks n) (hd : t.shape[axis]? = some d)
    (hwrites : Writes t src axis n u) :
    Holds u axis (chunks ++ [src]) (n + src.shape.getD axis 0) where
  chunk := by
    intro c hc
    rw [hwrites.shape]
    rcases List.mem_append.mp hc with hc | hc
    · exact h.chunk c hc
    · rw [List.mem_singleton.mp hc]
      exact hwrites.source
  length := by
    rw [List.map_append, List.sum_append, ← h.length]
    simp
  room := by
    rw [hwrites.shape]
    exact hwrites.room
  block := by
    intro o ho
    rw [hwrites.shape] at ho ⊢
    have hget : t.shape.getD axis 0 = d := by simp [List.getD, hd]
    have hroom := hwrites.room
    have hlen : ((t.block axis o).take (n * inner t.shape axis)).length =
        n * inner t.shape axis := by
      rw [List.length_take, length_block hd ho, Nat.min_eq_left]
      exact Nat.mul_le_mul_right _ (by omega)
    have hsrc := length_block_source hd hwrites.source ho
    have htotal : ((t.block axis o).take (n * inner t.shape axis) ++ src.block axis o).length =
        (n + src.shape.getD axis 0) * inner t.shape axis := by
      rw [List.length_append, hlen, hsrc, Nat.add_mul]
    rw [hwrites.block o ho, ← htotal, List.take_left, h.block o ho, List.flatMap_append]
    simp

/-- The blocks of the first positions. -/
theorem block_slice_front (h : Holds t axis chunks n) (hd : t.shape[axis]? = some d) {o : Nat}
    (ho : o < outer t.shape axis) :
    (t.slice axis 0 n).block axis o = chunks.flatMap fun c => c.block axis o := by
  have hget : t.shape.getD axis 0 = d := by simp [List.getD, hd]
  have hroom := h.room
  rw [block_slice hd (by omega) ho, Nat.zero_mul, List.drop_zero, h.block o ho]

/-- What is held is the concatenation of the chunks. -/
theorem cat_eq (h : Holds t axis chunks n) (hd : t.shape[axis]? = some d) (hne : chunks ≠ []) :
    cat chunks axis = t.narrow axis 0 n := by
  have hget : t.shape.getD axis 0 = d := by simp [List.getD, hd]
  have hroom := h.room
  have hle : 0 + n ≤ d := by omega
  obtain ⟨hlt, -⟩ := List.getElem?_eq_some_iff.mp hd
  have hshape := slice_shape hd hle
  have hdn : (t.slice axis 0 n).shape[axis]? = some n := by
    rw [hshape]
    simp [hlt]
  have houter : outer (t.slice axis 0 n).shape axis = outer t.shape axis := by
    rw [hshape, outer_set]
  have hdata : (t.slice axis 0 n).data = (List.range (outer t.shape axis)).flatMap fun o =>
      chunks.flatMap fun c => c.block axis o := by
    rw [← flatMap_block hdn, houter]
    exact List.flatMap_congr fun o ho => h.block_slice_front hd (List.mem_range.mp ho)
  rw [narrow_eq_slice hd hle]
  rcases chunks with _ | ⟨c, _ | ⟨c', rest⟩⟩
  · exact absurd rfl hne
  · have hc := h.chunk c (by simp)
    have hn : c.shape.getD axis 0 = n := by
      rw [h.length]
      simp
    rw [hn] at hc
    have hdc : c.shape[axis]? = some n := by
      rw [hc]
      simp [hlt]
    refine congrArg Except.ok (ext_blocks (hc.trans hshape.symm) hdc fun o ho => ?_)
    rw [hc, outer_set] at ho
    rw [h.block_slice_front hd ho]
    simp
  · have hc := h.chunk c (by simp)
    have hsame : (c :: c' :: rest).find? (fun v => !sameExcept axis c.shape v.shape) = none := by
      rw [List.find?_eq_none]
      intro v hv
      rw [hc, h.chunk v hv]
      simp [sameExcept]
    have hset : c.shape.set axis ((c :: c' :: rest).map fun v => v.shape.getD axis 0).sum =
        (t.slice axis 0 n).shape := by
      rw [← h.length, hshape, hc, List.set_set]
    have hlen : ¬ c.shape.length ≤ axis := by
      rw [hc]
      simpa using hlt
    have houterC : outer c.shape axis = outer t.shape axis := by rw [hc, outer_set]
    simp only [cat]
    rw [if_neg hlen, hsame, hset, houterC, ← hdata]
    exact fromVec_self _

end Holds

end Dlir.Collectives.Tensor
