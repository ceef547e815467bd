import Dlir.Collectives.PointToPoint
import Dlir.Collectives.Sum
import Dlir.Collectives.Tags

namespace Dlir.Collectives

open Dlir.Framework Dlir.Math

variable {world : Nat} {α ω β : Type}

theorem requireSameShape_ok {a b : Tensor α} {kind : CollectiveKind} (h : a.shape = b.shape) :
    requireSameShape a b kind = .ok () := by
  simp [requireSameShape, h]

/-- A loop over the peers of rank 0. -/
theorem foldlM_peers [NeZero world] {m : Type → Type} [Monad m] (f : β → Nat → m β) (b : β) :
    (List.range' 1 (world - 1)).foldlM f b =
      (others (0 : Rank world)).foldlM (fun b i => f b i.val) b := by
  rw [← map_val_others_zero, List.foldlM_map]

/-- A loop over all ranks that skips the root. -/
theorem foldlM_skip {m : Type → Type} [Monad m] [LawfulMonad m] (root : Rank world)
    (f : β → Nat → m β) (b : β) :
    (List.range world).foldlM (fun b i => if i ≠ root.val then f b i else pure b) b =
      (others root).foldlM (fun b i => f b i.val) b := by
  rw [← map_val_finRange, List.foldlM_map, others, List.foldlM_filter]
  congr 1
  funext b i
  by_cases h : i = root
  · simp [h]
  · have hv : i.val ≠ root.val := fun hv => h (Fin.ext hv)
    simp [h, hv]

/-- Folding a pair whose second half counts. -/
theorem foldl_count (op : β → Rank world → β) (size : Rank world → Nat) (is : List (Rank world))
    (b : β) (n : Nat) :
    is.foldl (fun (acc : β × Nat) i => (op acc.1 i, acc.2 + size i)) (b, n) =
      (is.foldl op b, n + (is.map size).sum) := by
  induction is generalizing b n with
  | nil => rfl
  | cons i is ih => simp [ih, Nat.add_assoc]

namespace Group

variable {g : Group world ω} {root : Rank world} {kind : CollectiveKind} {tag : MessageTag}

section Accumulate

variable [Add α] {x : Rank world → Tensor α} {shape : List Nat}
  (hx : ∀ r, (x r).shape = shape) (hs : ∀ r, (x r).Sendable)

include hx hs

theorem accumulate_plays {s : Rank world} (hne : s ≠ root) {acc : Tensor α × Nat}
    (hacc : acc.1.shape = shape) :
    PlaysOk [.get s (tensorFrame s root tag (x s))]
      ((g.endpoint root).accumulate kind tag (x root) acc s.val) ([] : List ω)
      (acc.1.plus (x s), acc.2 + (x s).bytes) := by
  refine (Endpoint.recv_plays (g.endpoint root) hne (hs s)).andLast ?_
  refine (playsOk_liftExcept (requireSameShape_ok ((hx root).trans (hx s).symm))).andThen ?_
  refine (playsOk_liftExcept (Tensor.add_eq_plus (hacc.trans (hx s).symm))).andThen ?_
  exact .pure _

/-- The root adds up the tensors of its peers in rank order. -/
theorem accumulateLoop_plays :
    PlaysOk ((others root).map fun s => .get s (tensorFrame s root tag (x s)))
      ((others root).foldlM (fun acc s =>
        (g.endpoint root).accumulate kind tag (x root) acc s.val) (x root, 0)) ([] : List ω)
      (rootFold Tensor.plus root x, ((others root).map fun s => (x s).bytes).sum) := by
  have hloop := PlaysOk.foldlM (ω := ω) (f := fun acc s =>
      (g.endpoint root).accumulate kind tag (x root) acc s.val)
    (fun acc s => (acc.1.plus (x s), acc.2 + (x s).bytes))
    (fun s => .get s (tensorFrame s root tag (x s)))
    (fun acc : Tensor α × Nat => acc.1.shape = shape) (l := others root)
    (fun acc hacc s hmem => ⟨accumulate_plays hx hs (mem_others.mp hmem) hacc, by simp [hacc]⟩)
    (b := (x root, 0)) (hx root)
  have hcount := foldl_count (fun acc s => acc.plus (x s)) (fun s => (x s).bytes) (others root)
    (x root) 0
  rw [hcount, Nat.zero_add] at hloop
  exact hloop

end Accumulate

/-- The root sends one tensor to each of its peers. -/
theorem sendLoop_plays {t : Rank world → Tensor α} {shard : Nat → Except CandleError (Tensor α)}
    (hshard : ∀ d, d ≠ root → shard d.val = .ok (t d)) (hs : ∀ d, d ≠ root → (t d).Sendable) :
    PlaysOk ((others root).map fun d => .put d (tensorFrame root d tag (t d)))
      ((others root).foldlM (fun sent d => (g.endpoint root).sendEach tag shard sent d.val) 0)
      ([] : List ω) ((others root).map fun d => (t d).bytes).sum := by
  have hstep : ∀ sent, ∀ d ∈ others root,
      PlaysOk [.put d (tensorFrame root d tag (t d))]
        ((g.endpoint root).sendEach tag shard sent d.val) ([] : List ω)
        (sent + (t d).bytes) := by
    intro sent d hd
    have hne := mem_others.mp hd
    refine (playsOk_liftExcept (hshard d hne)).andThen ?_
    exact (Endpoint.send_plays (g.endpoint root) hne (hs d hne)).andLast (.pure _)
  have hloop := PlaysOk.foldlM (ω := ω) _ _ (fun _ => True)
    (fun sent _ d hd => ⟨hstep sent d hd, trivial⟩) (b := 0) trivial
  have hsum : (others root).foldl (fun sent d => sent + (t d).bytes) 0 =
      ((others root).map fun d => (t d).bytes).sum := by
    rw [List.sum_eq_foldl, List.foldl_map]
  rw [hsum] at hloop
  exact hloop

end Group

end Dlir.Collectives
