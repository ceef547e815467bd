import Mathlib.Algebra.BigOperators.Group.Finset.Basic
import Mathlib.Algebra.BigOperators.Group.Finset.Piecewise
import Mathlib.Data.Fintype.Basic
import Mathlib.Data.List.Basic
import Mathlib.Tactic.Ring

namespace Dlir.Framework

variable {ι α β : Type} [DecidableEq ι]

/-- What one of the merged streams contributed to a merged sequence. -/
def fromStream (i : ι) (merged : List (ι × α)) : List α :=
  (merged.filter fun entry => entry.1 = i).map Prod.snd

/-- A sequence that merges the streams and keeps the order of each. -/
def Interleaves (streams : ι → List α) (merged : List (ι × α)) : Prop :=
  ∀ i, fromStream i merged = streams i

instance [Fintype ι] [DecidableEq α] (streams : ι → List α) (merged : List (ι × α)) :
    Decidable (Interleaves streams merged) :=
  inferInstanceAs (Decidable (∀ i, fromStream i merged = streams i))

@[simp]
theorem fromStream_nil (i : ι) : fromStream i ([] : List (ι × α)) = [] := rfl

theorem fromStream_cons (i : ι) (entry : ι × α) (merged : List (ι × α)) :
    fromStream i (entry :: merged) =
      if entry.1 = i then entry.2 :: fromStream i merged else fromStream i merged := by
  unfold fromStream
  by_cases h : entry.1 = i
  · simp [h]
  · simp [h]

@[simp]
theorem fromStream_append (i : ι) (merged merged' : List (ι × α)) :
    fromStream i (merged ++ merged') = fromStream i merged ++ fromStream i merged' := by
  simp [fromStream]

theorem fromStream_flatMap (i : ι) (xs : List β) (f : β → List (ι × α)) :
    fromStream i (xs.flatMap f) = xs.flatMap fun x => fromStream i (f x) := by
  induction xs with
  | nil => rfl
  | cons x xs ih => rw [List.flatMap_cons, List.flatMap_cons, fromStream_append, ih]

/-- Only the part of one of the elements is not empty. -/
theorem flatMap_ite_eq {xs : List ι} (hnodup : xs.Nodup) {i : ι} (hi : i ∈ xs) (f : ι → List α) :
    (xs.flatMap fun j => if j = i then f j else []) = f i := by
  induction xs with
  | nil => cases hi
  | cons j xs ih =>
    obtain ⟨hj, hnodup⟩ := List.nodup_cons.mp hnodup
    rw [List.flatMap_cons]
    by_cases h : j = i
    · have hrest : (xs.flatMap fun k => if k = i then f k else []) = [] := by
        rw [List.flatMap_eq_nil_iff]
        intro k hk
        have hne : k ≠ i := fun hki => hj (h ▸ hki ▸ hk)
        rw [if_neg hne]
      rw [hrest, if_pos h, h, List.append_nil]
    · have hmem : i ∈ xs := (List.mem_cons.mp hi).resolve_left fun hij => h hij.symm
      rw [if_neg h, List.nil_append, ih hnodup hmem]

theorem mem_fromStream {i : ι} {a : α} {merged : List (ι × α)} :
    a ∈ fromStream i merged ↔ (i, a) ∈ merged := by
  simp only [fromStream, List.mem_map, List.mem_filter, decide_eq_true_eq]
  constructor
  · rintro ⟨⟨j, b⟩, ⟨hmem, rfl⟩, rfl⟩
    exact hmem
  · intro h
    exact ⟨(i, a), ⟨h, rfl⟩, rfl⟩

/-- A reading of the entries that sees one stream only can be taken on that stream. -/
theorem filterMap_eq_fromStream {f : α → Option β} {i : ι} {merged : List (ι × α)}
    (h : ∀ entry ∈ merged, entry.1 ≠ i → f entry.2 = none) :
    merged.filterMap (fun entry => f entry.2) = (fromStream i merged).filterMap f := by
  induction merged with
  | nil => rfl
  | cons entry merged ih =>
    have hrest := ih fun e he => h e (List.mem_cons_of_mem _ he)
    rw [fromStream_cons]
    split_ifs with hi
    · rw [List.filterMap_cons, List.filterMap_cons, hrest]
    · rw [List.filterMap_cons, h entry List.mem_cons_self hi, hrest]

theorem countP_eq_fromStream {p : α → Bool} {i : ι} {merged : List (ι × α)}
    (h : ∀ entry ∈ merged, entry.1 ≠ i → p entry.2 = false) :
    merged.countP (fun entry => p entry.2) = (fromStream i merged).countP p := by
  induction merged with
  | nil => rfl
  | cons entry merged ih =>
    have hrest := ih fun e he => h e (List.mem_cons_of_mem _ he)
    rw [fromStream_cons, List.countP_cons, hrest]
    split_ifs with hp hi hi
    · rw [List.countP_cons, if_pos hp]
    · rw [h entry List.mem_cons_self hi] at hp
      cases hp
    · rw [List.countP_cons, if_neg hp]
    · rfl

/-- A sum over a merged sequence, stream by stream. -/
theorem sum_fromStream (f : α → Nat) {s : Finset ι} {merged : List (ι × α)}
    (h : ∀ entry ∈ merged, entry.1 ∈ s) :
    (merged.map fun entry => f entry.2).sum = ∑ i ∈ s, ((fromStream i merged).map f).sum := by
  induction merged with
  | nil => exact (Finset.sum_eq_zero fun i _ => rfl).symm
  | cons entry merged ih =>
    have hrest := ih fun e he => h e (List.mem_cons_of_mem _ he)
    have hfirst : ∀ i, ((fromStream i (entry :: merged)).map f).sum =
        (if entry.1 = i then f entry.2 else 0) + ((fromStream i merged).map f).sum := by
      intro i
      rw [fromStream_cons]
      split_ifs
      · rw [List.map_cons, List.sum_cons]
      · rw [Nat.zero_add]
    simp only [List.map_cons, List.sum_cons, hfirst, Finset.sum_add_distrib, hrest]
    rw [Finset.sum_ite_eq, if_pos (h entry List.mem_cons_self)]

section Confluence

variable {σ : Type} {step : σ → ι × α → σ}
  (hcomm : ∀ s e e', e.1 ≠ e'.1 → step (step s e) e' = step (step s e') e)

include hcomm

omit [DecidableEq ι] in
/-- An entry can be taken before entries of other streams. -/
theorem foldl_ahead {e : ι × α} {before : List (ι × α)} (h : ∀ e' ∈ before, e'.1 ≠ e.1) (s : σ) :
    step (before.foldl step s) e = before.foldl step (step s e) := by
  induction before generalizing s with
  | nil => rfl
  | cons e' before ih =>
    have hne : e'.1 ≠ e.1 := h e' List.mem_cons_self
    have hrest : ∀ e'' ∈ before, e''.1 ≠ e.1 := fun e'' he'' => h e'' (List.mem_cons_of_mem _ he'')
    rw [List.foldl_cons, List.foldl_cons, ih hrest, hcomm s e' e hne]

/-- Where steps for different streams commute, only the order within each stream matters. -/
theorem foldl_eq_of_fromStream {merged merged' : List (ι × α)}
    (h : ∀ i, fromStream i merged = fromStream i merged') (s : σ) :
    merged.foldl step s = merged'.foldl step s := by
  induction merged generalizing merged' s with
  | nil =>
    have hnil : merged' = [] := by
      rw [List.eq_nil_iff_forall_not_mem]
      rintro ⟨i, a⟩ hmem
      have ha := mem_fromStream.mpr hmem
      rw [← h i] at ha
      cases ha
    rw [hnil]
  | cons e merged ih =>
    have hfirst : e ∈ merged' := by
      have ha : e.2 ∈ fromStream e.1 merged' := by
        rw [← h e.1, fromStream_cons, if_pos rfl]
        exact List.mem_cons_self
      exact mem_fromStream.mp ha
    -- the first entry of this stream in the other sequence is the same one
    obtain ⟨before, e', after, hsplit, hbefore, hstream⟩ : ∃ before e' after,
        merged' = before ++ e' :: after ∧ (∀ x ∈ before, x.1 ≠ e.1) ∧ e'.1 = e.1 := by
      obtain ⟨e', hfind⟩ : ∃ e', merged'.find? (fun x => x.1 = e.1) = some e' := by
        rw [← Option.isSome_iff_exists, List.find?_isSome]
        exact ⟨e, hfirst, by simp⟩
      obtain ⟨he', before, after, hsplit, hbefore⟩ := List.find?_eq_some_iff_append.mp hfind
      exact ⟨before, e', after, hsplit, fun x hx => by simpa using hbefore x hx, by simpa using he'⟩
    have hnone : fromStream e.1 before = [] := by
      rw [List.eq_nil_iff_forall_not_mem]
      intro a ha
      exact hbefore _ (mem_fromStream.mp ha) rfl
    have hsame : e' = e ∧ fromStream e.1 merged = fromStream e.1 after := by
      have hi := h e.1
      rw [hsplit, fromStream_append, hnone, fromStream_cons, fromStream_cons, if_pos rfl,
        if_pos hstream] at hi
      obtain ⟨ha, hrest⟩ := List.cons.inj hi
      exact ⟨Prod.ext hstream ha.symm, hrest⟩
    obtain ⟨rfl, hrest⟩ := hsame
    rw [hsplit, List.foldl_append, List.foldl_cons, List.foldl_cons, foldl_ahead hcomm hbefore,
      ← List.foldl_append]
    refine ih (fun i => ?_) _
    by_cases hi : e'.1 = i
    · subst hi
      rw [hrest, fromStream_append, hnone, List.nil_append]
    · have hother := h i
      rw [hsplit, fromStream_append, fromStream_cons, fromStream_cons, if_neg hi, if_neg hi] at hother
      rw [hother, fromStream_append]

end Confluence

namespace Interleaves

variable {streams : ι → List α} {merged taken rest : List (ι × α)}

theorem mem {i : ι} {a : α} (h : Interleaves streams merged) :
    (i, a) ∈ merged ↔ a ∈ streams i := by
  rw [← mem_fromStream, h i]

/-- What a front part of the merged sequence has of a stream is a front part of the stream. -/
theorem front (h : Interleaves streams (taken ++ rest)) (i : ι) :
    fromStream i taken <+: streams i := by
  rw [← h i, fromStream_append]
  exact List.prefix_append _ _

/-- Once the last entry of a stream has been read, so has all of the stream. -/
theorem complete {i : ι} {body : List α} {last : α} (h : Interleaves streams (taken ++ rest))
    (hstream : streams i = body ++ [last]) (hlast : last ∉ body) (hmem : (i, last) ∈ taken) :
    fromStream i taken = streams i := by
  obtain ⟨tail, htail⟩ := h.front i
  have hmem' := mem_fromStream.mpr hmem
  rcases List.eq_nil_or_concat tail with hnil | ⟨tail', b, hconcat⟩
  · rw [← htail, hnil, List.append_nil]
  · rw [hstream, hconcat, List.concat_eq_append, ← List.append_assoc] at htail
    have hbody := (List.append_inj' htail rfl).1
    have : last ∈ body := by
      rw [← hbody]
      exact List.mem_append_left _ hmem'
    exact absurd this hlast

end Interleaves

end Dlir.Framework
