import Mathlib.Data.List.Basic
import Mathlib.Data.List.Induction

namespace Dlir.Framework

variable {σ μ β : Type} {step : σ → μ → σ} {s : σ}

/-- A property that a state gets with certain messages and then keeps. -/
theorem foldl_once (holds : σ → Prop) (sets : μ → Prop)
    (hstep : ∀ s m, holds (step s m) ↔ holds s ∨ sets m) (ms : List μ) :
    holds (ms.foldl step s) ↔ holds s ∨ ∃ m ∈ ms, sets m := by
  induction ms generalizing s with
  | nil => simp
  | cons m ms ih =>
    rw [List.foldl_cons, ih, hstep]
    simp only [List.exists_mem_cons_iff, or_assoc]

/-- A slot that messages overwrite holds what was written last. -/
theorem foldl_last (slot : σ → Option β) (writes : μ → Option β)
    (hstep : ∀ s m, slot (step s m) = (writes m).or (slot s)) (ms : List μ) :
    slot (ms.foldl step s) = (ms.filterMap writes).getLast?.or (slot s) := by
  induction ms generalizing s with
  | nil => rfl
  | cons m ms ih =>
    rw [List.foldl_cons, ih, hstep, List.filterMap_cons]
    cases writes m with
    | none => rfl
    | some b =>
      rw [List.getLast?_cons]
      cases (ms.filterMap writes).getLast? with
      | none => rfl
      | some c => rfl

theorem foldl_count (counter : σ → Nat) (counts : μ → Bool)
    (hstep : ∀ s m, counter (step s m) = counter s + (counts m).toNat) (ms : List μ) :
    counter (ms.foldl step s) = counter s + ms.countP counts := by
  induction ms generalizing s with
  | nil => rfl
  | cons m ms ih =>
    rw [List.foldl_cons, ih, hstep, List.countP_cons]
    cases counts m with
    | false => simp
    | true => simp; omega

/-- A state that stays clean as long as every message fits what came before it. -/
theorem foldl_clean_iff (clean : σ → Prop) (fits : List μ → μ → Prop) {ms : List μ}
    (hstart : clean s)
    (hstep : ∀ past m, past ++ [m] <+: ms →
      (clean (step (past.foldl step s) m) ↔ clean (past.foldl step s) ∧ fits past m)) :
    clean (ms.foldl step s) ↔ ∀ past m, past ++ [m] <+: ms → fits past m := by
  induction ms using List.reverseRecOn with
  | nil =>
    have hnone : ∀ (past : List μ) (m : μ), ¬ past ++ [m] <+: [] := by simp
    exact iff_of_true hstart fun past m h => absurd h (hnone past m)
  | append_singleton ms m ih =>
    have hshort : ∀ past m', past ++ [m'] <+: ms → past ++ [m'] <+: ms ++ [m] :=
      fun past m' h => h.trans (List.prefix_append _ _)
    rw [List.foldl_append, List.foldl_cons, List.foldl_nil, hstep ms m List.prefix_rfl,
      ih fun past m' h => hstep past m' (hshort past m' h)]
    constructor
    · intro h past m' hpast
      rcases List.prefix_concat_iff.mp hpast with heq | hlt
      · obtain ⟨hpast, hm⟩ := List.append_inj' heq rfl
        rw [hpast, List.head_eq_of_cons_eq hm]
        exact h.2
      · exact h.1 past m' hlt
    · intro h
      exact ⟨fun past m' hpast => h past m' (hshort past m' hpast), h ms m List.prefix_rfl⟩

theorem forall_past_iff (good : μ → Prop) (ms : List μ) :
    (∀ past m, past ++ [m] <+: ms → good m) ↔ ∀ m ∈ ms, good m := by
  constructor
  · intro h m hm
    obtain ⟨past, later, rfl⟩ := List.append_of_mem hm
    exact h past m ⟨later, by simp⟩
  · intro h past m hpast
    exact h m (hpast.subset (by simp))

/-- A condition on the readings of each message and on how many came before, over the list of
readings. -/
theorem forall_readings_iff (reads : μ → Option β) (good : Nat → β → Prop) (ms : List μ) :
    (∀ past m, past ++ [m] <+: ms →
      ∀ b, reads m = some b → good (past.filterMap reads).length b) ↔
    ∀ i b, (ms.filterMap reads)[i]? = some b → good i b := by
  induction ms using List.reverseRecOn with
  | nil => simp
  | append_singleton ms m ih =>
    have hsplit : ∀ past m', past ++ [m'] <+: ms ++ [m] ↔
        (past = ms ∧ m' = m) ∨ past ++ [m'] <+: ms := by
      intro past m'
      rw [List.prefix_concat_iff]
      simp
    simp only [hsplit, or_imp, forall_and, ih, and_imp, forall_eq_apply_imp_iff, forall_eq]
    rw [List.filterMap_append]
    constructor
    · intro h i b hb
      rw [List.getElem?_append] at hb
      split_ifs at hb with hi
      · exact h.2 i b hb
      · cases hm : reads m with
        | none => simp [hm] at hb
        | some c =>
          rw [show [m].filterMap reads = [c] by simp [hm]] at hb
          obtain ⟨hi', hb'⟩ := List.getElem?_eq_some_iff.mp hb
          have hi0 : i = (ms.filterMap reads).length := by
            simp at hi'
            omega
          subst hi0
          simp at hb'
          exact h.1 b (hm.trans (congrArg some hb'))
    · intro h
      refine ⟨fun b hb => h _ b ?_, fun i b hb => h i b ?_⟩
      · rw [show [m].filterMap reads = [b] by simp [hb]]
        simp
      · rw [List.getElem?_append_left]
        · exact hb
        · exact (List.getElem?_eq_some_iff.mp hb).1

end Dlir.Framework
