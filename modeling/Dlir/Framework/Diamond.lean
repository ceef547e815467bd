import Mathlib.Logic.Relation
import Mathlib.Tactic.ByContra

namespace Dlir.Framework

open Relation

variable {α : Type*} {step : α → α → Prop}

/-- `n` consecutive steps. -/
inductive Run (step : α → α → Prop) : Nat → α → α → Prop
  | nil (a : α) : Run step 0 a a
  | cons {n : Nat} {a b c : α} : step a b → Run step n b c → Run step (n + 1) a c

def Terminal (step : α → α → Prop) (a : α) : Prop := ∀ b, ¬ step a b

/-- Two steps from one state agree or are joined by one further step each. -/
def Diamond (step : α → α → Prop) : Prop :=
  ∀ a b c, step a b → step a c → b = c ∨ ∃ d, step b d ∧ step c d

/-- Every execution from `a` is finite, and every partial one can be completed to the
single final state `t`. -/
structure Settles (step : α → α → Prop) (a t : α) : Prop where
  final : Terminal step t
  bounded : ∃ n, ∀ m b, Run step m a b → m ≤ n
  completes : ∀ b, ReflTransGen step a b → ReflTransGen step b t

theorem Run.reaches {n : Nat} {a b : α} (h : Run step n a b) : ReflTransGen step a b := by
  induction h with
  | nil a => exact .refl
  | cons hs _ ih => exact .head hs ih

theorem exists_run {a b : α} (h : ReflTransGen step a b) : ∃ n, Run step n a b := by
  induction h using ReflTransGen.head_induction_on with
  | refl => exact ⟨0, .nil b⟩
  | head hs _ ih =>
    obtain ⟨n, hn⟩ := ih
    exact ⟨n + 1, .cons hs hn⟩

/-- Taking any step brings every state one step closer to its final state. -/
theorem Diamond.closer (hd : Diamond step) {n : Nat} {a b t : α} (ht : Terminal step t)
    (hr : Run step n a t) (hs : step a b) : ∃ m, n = m + 1 ∧ Run step m b t := by
  induction hr generalizing b with
  | nil a => exact absurd hs (ht b)
  | @cons n a c t hac hct ih =>
    refine ⟨n, rfl, ?_⟩
    rcases hd a b c hs hac with rfl | ⟨d, hbd, hcd⟩
    · exact hct
    · obtain ⟨m, rfl, hm⟩ := ih ht hcd
      exact .cons hbd hm

theorem Diamond.remaining (hd : Diamond step) {n m : Nat} {a b t : α} (ht : Terminal step t)
    (hr : Run step n a t) (hs : Run step m a b) : m ≤ n ∧ Run step (n - m) b t := by
  induction hs generalizing n with
  | nil a => exact ⟨Nat.zero_le n, hr⟩
  | @cons m a c b hac _ ih =>
    obtain ⟨k, rfl, hk⟩ := hd.closer ht hr hac
    obtain ⟨hle, hrun⟩ := ih hk
    refine ⟨by omega, ?_⟩
    rwa [show k + 1 - (m + 1) = k - m by omega]

/-- One complete execution decides the outcome of all of them. -/
theorem Diamond.settles (hd : Diamond step) {a t : α} (hr : ReflTransGen step a t)
    (ht : Terminal step t) : Settles step a t := by
  obtain ⟨n, hn⟩ := exists_run hr
  refine ⟨ht, ⟨n, fun m b hm => (hd.remaining ht hn hm).1⟩, ?_⟩
  intro b hb
  obtain ⟨m, hm⟩ := exists_run hb
  exact (hd.remaining ht hn hm).2.reaches

theorem Settles.progress {a b t : α} (h : Settles step a t) (hb : ReflTransGen step a b)
    (hne : b ≠ t) : ∃ c, step b c := by
  rcases ReflTransGen.cases_head (h.completes b hb) with he | ⟨c, hc, _⟩
  · exact absurd he hne
  · exact ⟨c, hc⟩

end Dlir.Framework
