import Dlir.Framework.Schedule
import Mathlib.Data.Fintype.Basic

namespace Dlir.Framework

open Relation

variable {ι μ ω α : Type}

/-- The programs and observations of a world in which nothing is in flight. -/
structure Snapshot (ι μ ω α : Type) where
  proc : ι → Proc ι μ ω α
  log : ι → List ω

def Snapshot.world (s : Snapshot ι μ ω α) (box : Mailbox ι μ) : World box ω α :=
  ⟨s.proc, fun _ => box.empty, fun _ _ => [], s.log⟩

variable [DecidableEq ι]

/-- Lockstep execution: a message is sent only when its receiver is waiting for it. -/
inductive Meet : Snapshot ι μ ω α → Snapshot ι μ ω α → Prop
  | comm {s : Snapshot ι μ ω α} {i j : ι} {m : μ} {p : Proc ι μ ω α} {sel : Selector μ}
      {k : μ → Proc ι μ ω α} : i ≠ j → (s.proc i).outgoing = some (j, m, p) →
      (s.proc j).incoming = some (i, sel, k) → sel.fresh m = true →
      Meet s ⟨Function.update (Function.update s.proc i p) j (k m), s.log⟩
  | emit {s : Snapshot ι μ ω α} {i : ι} {o : ω} {p : Proc ι μ ω α} : s.proc i = .emit o p →
      Meet s ⟨Function.update s.proc i p, Function.update s.log i (s.log i ++ [o])⟩

abbrev Meets : Snapshot ι μ ω α → Snapshot ι μ ω α → Prop := ReflTransGen Meet

theorem setChan_nil (i j : ι) : setChan (fun _ _ => ([] : List μ)) i j [] = fun _ _ => [] := by
  funext a b
  simp [setChan_apply]

/-- A lockstep step is possible whatever the channels can hold. -/
theorem Meet.steps {s t : Snapshot ι μ ω α} (h : Meet s t) (box : Mailbox ι μ) (cap : ℕ∞) :
    ReflTransGen (Step cap) (s.world box) (t.world box) := by
  cases h with
  | @comm i j m p sel k hne ho hi hf =>
    have hr : Receives box i (s.proc j) box.empty [m] (k m) box.empty [] :=
      .fresh hi (box.take_empty i sel.stored) hf
    have hmail : Function.update (fun _ : ι => box.empty) j box.empty = fun _ => box.empty :=
      Function.update_eq_self j _
    by_cases hz : cap = 0
    · have hfire : Fire cap (.hand i) (s.world box) _ := Fire.hand hz hne rfl ho hr
      refine .single ⟨.hand i, ?_⟩
      simpa [Snapshot.world, hmail] using hfire
    · have hroom : ((([] : List μ).length : ℕ) : ℕ∞) < cap := by
        simpa using pos_iff_ne_zero.mpr hz
      have hsend : Fire cap (.send i) (s.world box) _ := Fire.send ho hroom
      refine .head ⟨.send i, hsend⟩ (.single ⟨.recv j, ?_⟩)
      have hr' : Receives box i (Function.update s.proc i p j) box.empty
          (setChan (fun _ _ => []) i j ([] ++ [m]) i j) (k m) box.empty [] := by
        rw [setChan_self, Function.update_of_ne hne.symm]
        exact hr
      have hrecv : Fire cap (.recv j) (⟨Function.update s.proc i p, fun _ => box.empty,
          setChan (fun _ _ => []) i j ([] ++ [m]), s.log⟩ : World box ω α) _ := Fire.recv hr'
      simpa [Snapshot.world, hmail, setChan_setChan, setChan_nil] using hrecv
  | @emit i o p he => exact .single ⟨.emit i, Fire.emit he⟩

theorem Meets.steps {s t : Snapshot ι μ ω α} (h : Meets s t) (box : Mailbox ι μ) (cap : ℕ∞) :
    ReflTransGen (Step cap) (s.world box) (t.world box) := by
  induction h with
  | refl => exact .refl
  | tail _ hs ih => exact ih.trans (hs.steps box cap)

theorem terminal_of_ret {box : Mailbox ι μ} {cap : ℕ∞} {w : World box ω α}
    (h : ∀ i, ∃ a, w.proc i = .ret a) : Terminal (Step cap) w := by
  rintro w' ⟨l, hf⟩
  cases hf with
  | @send _ i _ _ _ ho _ => obtain ⟨a, ha⟩ := h i; simp [ha, Proc.outgoing] at ho
  | @recv _ i _ _ _ _ hr =>
    obtain ⟨a, ha⟩ := h i
    obtain ⟨sel, k, hi⟩ := hr.source
    simp [ha, Proc.incoming] at hi
  | @hand _ i _ _ _ _ _ _ _ _ ho _ => obtain ⟨a, ha⟩ := h i; simp [ha, Proc.outgoing] at ho
  | @emit _ i _ _ he => obtain ⟨a, ha⟩ := h i; simp [ha] at he

/-- Endpoints that have returned or wait on an empty channel are stuck. -/
theorem Snapshot.terminal {s : Snapshot ι μ ω α} {box : Mailbox ι μ} {cap : ℕ∞}
    (h : ∀ i, (∃ a, s.proc i = .ret a) ∨ ∃ src sel k, s.proc i = .recv src sel k) :
    Terminal (Step cap) (s.world box) := by
  have hout : ∀ i, (s.proc i).outgoing = none := by
    intro i
    rcases h i with ⟨a, ha⟩ | ⟨src, sel, k, hk⟩
    · rw [ha]; rfl
    · rw [hk]; rfl
  rintro w' ⟨l, hf⟩
  cases hf with
  | @send _ i _ _ _ ho _ => exact absurd (ho.symm.trans (hout i)) (by simp)
  | @recv _ i j _ _ _ hr =>
    generalize hms : (s.world box).chan j i = ms at hr
    cases hr with
    | stored hi ht =>
      have hempty := box.take_empty j
      exact absurd (ht.symm.trans (hempty _)) (by simp)
    | fresh hi ht hf => cases hms
    | parked hi ht hf => cases hms
  | @hand _ i _ _ _ _ _ _ _ _ ho _ => exact absurd (ho.symm.trans (hout i)) (by simp)
  | @emit _ i _ _ he =>
    have he' : s.proc i = .emit _ _ := he
    rcases h i with ⟨a, ha⟩ | ⟨src, sel, k, hk⟩
    · cases ha.symm.trans he'
    · cases hk.symm.trans he'

/-- A lockstep execution to the end decides every execution, for every channel capacity. -/
theorem Meets.settles {s t : Snapshot ι μ ω α} (h : Meets s t)
    (ht : ∀ i, ∃ a, t.proc i = .ret a) (box : Mailbox ι μ) (cap : ℕ∞) :
    Settles (Step cap) (s.world box) (t.world box) :=
  step_diamond.settles (h.steps box cap) (terminal_of_ret ht)

theorem Step.log_prefix {box : Mailbox ι μ} {cap : ℕ∞} {w w' : World box ω α}
    (h : Step cap w w') (i : ι) : w.log i <+: w'.log i := by
  obtain ⟨l, hf⟩ := h
  cases hf with
  | send _ _ => exact List.prefix_refl _
  | recv _ => exact List.prefix_refl _
  | hand _ _ _ _ _ => exact List.prefix_refl _
  | @emit _ j o p _ =>
    by_cases hij : i = j
    · subst hij
      simp
    · simp [Function.update_of_ne hij]

/-- Observations are never withdrawn. -/
theorem log_prefix {box : Mailbox ι μ} {cap : ℕ∞} {w w' : World box ω α}
    (h : ReflTransGen (Step cap) w w') (i : ι) : w.log i <+: w'.log i := by
  induction h with
  | refl => exact List.prefix_refl _
  | tail _ hs ih => exact ih.trans (hs.log_prefix i)

theorem Step.ret_stays {box : Mailbox ι μ} {cap : ℕ∞} {w w' : World box ω α}
    (h : Step cap w w') {i : ι} {a : α} (ha : w.proc i = .ret a) : w'.proc i = .ret a := by
  obtain ⟨l, hf⟩ := h
  cases hf with
  | @send _ j _ _ _ ho _ =>
    have hij : i ≠ j := by rintro rfl; simp [ha, Proc.outgoing] at ho
    simpa [Function.update_of_ne hij] using ha
  | @recv _ j _ _ _ _ hr =>
    have hij : i ≠ j := by
      rintro rfl
      obtain ⟨sel, k, hi⟩ := hr.source
      simp [ha, Proc.incoming] at hi
    simpa [Function.update_of_ne hij] using ha
  | @hand _ j j' _ _ _ _ _ _ _ ho hr =>
    have hij : i ≠ j := by rintro rfl; simp [ha, Proc.outgoing] at ho
    have hij' : i ≠ j' := by
      rintro rfl
      obtain ⟨sel, k, hi⟩ := hr.source
      simp [ha, Proc.incoming] at hi
    simpa [Function.update_of_ne hij, Function.update_of_ne hij'] using ha
  | @emit _ j _ _ he =>
    have hij : i ≠ j := by rintro rfl; simp [ha] at he
    simpa [Function.update_of_ne hij] using ha

/-- A program that has returned keeps its result. -/
theorem ret_stays {box : Mailbox ι μ} {cap : ℕ∞} {w w' : World box ω α}
    (h : ReflTransGen (Step cap) w w') {i : ι} {a : α} (ha : w.proc i = .ret a) :
    w'.proc i = .ret a := by
  induction h with
  | refl => exact ha
  | tail _ hs ih => exact hs.ret_stays ih

/-- A program that has returned observes nothing more. -/
theorem log_stays {box : Mailbox ι μ} {cap : ℕ∞} {w w' : World box ω α}
    (h : ReflTransGen (Step cap) w w') {i : ι} {a : α} (ha : w.proc i = .ret a) :
    w'.log i = w.log i := by
  induction h with
  | refl => rfl
  | @tail w' w'' hrun hs ih =>
    have hret := ret_stays hrun ha
    obtain ⟨l, hf⟩ := hs
    cases hf with
    | send _ _ => exact ih
    | recv _ => exact ih
    | hand _ _ _ _ _ => exact ih
    | @emit _ j o p hp =>
      have hij : i ≠ j := by
        rintro rfl
        rw [hret] at hp
        cases hp
      rw [← ih]
      exact Function.update_of_ne hij _ _

end Dlir.Framework
