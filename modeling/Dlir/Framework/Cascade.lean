import Mathlib.Data.List.Forall2
import Mathlib.Tactic.Common

namespace Dlir.Framework

variable {β χ κ ε τ : Type}

/-- Passes a value through some layers, each with a state of its own, up to the first failure. -/
def cascade (f : β → χ → κ → Except ε χ × κ) : List β → χ → List κ → Except ε χ × List κ
  | layer :: layers, x, k :: ks =>
    match f layer x k with
    | (.ok y, k') => ((cascade f layers y ks).1, k' :: (cascade f layers y ks).2)
    | (.error e, k') => (.error e, k' :: ks)
  | _, x, ks => (.ok x, ks)

variable {f : β → χ → κ → Except ε χ × κ} {layers layers' : List β} {x : χ} {ks ks' : List κ}

theorem cascade_cons_ok {layer : β} {k k' : κ} {y : χ} (h : f layer x k = (.ok y, k')) :
    cascade f (layer :: layers) x (k :: ks) =
      ((cascade f layers y ks).1, k' :: (cascade f layers y ks).2) := by
  rw [cascade, h]

theorem cascade_cons_error {layer : β} {k k' : κ} {e : ε} (h : f layer x k = (.error e, k')) :
    cascade f (layer :: layers) x (k :: ks) = (.error e, k' :: ks) := by
  rw [cascade, h]

theorem length_cascade : (cascade f layers x ks).2.length = ks.length := by
  induction layers generalizing x ks with
  | nil => rfl
  | cons layer layers ih =>
    cases ks with
    | nil => rfl
    | cons k ks =>
      rcases hf : f layer x k with ⟨r, k'⟩
      cases r with
      | ok y => rw [cascade_cons_ok hf, List.length_cons, List.length_cons, ih]
      | error e => rw [cascade_cons_error hf, List.length_cons, List.length_cons]

/-- What every layer preserves, all of them preserve. -/
theorem cascade_preserves {P : χ → Prop} (hf : ∀ layer x k y k', f layer x k = (.ok y, k') → P x → P y)
    (hx : P x) {y : χ} (h : (cascade f layers x ks).1 = .ok y) : P y := by
  induction layers generalizing x ks with
  | nil =>
    obtain rfl := Except.ok.inj h
    exact hx
  | cons layer layers ih =>
    cases ks with
    | nil =>
      obtain rfl := Except.ok.inj h
      exact hx
    | cons k ks =>
      rcases hr : f layer x k with ⟨r, k'⟩
      cases r with
      | ok z =>
        rw [cascade_cons_ok hr] at h
        exact ih (hf layer x k z k' hr hx) h
      | error e =>
        rw [cascade_cons_error hr] at h
        cases h

/-- What every layer does to its state, if all of them succeed. -/
theorem cascade_forall₂ {P : χ → Prop} {R R' : β → κ → Prop}
    (hf : ∀ layer x k, R layer k → P x →
      R' layer (f layer x k).2 ∧ ∀ y, (f layer x k).1 = .ok y → P y)
    (h : List.Forall₂ R layers ks) (hx : P x) {y : χ} (hy : (cascade f layers x ks).1 = .ok y) :
    List.Forall₂ R' layers (cascade f layers x ks).2 := by
  induction h generalizing x with
  | nil => exact .nil
  | @cons layer k layers ks hk _ ih =>
    obtain ⟨hlast, hnext⟩ := hf layer x k hk hx
    rcases hr : f layer x k with ⟨r, k'⟩
    rw [hr] at hlast hnext
    cases r with
    | ok z =>
      rw [cascade_cons_ok hr] at hy ⊢
      exact .cons hlast (ih (hnext z rfl) hy)
    | error e =>
      rw [cascade_cons_error hr] at hy
      cases hy

/-- Layers one after the other can be passed in two parts. -/
theorem cascade_append_ok (hlen : layers.length = ks.length) {y : χ}
    (h : (cascade f layers x ks).1 = .ok y) :
    cascade f (layers ++ layers') x (ks ++ ks') =
      ((cascade f layers' y ks').1, (cascade f layers x ks).2 ++ (cascade f layers' y ks').2) := by
  induction layers generalizing x ks with
  | nil =>
    obtain rfl : ks = [] := List.length_eq_zero_iff.mp hlen.symm
    obtain rfl := Except.ok.inj h
    rfl
  | cons layer layers ih =>
    cases ks with
    | nil => cases hlen
    | cons k ks =>
      rcases hr : f layer x k with ⟨r, k'⟩
      cases r with
      | ok z =>
        rw [cascade_cons_ok hr] at h ⊢
        rw [List.cons_append, List.cons_append, cascade_cons_ok hr, ih (Nat.succ.inj hlen) h]
        rfl
      | error e =>
        rw [cascade_cons_error hr] at h
        cases h

theorem cascade_append_error {e : ε} (h : (cascade f layers x ks).1 = .error e) :
    cascade f (layers ++ layers') x (ks ++ ks') = (.error e, (cascade f layers x ks).2 ++ ks') := by
  induction layers generalizing x ks with
  | nil => cases h
  | cons layer layers ih =>
    cases ks with
    | nil => cases h
    | cons k ks =>
      rcases hr : f layer x k with ⟨r, k'⟩
      cases r with
      | ok z =>
        rw [cascade_cons_ok hr] at h ⊢
        rw [List.cons_append, List.cons_append, cascade_cons_ok hr, ih h]
        rfl
      | error e' =>
        rw [cascade_cons_error hr] at h ⊢
        obtain rfl := Except.error.inj h
        rw [List.cons_append, List.cons_append, cascade_cons_error hr]
        rfl

/-- The values that the layers pass on when all of them succeed, and the states that they leave. -/
theorem cascade_range {layer : Nat → β} {k : Nat → κ} {n : Nat} {x y : χ}
    (h : (cascade f ((List.range n).map layer) x ((List.range n).map k)).1 = .ok y) :
    ∃ (xs : Nat → χ) (k' : Nat → κ), xs 0 = x ∧ xs n = y ∧
      (∀ i < n, f (layer i) (xs i) (k i) = (.ok (xs (i + 1)), k' i)) ∧
      (cascade f ((List.range n).map layer) x ((List.range n).map k)).2 = (List.range n).map k' := by
  induction n generalizing y with
  | zero =>
    obtain rfl := Except.ok.inj h
    exact ⟨fun _ => x, k, rfl, rfl, fun i hi => by omega, rfl⟩
  | succ n ih =>
    have hlen : ((List.range n).map layer).length = ((List.range n).map k).length := by simp
    rw [List.range_succ, List.map_append, List.map_append] at h ⊢
    rcases hfront : (cascade f ((List.range n).map layer) x ((List.range n).map k)).1 with e | z
    · rw [cascade_append_error hfront] at h
      cases h
    · obtain ⟨xs, k', hfirst, hlast, hsteps, hstates⟩ := ih hfront
      rw [cascade_append_ok hlen hfront] at h ⊢
      rcases hr : f (layer n) z (k n) with ⟨r, last⟩
      cases r with
      | error e =>
        rw [List.map_singleton, List.map_singleton, cascade_cons_error hr] at h
        cases h
      | ok w =>
        rw [List.map_singleton, List.map_singleton, cascade_cons_ok hr] at h ⊢
        obtain rfl := Except.ok.inj h
        refine ⟨fun i => if i ≤ n then xs i else w, fun i => if i < n then k' i else last, ?_, ?_, ?_, ?_⟩
        · exact (if_pos (Nat.zero_le n)).trans hfirst
        · exact if_neg (by omega)
        · intro i hi
          by_cases hin : i < n
          · simp only [if_pos hin, if_pos (Nat.le_of_lt hin), if_pos (Nat.succ_le_of_lt hin)]
            exact hsteps i hin
          · obtain rfl : i = n := by omega
            simp only [if_pos (Nat.le_refl i), if_neg (Nat.lt_irrefl i),
              if_neg (Nat.not_succ_le_self i), hlast]
            exact hr
        · rw [List.map_append, List.map_singleton, if_neg (Nat.lt_irrefl n)]
          show (cascade f ((List.range n).map layer) x ((List.range n).map k)).2 ++ [last] = _
          rw [hstates]
          refine congrArg (· ++ [last]) (List.map_congr_left fun i hi => ?_)
          exact (if_pos (List.mem_range.mp hi)).symm

section Groups

variable {σ ρ : Type} {g : ρ → χ → σ → Except ε χ × σ} {inner : ρ → List β} {own : σ → List κ}

variable (own inner) in
/-- Groups of layers, of which each keeps the states of its layers together, do what all layers do
that they are made of. -/
theorem cascade_groups {P : χ → Prop} {Rel : ρ → σ → Prop}
    (hf : ∀ layer x k y k', f layer x k = (.ok y, k') → P x → P y)
    (hlen : ∀ group s, Rel group s → (inner group).length = (own s).length)
    (hg : ∀ group x s, Rel group s → P x → (g group x s).1 = (cascade f (inner group) x (own s)).1 ∧
      own (g group x s).2 = (cascade f (inner group) x (own s)).2)
    {groups : List ρ} {ss : List σ} (hgroups : List.Forall₂ Rel groups ss) (hx : P x) :
    (cascade g groups x ss).1 = (cascade f (groups.flatMap inner) x (ss.flatMap own)).1 ∧
      (cascade g groups x ss).2.flatMap own =
        (cascade f (groups.flatMap inner) x (ss.flatMap own)).2 := by
  induction hgroups generalizing x with
  | nil => exact ⟨rfl, rfl⟩
  | @cons group s groups ss hrel hrest ih =>
    obtain ⟨hresult, hstates⟩ := hg group x s hrel hx
    rw [List.flatMap_cons, List.flatMap_cons]
    rcases hr : g group x s with ⟨r, s'⟩
    rw [hr] at hresult hstates
    cases r with
    | ok y =>
      have hy := cascade_preserves hf hx hresult.symm
      rw [cascade_cons_ok hr, cascade_append_ok (hlen group s hrel) hresult.symm, List.flatMap_cons,
        ← hstates, (ih hy).1, (ih hy).2]
      exact ⟨rfl, rfl⟩
    | error e =>
      rw [cascade_cons_error hr, cascade_append_error hresult.symm, List.flatMap_cons, ← hstates]
      exact ⟨rfl, rfl⟩

end Groups

section Runs

variable {σ σ' ι ρ : Type} {step : σ → ι → Except ε ρ × σ} {step' : σ' → ι → Except ε ρ × σ'}

/-- Calls on a state, one after the other up to the first failure: their results, and the state
after them. -/
def calls (step : σ → ι → Except ε ρ × σ) : σ → List ι → List (Except ε ρ) × σ
  | s, [] => ([], s)
  | s, input :: inputs =>
    match step s input with
    | (.ok r, s') => (.ok r :: (calls step s' inputs).1, (calls step s' inputs).2)
    | (.error e, s') => ([.error e], s')

/-- Both succeed with the same result, or both fail. -/
def SameResult (x x' : Except ε ρ) : Prop := ∀ r, x = .ok r ↔ x' = .ok r

theorem SameResult.of_eq {x x' : Except ε ρ} (h : x = x') : SameResult x x' := fun r => by rw [h]

theorem SameResult.of_errors {x x' : Except ε ρ} (h : ∃ e, x = .error e) (h' : ∃ e, x' = .error e) :
    SameResult x x' := by
  obtain ⟨e, rfl⟩ := h
  obtain ⟨e', rfl⟩ := h'
  intro r
  constructor
  · intro h
    cases h
  · intro h
    cases h

/-- States that are related before a call are related after it, if the call succeeds, and calls on
them have the same results. -/
theorem calls_related {R Ends : σ → σ' → Prop} (hR : ∀ s s', R s s' → Ends s s')
    (hstep : ∀ s s' input, R s s' → SameResult (step s input).1 (step' s' input).1 ∧
      Ends (step s input).2 (step' s' input).2 ∧
      ∀ r, (step s input).1 = .ok r → R (step s input).2 (step' s' input).2)
    {inputs : List ι} {s : σ} {s' : σ'} (h : R s s') :
    List.Forall₂ SameResult (calls step s inputs).1 (calls step' s' inputs).1 ∧
      Ends (calls step s inputs).2 (calls step' s' inputs).2 := by
  induction inputs generalizing s s' with
  | nil => exact ⟨.nil, hR s s' h⟩
  | cons input inputs ih =>
    obtain ⟨hsame, hends, hnext⟩ := hstep s s' input h
    rcases hcall : step s input with ⟨r, t⟩
    rcases hcall' : step' s' input with ⟨r', t'⟩
    rw [hcall, hcall'] at hsame hends hnext
    cases r with
    | ok r =>
      obtain rfl : r' = .ok r := (hsame r).mp rfl
      obtain ⟨hrest, hlast⟩ := ih (hnext r rfl)
      rw [calls, calls, hcall, hcall']
      exact ⟨.cons (.of_eq rfl) hrest, hlast⟩
    | error e =>
      cases r' with
      | ok r' => cases (hsame r').mpr rfl
      | error e' =>
        rw [calls, calls, hcall, hcall']
        exact ⟨.cons (.of_errors ⟨e, rfl⟩ ⟨e', rfl⟩) .nil, hends⟩

end Runs

end Dlir.Framework
