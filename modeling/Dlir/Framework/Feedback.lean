import Mathlib.Tactic.Common

namespace Dlir.Framework

variable {σ σ' ι τ ρ : Type}

/-- A loop that feeds its calls with what they have given, up to the first result that stops it. The
list has all results, also the last. -/
inductive Feedback (call : σ → ι → τ → σ → Prop) (stops : Nat → τ → Option ρ) (again : τ → ι) :
    Nat → σ → ι → List τ → ρ → σ → Prop
  | last {step : Nat} {s s' : σ} {input : ι} {t : τ} {reason : ρ} (hcall : call s input t s')
      (hstop : stops step t = some reason) : Feedback call stops again step s input [t] reason s'
  | next {step : Nat} {s s' s'' : σ} {input : ι} {t : τ} {ts : List τ} {reason : ρ}
      (hcall : call s input t s') (hstop : stops step t = none)
      (hrest : Feedback call stops again (step + 1) s' (again t) ts reason s'') :
      Feedback call stops again step s input (t :: ts) reason s''

namespace Feedback

variable {call : σ → ι → τ → σ → Prop} {stops : Nat → τ → Option ρ} {again : τ → ι} {step : Nat}
  {s s' : σ} {input : ι} {ts : List τ} {reason : ρ}

theorem ne_nil (h : Feedback call stops again step s input ts reason s') : ts ≠ [] := by
  cases h with
  | last => exact List.cons_ne_nil _ _
  | next => exact List.cons_ne_nil _ _

/-- A count that every call advances by the size of its input. -/
theorem advances {R : Nat → σ → Prop} (size : ι → Nat)
    (hcall : ∀ {n s input t s'}, R n s → call s input t s' → R (n + size input) s')
    (hsize : ∀ t, size (again t) = 1) (h : Feedback call stops again step s input ts reason s')
    {n : Nat} (hs : R n s) : R (n + size input + (ts.length - 1)) s' := by
  induction h generalizing n with
  | last hlast _ => exact hcall hs hlast
  | @next step s s' s'' input t ts reason hnext _ hrest ih =>
    have hall := ih (hcall hs hnext)
    have hpos := List.length_pos_iff.mpr hrest.ne_nil
    rw [hsize t] at hall
    rw [List.length_cons, show n + size input + (ts.length + 1 - 1) =
      n + size input + 1 + (ts.length - 1) by omega]
    exact hall

/-- Where the results of some step stop the loop for sure, it has at most that many. -/
theorem length_le {limit : Nat} (hlimit : ∀ step t, limit ≤ step + 1 → stops step t ≠ none)
    (h : Feedback call stops again step s input ts reason s') (hstep : step < limit) :
    step + ts.length ≤ limit := by
  induction h with
  | last => exact hstep
  | @next step s s' s'' input t ts reason _ hstop _ ih =>
    have hmore : step + 1 < limit := by
      by_contra hge
      exact hlimit step t (by omega) hstop
    have hrest := ih hmore
    rw [List.length_cons]
    omega

/-- The last result is the one that stops the loop. -/
theorem stops_last (h : Feedback call stops again step s input ts reason s') :
    ∃ front t, ts = front ++ [t] ∧ stops (step + front.length) t = some reason ∧
      ∀ (i : Nat) t', front[i]? = some t' → stops (step + i) t' = none := by
  induction h with
  | @last step s s' input t reason _ hstop => exact ⟨[], t, rfl, hstop, fun i t' h => by cases h⟩
  | @next step s s' s'' input t ts reason _ hstop _ ih =>
    obtain ⟨front, t', rfl, hlast, hfront⟩ := ih
    refine ⟨t :: front, t', rfl, ?_, fun i u hu => ?_⟩
    · rw [List.length_cons, ← hlast]
      congr 1
      omega
    · cases i with
      | zero =>
        obtain rfl := Option.some.inj hu
        exact hstop
      | succ i =>
        rw [← hfront i u hu]
        congr 1
        omega

end Feedback

end Dlir.Framework
