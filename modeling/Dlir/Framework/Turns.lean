import Dlir.Framework.World

namespace Dlir.Framework

open Relation

variable {ι μ ω α : Type} [DecidableEq ι] {box : Mailbox ι μ}

namespace World

/-- What an endpoint makes of the message it reads. -/
def read (w : World box ω α) (i src : ι) (sel : Selector μ) (k : μ → Proc ι μ ω α) :
    Option (World box ω α) :=
  match box.take (w.mail i) src sel.stored, w.chan src i with
  | some (m, store), ms => some { w with
      proc := Function.update w.proc i (k m)
      mail := Function.update w.mail i store
      chan := setChan w.chan src i ms }
  | none, [] => none
  | none, m :: ms => some { w with
      proc := Function.update w.proc i (if sel.fresh m then k m else w.proc i)
      mail := Function.update w.mail i
        (if sel.fresh m then w.mail i else box.park (w.mail i) src m)
      chan := setChan w.chan src i ms }

/-- The next step of an endpoint that takes its turn, if it need not wait. An exchange sends first. -/
def poll (w : World box ω α) (i : ι) : Option (World box ω α) :=
  match w.proc i with
  | .ret _ => none
  | .emit o p => some { w with
      proc := Function.update w.proc i p
      log := Function.update w.log i (w.log i ++ [o]) }
  | .send dst m p => some { w with
      proc := Function.update w.proc i p
      chan := setChan w.chan i dst (w.chan i dst ++ [m]) }
  | .exchange dst m src sel k => some { w with
      proc := Function.update w.proc i (.recv src sel k)
      chan := setChan w.chan i dst (w.chan i dst ++ [m]) }
  | .recv src sel k => w.read i src sel k

/-- The world after some turns. -/
def drive (w : World box ω α) (turns : List ι) : World box ω α :=
  turns.foldl (fun w i => (w.poll i).getD w) w

variable {w w' : World box ω α} {i : ι}

theorem step_of_read {src : ι} {sel : Selector μ} {k : μ → Proc ι μ ω α}
    (hproc : w.proc i = .recv src sel k) (h : w.read i src sel k = some w') : Step ⊤ w w' := by
  have hwaits : (w.proc i).incoming = some (src, sel, k) := by rw [hproc]; rfl
  unfold read at h
  cases hstored : box.take (w.mail i) src sel.stored with
  | some entry =>
    rw [hstored] at h
    obtain rfl := Option.some.inj h
    exact ⟨.recv i, .recv (.stored hwaits hstored)⟩
  | none =>
    cases hchan : w.chan src i with
    | nil =>
      rw [hstored, hchan] at h
      cases h
    | cons m ms =>
      rw [hstored, hchan] at h
      obtain rfl := Option.some.inj h
      refine ⟨.recv i, .recv ?_⟩
      rw [hchan]
      cases hfresh : sel.fresh m with
      | true => exact .fresh hwaits hstored hfresh
      | false => exact .parked hwaits hstored hfresh

/-- A turn is a step of a world whose channels are never full. -/
theorem step_of_poll (h : w.poll i = some w') : Step ⊤ w w' := by
  have hroom : ∀ dst, ((w.chan i dst).length : ℕ∞) < ⊤ := fun dst => ENat.natCast_lt_top _
  unfold poll at h
  cases hproc : w.proc i with
  | ret a =>
    rw [hproc] at h
    cases h
  | emit o p =>
    rw [hproc] at h
    obtain rfl := Option.some.inj h
    exact ⟨.emit i, .emit hproc⟩
  | send dst m p =>
    rw [hproc] at h
    obtain rfl := Option.some.inj h
    exact ⟨.send i, .send (by rw [hproc]; rfl) (hroom dst)⟩
  | exchange dst m src sel k =>
    rw [hproc] at h
    obtain rfl := Option.some.inj h
    exact ⟨.send i, .send (by rw [hproc]; rfl) (hroom dst)⟩
  | recv src sel k =>
    rw [hproc] at h
    exact step_of_read hproc h

theorem drive_steps (w : World box ω α) (turns : List ι) :
    ReflTransGen (Step ⊤) w (w.drive turns) := by
  induction turns generalizing w with
  | nil => exact .refl
  | cons i turns ih =>
    have hrest := ih ((w.poll i).getD w)
    cases hpoll : w.poll i with
    | none =>
      rw [hpoll] at hrest
      rw [drive, List.foldl_cons, hpoll]
      exact hrest
    | some w' =>
      rw [hpoll] at hrest
      rw [drive, List.foldl_cons, hpoll]
      exact .head (step_of_poll hpoll) hrest

end World

/-- What a program has returned, if it has come to a good end. -/
def Proc.success {ε β σ : Type} : Proc ι μ ω (Except ε β × σ) → Option (β × σ)
  | .ret (.ok b, s) => some (b, s)
  | _ => none

omit [DecidableEq ι] in
theorem Proc.success_eq_some {ε β σ : Type} {p : Proc ι μ ω (Except ε β × σ)} {result : β × σ}
    (h : p.success = some result) : p = .ret (.ok result.1, result.2) := by
  unfold success at h
  split at h
  · obtain rfl := Option.some.inj h
    rfl
  · cases h

end Dlir.Framework
