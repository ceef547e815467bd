import Dlir.Framework.Diamond
import Dlir.Framework.Process
import Mathlib.Data.ENat.Basic

namespace Dlir.Framework

open Relation

/-- Where an endpoint puts messages that did not match the receive that read them. -/
structure Mailbox (ι μ : Type) where
  Store : Type
  empty : Store
  take : Store → ι → (μ → Bool) → Option (μ × Store)
  park : Store → ι → μ → Store
  take_empty : ∀ src want, take empty src want = none

variable {ι μ ω α : Type}

/-- One receive attempt of a program on the channel of its source: the stored messages are
searched first, then one message is read and either delivered or put aside. -/
inductive Receives (box : Mailbox ι μ) (src : ι) :
    Proc ι μ ω α → box.Store → List μ → Proc ι μ ω α → box.Store → List μ → Prop
  | stored {p : Proc ι μ ω α} {sel : Selector μ} {k : μ → Proc ι μ ω α} {q q' : box.Store}
      {m : μ} {ms : List μ} : p.incoming = some (src, sel, k) →
      box.take q src sel.stored = some (m, q') → Receives box src p q ms (k m) q' ms
  | fresh {p : Proc ι μ ω α} {sel : Selector μ} {k : μ → Proc ι μ ω α} {q : box.Store}
      {m : μ} {ms : List μ} : p.incoming = some (src, sel, k) →
      box.take q src sel.stored = none → sel.fresh m = true →
      Receives box src p q (m :: ms) (k m) q ms
  | parked {p : Proc ι μ ω α} {sel : Selector μ} {k : μ → Proc ι μ ω α} {q : box.Store}
      {m : μ} {ms : List μ} : p.incoming = some (src, sel, k) →
      box.take q src sel.stored = none → sel.fresh m = false →
      Receives box src p q (m :: ms) p (box.park q src m) ms

namespace Receives

variable {box : Mailbox ι μ} {src src' dst : ι} {p p' p'' p1 : Proc ι μ ω α}
  {q q' q'' : box.Store} {ms ms' ms'' : List μ} {m : μ}

theorem source (h : Receives box src p q ms p' q' ms') :
    ∃ sel k, p.incoming = some (src, sel, k) := by
  cases h with
  | stored hi _ => exact ⟨_, _, hi⟩
  | fresh hi _ _ => exact ⟨_, _, hi⟩
  | parked hi _ _ => exact ⟨_, _, hi⟩

theorem source_unique {r r' : box.Store} {ns ns' : List μ}
    (h : Receives box src p q ms p' q' ms')
    (h' : Receives box src' p r ns p'' r' ns') : src = src' := by
  obtain ⟨sel, k, hi⟩ := h.source
  obtain ⟨sel', k', hi'⟩ := h'.source
  rw [hi] at hi'
  exact congrArg Prod.fst (Option.some.inj hi')

theorem det (h : Receives box src p q ms p' q' ms')
    (h' : Receives box src p q ms p'' q'' ms'') : p' = p'' ∧ q' = q'' ∧ ms' = ms'' := by
  cases h <;> cases h' <;> simp_all

theorem extend (h : Receives box src p q ms p' q' ms') (x : μ) :
    Receives box src p q (ms ++ [x]) p' q' (ms' ++ [x]) := by
  cases h with
  | stored hi ht => exact .stored hi ht
  | fresh hi ht hf => exact .fresh hi ht hf
  | parked hi ht hf => exact .parked hi ht hf

theorem length_le (h : Receives box src p q ms p' q' ms') : ms'.length ≤ ms.length := by
  cases h <;> simp

/-- A program that is also ready to send can do so before or after the receive. -/
theorem beside_send (h : Receives box src p q ms p' q' ms')
    (ho : p.outgoing = some (dst, m, p1)) :
    ∃ p2, p'.outgoing = some (dst, m, p2) ∧ Receives box src p1 q ms p2 q' ms' := by
  cases h with
  | stored hi ht =>
    obtain ⟨k', hi', hk⟩ := Proc.outgoing_incoming ho hi
    exact ⟨_, hk _, .stored hi' ht⟩
  | fresh hi ht hf =>
    obtain ⟨k', hi', hk⟩ := Proc.outgoing_incoming ho hi
    exact ⟨_, hk _, .fresh hi' ht hf⟩
  | parked hi ht hf =>
    obtain ⟨k', hi', hk⟩ := Proc.outgoing_incoming ho hi
    exact ⟨p1, ho, .parked hi' ht hf⟩

/-- A receive that empties a one-message channel cannot also be served from the store. -/
theorem not_stored (h : Receives box src p q [m] p' q' [])
    (h' : Receives box src p q [] p'' q'' ms) : False := by
  cases h' with
  | stored hi' ht' =>
    cases h with
    | fresh hi ht _ => simp_all
    | parked hi ht _ => simp_all

end Receives

/-- The state of all endpoints: programs, messages put aside, channels by sender and
receiver, and what each program has observed so far. -/
@[ext] structure World (box : Mailbox ι μ) (ω α : Type) where
  proc : ι → Proc ι μ ω α
  mail : ι → box.Store
  chan : ι → ι → List μ
  log : ι → List ω

/-- Which endpoint steps, and in what way. -/
inductive Label (ι : Type)
  | send (i : ι)
  | recv (i : ι)
  | hand (i : ι)
  | emit (i : ι)

variable [DecidableEq ι]

/-- Overwrites the channel from `i` to `j`. -/
def setChan (ch : ι → ι → List μ) (i j : ι) (ms : List μ) : ι → ι → List μ :=
  Function.update ch i (Function.update (ch i) j ms)

theorem setChan_apply (ch : ι → ι → List μ) (i j a b : ι) (ms : List μ) :
    setChan ch i j ms a b = if a = i ∧ b = j then ms else ch a b := by
  unfold setChan
  by_cases ha : a = i
  · subst ha
    by_cases hb : b = j
    · subst hb; simp
    · simp [hb]
  · simp [ha]

/-- One step of a world whose channels hold at most `cap` messages. With capacity zero a
send and the receive reading it happen together. -/
inductive Fire {box : Mailbox ι μ} (cap : ℕ∞) :
    Label ι → World box ω α → World box ω α → Prop
  | send {w : World box ω α} {i j : ι} {m : μ} {p : Proc ι μ ω α} :
      (w.proc i).outgoing = some (j, m, p) → ((w.chan i j).length : ℕ∞) < cap →
      Fire cap (.send i) w
        { w with proc := Function.update w.proc i p,
                 chan := setChan w.chan i j (w.chan i j ++ [m]) }
  | recv {w : World box ω α} {i j : ι} {p : Proc ι μ ω α} {q : box.Store} {ms : List μ} :
      Receives box j (w.proc i) (w.mail i) (w.chan j i) p q ms →
      Fire cap (.recv i) w
        { w with proc := Function.update w.proc i p,
                 mail := Function.update w.mail i q,
                 chan := setChan w.chan j i ms }
  | hand {w : World box ω α} {i j : ι} {m : μ} {p p' : Proc ι μ ω α} {q : box.Store} :
      cap = 0 → i ≠ j → w.chan i j = [] → (w.proc i).outgoing = some (j, m, p) →
      Receives box i (w.proc j) (w.mail j) [m] p' q [] →
      Fire cap (.hand i) w
        { w with proc := Function.update (Function.update w.proc i p) j p',
                 mail := Function.update w.mail j q }
  | emit {w : World box ω α} {i : ι} {o : ω} {p : Proc ι μ ω α} :
      w.proc i = .emit o p →
      Fire cap (.emit i) w
        { w with proc := Function.update w.proc i p,
                 log := Function.update w.log i (w.log i ++ [o]) }

def Step {box : Mailbox ι μ} (cap : ℕ∞) (w w' : World box ω α) : Prop :=
  ∃ l, Fire cap l w w'

end Dlir.Framework
