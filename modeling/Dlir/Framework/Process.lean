import Mathlib.Tactic.Common

namespace Dlir.Framework

/-- What a receive is looking for. `stored` searches the messages put aside earlier,
`fresh` decides about a message just taken from the channel. -/
structure Selector (μ : Type) where
  stored : μ → Bool
  fresh : μ → Bool

/-- A sequential communicating program. `exchange` sends and receives concurrently and
continues when both are done; `emit` makes a local observation. -/
inductive Proc (ι μ ω α : Type) where
  | ret (a : α)
  | send (dst : ι) (m : μ) (k : Proc ι μ ω α)
  | recv (src : ι) (sel : Selector μ) (k : μ → Proc ι μ ω α)
  | exchange (dst : ι) (m : μ) (src : ι) (sel : Selector μ) (k : μ → Proc ι μ ω α)
  | emit (o : ω) (k : Proc ι μ ω α)

namespace Proc

variable {ι μ ω α β γ : Type}

def bind : Proc ι μ ω α → (α → Proc ι μ ω β) → Proc ι μ ω β
  | ret a, f => f a
  | send dst m k, f => send dst m (k.bind f)
  | recv src sel k, f => recv src sel fun m => (k m).bind f
  | exchange dst m src sel k, f => exchange dst m src sel fun v => (k v).bind f
  | emit o k, f => emit o (k.bind f)

instance : Monad (Proc ι μ ω) where
  pure := ret
  bind := bind

@[simp] theorem pure_eq (a : α) : (pure a : Proc ι μ ω α) = ret a := rfl
@[simp] theorem bind_eq (p : Proc ι μ ω α) (f : α → Proc ι μ ω β) : (p >>= f) = p.bind f := rfl

@[simp] theorem ret_bind (a : α) (f : α → Proc ι μ ω β) : (ret a).bind f = f a := rfl
@[simp] theorem send_bind (dst : ι) (m : μ) (k : Proc ι μ ω α) (f : α → Proc ι μ ω β) :
    (send dst m k).bind f = send dst m (k.bind f) := rfl
@[simp] theorem recv_bind (src : ι) (sel : Selector μ) (k : μ → Proc ι μ ω α)
    (f : α → Proc ι μ ω β) :
    (recv src sel k).bind f = recv src sel fun m => (k m).bind f := rfl
@[simp] theorem exchange_bind (dst : ι) (m : μ) (src : ι) (sel : Selector μ)
    (k : μ → Proc ι μ ω α) (f : α → Proc ι μ ω β) :
    (exchange dst m src sel k).bind f = exchange dst m src sel fun v => (k v).bind f := rfl
@[simp] theorem emit_bind (o : ω) (k : Proc ι μ ω α) (f : α → Proc ι μ ω β) :
    (emit o k).bind f = emit o (k.bind f) := rfl

@[simp] theorem bind_ret (p : Proc ι μ ω α) : p.bind ret = p := by
  induction p with
  | ret a => rfl
  | send dst m k ih => simp [ih]
  | recv src sel k ih => simp [ih]
  | exchange dst m src sel k ih => simp [ih]
  | emit o k ih => simp [ih]

@[simp] theorem bind_assoc (p : Proc ι μ ω α) (f : α → Proc ι μ ω β) (g : β → Proc ι μ ω γ) :
    (p.bind f).bind g = p.bind fun a => (f a).bind g := by
  induction p with
  | ret a => rfl
  | send dst m k ih => simp [ih]
  | recv src sel k ih => simp [ih]
  | exchange dst m src sel k ih => simp [ih]
  | emit o k ih => simp [ih]

instance : LawfulMonad (Proc ι μ ω) :=
  LawfulMonad.mk' _ (fun p => bind_ret p) (fun _ _ => rfl) (fun p f g => bind_assoc p f g)

/-- The send a program is ready to make, with the program left after it. -/
def outgoing : Proc ι μ ω α → Option (ι × μ × Proc ι μ ω α)
  | send dst m k => some (dst, m, k)
  | exchange dst m src sel k => some (dst, m, recv src sel k)
  | _ => none

/-- The receive a program is ready to make, with the program left for each message. -/
def incoming : Proc ι μ ω α → Option (ι × Selector μ × (μ → Proc ι μ ω α))
  | recv src sel k => some (src, sel, k)
  | exchange dst m src sel k => some (src, sel, fun v => send dst m (k v))
  | _ => none

/-- The two halves of an exchange do not depend on their order. -/
theorem outgoing_incoming {p p' : Proc ι μ ω α} {dst src : ι} {m : μ} {sel : Selector μ}
    {k : μ → Proc ι μ ω α} (ho : p.outgoing = some (dst, m, p'))
    (hi : p.incoming = some (src, sel, k)) :
    ∃ k', p'.incoming = some (src, sel, k') ∧ ∀ v, (k v).outgoing = some (dst, m, k' v) := by
  cases p with
  | exchange d x s f g =>
    simp only [outgoing, incoming, Option.some.injEq, Prod.mk.injEq] at ho hi
    obtain ⟨rfl, rfl, rfl⟩ := ho
    obtain ⟨rfl, rfl, rfl⟩ := hi
    exact ⟨g, rfl, fun v => rfl⟩
  | ret a => simp [outgoing] at ho
  | send d x g => simp [incoming] at hi
  | recv s f g => simp [outgoing] at ho
  | emit o g => simp [outgoing] at ho

end Proc

end Dlir.Framework
