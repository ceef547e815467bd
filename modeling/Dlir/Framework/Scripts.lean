import Dlir.Framework.Reports
import Dlir.Framework.Stateful

namespace Dlir.Framework

variable {ι μ ω ε ε' σ β γ : Type}

/-- A loop with one move for each entry. -/
theorem PlaysOk.forM_map {κ κ' : Type} {g : κ' → κ} {f : κ → ExceptT ε (Proc ι μ ω) Unit}
    {move : κ' → Move ι μ} {xs : List κ'}
    (h : ∀ x ∈ xs, PlaysOk [move x] (f (g x)) ([] : List ω) ()) :
    PlaysOk (xs.map move) ((xs.map g).forM f) ([] : List ω) () := by
  induction xs with
  | nil => exact PlaysOk.pure ()
  | cons x xs ih =>
    exact (h x List.mem_cons_self).bind (ih fun y hy => h y (List.mem_cons_of_mem _ hy))

/-- Changes the state. -/
def amend (f : σ → σ) : ExceptT ε (StateT σ (Proc ι μ ω)) Unit :=
  ExceptT.mk fun s => .ret (.ok (), f s)

/-- Code with a state makes these moves and observations, and succeeds with this result and this
state. -/
def Enacts (moves : List (Move ι μ)) (c : ExceptT ε (StateT σ (Proc ι μ ω)) β) (s : σ) (os : List ω)
    (b : β) (s' : σ) : Prop :=
  Plays moves (c.run.run s) os (.ret (.ok b, s'))

namespace Enacts

variable {moves moves' : List (Move ι μ)} {c : ExceptT ε (StateT σ (Proc ι μ ω)) β}
  {f : β → ExceptT ε (StateT σ (Proc ι μ ω)) γ} {s s' s'' : σ} {os os' : List ω} {b : β} {d : γ}

theorem pure (b : β) (s : σ) :
    Enacts [] (Pure.pure b : ExceptT ε (StateT σ (Proc ι μ ω)) β) s [] b s := .done _

theorem bind (h : Enacts moves c s os b s') (h' : Enacts moves' (f b) s' os' d s'') :
    Enacts (moves ++ moves') (c >>= f) s (os ++ os') d s'' := by
  unfold Enacts
  rw [ExceptT.run_bind, StateT.run_bind]
  exact Plays.seq h h'

theorem settled {x : Except ε' β} {wrap : ε' → ε} (hx : x = .ok b)
    (h : Enacts moves (f b) s os d s') : Enacts moves (settleWith wrap x >>= f) s os d s' := by
  subst hx
  exact h

/-- A computation at the end. -/
theorem settle {x : Except ε' β} {wrap : ε' → ε} (hx : x = .ok b) :
    Enacts [] (settleWith wrap x : ExceptT ε (StateT σ (Proc ι μ ω)) β) s [] b s := by
  subst hx
  exact .done _

theorem published {o : ω} {f : Unit → ExceptT ε (StateT σ (Proc ι μ ω)) γ}
    (h : Enacts moves (f ()) s os d s') : Enacts moves (publish o >>= f) s (o :: os) d s' :=
  Plays.emit h

/-- An observation at the end. -/
theorem tell {o : ω} :
    Enacts [] (publish o : ExceptT ε (StateT σ (Proc ι μ ω)) Unit) s [o] () s :=
  .emit (.done _)

theorem amended {f : σ → σ} {g : Unit → ExceptT ε (StateT σ (Proc ι μ ω)) γ}
    (h : Enacts moves (g ()) (f s) os d s') : Enacts moves (amend f >>= g) s os d s' := h

theorem talk {wrap : ε' → ε} {x : ExceptT ε' (Proc ι μ ω) β} (hx : PlaysOk moves x os b) :
    Enacts moves (converse wrap x : ExceptT ε (StateT σ (Proc ι μ ω)) β) s os b s := by
  unfold Enacts converse
  have hmap : Plays moves (Except.mapError wrap <$> x.run) os (.ret ((.ok b : Except ε β))) := by
    rw [← bind_pure_comp]
    exact Plays.bind hx _
  exact Plays.bind hmap _

theorem talked {wrap : ε' → ε} {x : ExceptT ε' (Proc ι μ ω) β} (hx : PlaysOk moves x [] b)
    (h : Enacts moves' (f b) s os d s') :
    Enacts (moves ++ moves') (converse wrap x >>= f) s os d s' :=
  (talk hx).bind h

/-- A loop with one move and one observation for each entry, which changes the state. -/
theorem forM_map {κ κ' : Type} {g : κ' → κ} {f : κ → ExceptT ε (StateT σ (Proc ι μ ω)) Unit}
    {move : κ' → Move ι μ} {o : κ' → ω} {next : σ → κ' → σ} {xs : List κ'}
    (h : ∀ x ∈ xs, ∀ s, Enacts [move x] (f (g x)) s [o x] () (next s x)) (s : σ) :
    Enacts (xs.map move) ((xs.map g).forM f) s (xs.map o) () (xs.foldl next s) := by
  induction xs generalizing s with
  | nil => exact pure () s
  | cons x xs ih =>
    exact (h x List.mem_cons_self s).bind
      (ih (fun y hy => h y (List.mem_cons_of_mem _ hy)) (next s x))

variable [DecidableEq ι] [Fintype ι]

/-- Endpoints that play their parts in one list of messages run together. -/
theorem together {c : ι → ExceptT ε (StateT σ (Proc ι μ ω)) β} {s s' : ι → σ} {os : ι → List ω}
    {b : ι → β} (trace : List (ι × ι × μ)) (hne : ∀ x ∈ trace, x.1 ≠ x.2.1)
    (h : ∀ i, Enacts (project i trace) (c i) (s i) (os i) (b i) (s' i)) :
    TogetherSt c s os (fun i => .ok (b i)) s' :=
  Together.of_choreography trace hne h

end Enacts

end Dlir.Framework
