import Dlir.Framework.Choreography
import Dlir.Framework.Requests

namespace Dlir.Framework

variable {m : Type → Type} [Monad m] {ε σ α β κ : Type} {P P' : α → Prop} {Q : β → Prop}

/-- Every value that the computation returns has the property: it is a computation of values with
the property. -/
def Always (P : α → Prop) (x : m α) : Prop := ∃ y : m {a // P a}, Subtype.val <$> y = x

namespace Always

variable [LawfulMonad m] {x : m α} {f : α → m β}

theorem pure {a : α} (h : P a) : Always P (pure a : m α) := ⟨Pure.pure ⟨a, h⟩, by simp⟩

theorem trivial (x : m α) : Always (fun _ => True) x := ⟨(fun a => ⟨a, True.intro⟩) <$> x, by simp⟩

theorem bind (hx : Always P x) (hf : ∀ a, P a → Always Q (f a)) : Always Q (x >>= f) := by
  obtain ⟨y, rfl⟩ := hx
  choose g hg using hf
  refine ⟨y >>= fun a => g a.1 a.2, ?_⟩
  simp only [map_bind, hg, bind_map_left]

theorem imp (hx : Always P x) (h : ∀ a, P a → P' a) : Always P' x := by
  rw [← bind_pure x]
  exact hx.bind fun a ha => pure (h a ha)

theorem map {f : α → β} (hx : Always P x) (h : ∀ a, P a → Q (f a)) : Always Q (f <$> x) := by
  rw [← bind_pure_comp]
  exact hx.bind fun a ha => pure (h a ha)

/-- Each element of a list on its own. -/
theorem mapM {R : κ → β → Prop} {f : κ → m β} {l : List κ} (h : ∀ x ∈ l, Always (R x) (f x)) :
    Always (List.Forall₂ R l) (l.mapM f) := by
  induction l with
  | nil => exact pure .nil
  | cons x l ih =>
    rw [List.mapM_cons]
    refine (h x List.mem_cons_self).bind fun b hb => ?_
    refine (ih fun y hy => h y (List.mem_cons_of_mem _ hy)).bind fun bs hbs => ?_
    exact pure (.cons hb hbs)

end Always

/-- What a computation that may fail, with a state that survives the failure, can end with. -/
def Ensures (c : ExceptT ε (StateT σ m) β) (s : σ) (Q : Except ε β → σ → Prop) : Prop :=
  Always (fun r => Q r.1 r.2) (c.run.run s)

namespace Ensures

variable {γ : Type} {c : ExceptT ε (StateT σ m) β} {s : σ} {Q Q' : Except ε β → σ → Prop}

theorem imp [LawfulMonad m] (h : Ensures c s Q) (himp : ∀ r s', Q r s' → Q' r s') :
    Ensures c s Q' :=
  Always.imp h fun r => himp r.1 r.2

theorem pure [LawfulMonad m] {b : β} (h : Q (.ok b) s) :
    Ensures (Pure.pure b : ExceptT ε (StateT σ m) β) s Q :=
  Always.pure (m := m) h

/-- A part of which the result is known. -/
theorem settled [LawfulMonad m] {x : Except ε β} (h : Q x s) :
    Ensures (ExceptT.mk (Pure.pure x) : ExceptT ε (StateT σ m) β) s Q :=
  Always.pure (m := m) h

theorem bind [LawfulMonad m] {f : β → ExceptT ε (StateT σ m) γ} {R : Except ε γ → σ → Prop}
    (hc : Ensures c s Q) (hok : ∀ b s', Q (.ok b) s' → Ensures (f b) s' R)
    (herror : ∀ e s', Q (.error e) s' → R (.error e) s') : Ensures (c >>= f) s R := by
  unfold Ensures
  rw [ExceptT.run_bind, StateT.run_bind]
  refine Always.bind hc fun r hr => ?_
  obtain ⟨result, s'⟩ := r
  cases result with
  | ok b => exact hok b s' hr
  | error e => exact Always.pure (herror e s' hr)

/-- A part that does not touch the state. -/
theorem lift [LawfulMonad m] {x : m (Except ε β)} {P : Except ε β → Prop} (hx : Always P x)
    (h : ∀ r, P r → Q r s) : Ensures (ExceptT.mk (StateT.lift x)) s Q := by
  show Always _ (x >>= fun r => Pure.pure (r, s))
  exact hx.bind fun r hr => Always.pure (h r hr)

end Ensures

/-- What holds of all values that code returns holds of its results from every state. -/
theorem Always.ensures [LawfulMonad m] {c : ExceptT ε (StateT σ m) α} (h : Always P c) (s : σ) :
    Ensures c s fun r _ => ∀ a, r = .ok a → P a := by
  obtain ⟨y, rfl⟩ := h
  rw [← bind_pure_comp]
  refine Ensures.bind (Q := fun _ _ => True) (Always.trivial _) (fun a s' _ => ?_) fun e s' _ a ha => ?_
  · refine Ensures.pure fun a' ha' => ?_
    obtain rfl := Except.ok.inj ha'
    exact a.2
  · cases ha

/-- What holds of all results of a function of a state. -/
theorem Always.run_state {x : StateM σ α} (h : Always P x) (s : σ) : P (x.run s).1 := by
  obtain ⟨y, rfl⟩ := h
  exact (y s).1.2

/-- A result together with what is known about it. -/
def withProof (r : Except ε α) (h : ∀ a, r = .ok a → P a) : Except ε {a // P a} :=
  match r, h with
  | .ok a, h => .ok ⟨a, h a rfl⟩
  | .error e, _ => .error e

/-- Code that acts on a state, by what it returns from each state. -/
theorem Always.of_stateT [LawfulMonad m] {x : StateT σ m α}
    (h : ∀ s, Always (fun r => P r.1) (x.run s)) : Always P x := by
  choose y hy using h
  refine ⟨fun s => (fun r => (⟨r.1.1, r.2⟩, r.1.2)) <$> y s, funext fun s => ?_⟩
  show (StateT.run (Subtype.val <$> _) s) = x.run s
  rw [StateT.run_map, ← hy s]
  show _ <$> _ <$> y s = _
  rw [Functor.map_map]

theorem Always.run_stateT [LawfulMonad m] {x : StateT σ m α} (h : Always P x) (s : σ) :
    Always (fun r => P r.1) (x.run s) := by
  obtain ⟨y, rfl⟩ := h
  rw [StateT.run_map]
  exact (Always.trivial (y.run s)).map fun r _ => r.1.2

/-- Code that may fail, by what it returns where it succeeds. -/
theorem Always.of_exceptT [LawfulMonad m] {x : m (Except ε α)}
    (h : Always (fun r => ∀ a, r = .ok a → P a) x) : Always P (ExceptT.mk x) := by
  obtain ⟨y, rfl⟩ := h
  refine ⟨ExceptT.mk ((fun r => withProof r.1 r.2) <$> y), ?_⟩
  have hval : ∀ (r : Except ε α) (hr : ∀ a, r = .ok a → P a),
      Subtype.val <$> withProof r hr = r := by
    rintro (_ | a) hr <;> rfl
  refine ExceptT.ext ?_
  rw [ExceptT.run_map]
  show _ <$> _ <$> y = _
  rw [Functor.map_map]
  exact congrArg (· <$> y) (funext fun r => hval r.1 r.2)

theorem Always.run_exceptT [LawfulMonad m] {x : ExceptT ε m α} (h : Always P x) :
    Always (fun r => ∀ a, r = .ok a → P a) x.run := by
  obtain ⟨y, rfl⟩ := h
  rw [ExceptT.run_map]
  refine (Always.trivial y.run).map fun r _ a ha => ?_
  cases r with
  | ok b =>
    obtain rfl := Except.ok.inj ha
    exact b.2
  | error e => cases ha

/-- What holds of all results of code that asks for things. -/
theorem Asking.always_iff {ρ : Type} {c : Asking ρ ε α} :
    Always P c ↔ ∀ asked a, (c.run asked).1 = .ok a → P a := by
  constructor
  · rintro ⟨y, rfl⟩ asked a hrun
    rw [← bind_pure_comp, Asking.run_bind] at hrun
    rcases hy : y.run asked with ⟨_ | b, asked'⟩
    · rw [hy] at hrun
      cases hrun
    · rw [hy] at hrun
      obtain rfl := Except.ok.inj hrun
      exact b.2
  · intro h
    refine ⟨ExceptT.mk fun asked => (withProof (c.run asked).1 (h asked), (c.run asked).2), ?_⟩
    have hpair : ∀ (x : Except ε α × List ρ) (hx : ∀ a, x.1 = .ok a → P a) (asked : List ρ),
        (Subtype.val <$> (ExceptT.mk fun _ => (withProof x.1 hx, x.2) : Asking ρ ε {a // P a})).run
          asked = x := by
      rintro ⟨_ | a, asked'⟩ hx asked <;> rfl
    exact funext fun asked => hpair (c.run asked) (h asked) asked

end Dlir.Framework
