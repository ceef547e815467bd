import Dlir.Framework.Results
import Mathlib.Data.List.Basic
import Mathlib.Tactic.Common

namespace Dlir.Framework

variable {ρ τ ε ε' α β : Type}

/-- Code that asks a source for things one after the other and stops at the first failure. The
state lists what it has asked for. -/
abbrev Asking (ρ ε α : Type) : Type := ExceptT ε (StateM (List ρ)) α

/-- Asks for one thing. -/
def ask (source : ρ → Except ε τ) (r : ρ) : Asking ρ ε τ :=
  ExceptT.mk fun asked => (source r, asked ++ [r])

/-- Goes on with a result that needs nothing from the source. -/
def settle (x : Except ε α) : Asking ρ ε α := ExceptT.mk fun asked => (x, asked)

namespace Asking

/-- Whatever it gets, the code asks for these things in this order, as far as it gets. -/
def Asks (c : Asking ρ ε α) (rs : List ρ) : Prop :=
  ∀ asked, ∃ front, front <+: rs ∧ (c.run asked).2 = asked ++ front ∧
    ∀ a, (c.run asked).1 = .ok a → front = rs

/-- The code gets to its end. -/
def Succeeds (c : Asking ρ ε α) (ends : α → Prop) : Prop :=
  ∀ asked, ∃ a, (c.run asked).1 = .ok a ∧ ends a

theorem run_bind (c : Asking ρ ε α) (f : α → Asking ρ ε β) (asked : List ρ) :
    (c >>= f).run asked = match c.run asked with
      | (.ok a, asked') => (f a).run asked'
      | (.error e, asked') => (.error e, asked') := by
  show (match c.run asked with | (x, asked') => ExceptT.bindCont f x asked') = _
  rcases c.run asked with ⟨_ | a, asked'⟩ <;> rfl

theorem asks_pure (a : α) : Asks (pure a : Asking ρ ε α) [] :=
  fun asked => ⟨[], List.prefix_refl _, (List.append_nil asked).symm, fun _ _ => rfl⟩

theorem asks_settle (x : Except ε α) : Asks (settle x : Asking ρ ε α) [] :=
  fun asked => ⟨[], List.prefix_refl _, (List.append_nil asked).symm, fun _ _ => rfl⟩

theorem asks_ask (source : ρ → Except ε τ) (r : ρ) : Asks (ask source r) [r] :=
  fun _ => ⟨[r], List.prefix_refl _, rfl, fun _ _ => rfl⟩

theorem Asks.bind {c : Asking ρ ε α} {f : α → Asking ρ ε β} {rs rs' : List ρ} (hc : c.Asks rs)
    (hf : ∀ a, (f a).Asks rs') : (c >>= f).Asks (rs ++ rs') := by
  intro asked
  obtain ⟨front, hfront, hasked, hall⟩ := hc asked
  rw [run_bind]
  rcases hrun : c.run asked with ⟨_ | a, asked'⟩
  · rw [hrun] at hasked
    exact ⟨front, hfront.trans (List.prefix_append _ _), hasked, fun b hb => by cases hb⟩
  · rw [hrun] at hasked hall
    obtain rfl := hall a rfl
    obtain ⟨front', hfront', hasked', hall'⟩ := hf a asked'
    refine ⟨front ++ front', (List.prefix_append_right_inj front).mpr hfront', ?_, ?_⟩
    · rw [hasked', show asked' = asked ++ front from hasked, List.append_assoc]
    · intro b hb
      rw [hall' b hb]

/-- A result that is known beforehand. -/
theorem asks_settle_bind {x : Except ε α} {a : α} {f : α → Asking ρ ε β} {rs : List ρ}
    (hx : x = .ok a) (hf : (f a).Asks rs) : (settle x >>= f).Asks rs := by
  subst hx
  exact hf

theorem Asks.map {c : Asking ρ ε α} {rs : List ρ} (hc : c.Asks rs) (f : α → β) :
    (f <$> c).Asks rs := by
  rw [← bind_pure_comp, ← List.append_nil rs]
  exact hc.bind fun _ => asks_pure _

theorem Asks.mapM {f : β → Asking ρ ε α} {rs : β → List ρ} (hf : ∀ b, (f b).Asks (rs b))
    (bs : List β) : Asks (bs.mapM f) (bs.flatMap rs) := by
  induction bs with
  | nil => exact asks_pure []
  | cons b bs ih =>
    rw [List.mapM_cons, List.flatMap_cons, ← List.append_nil (bs.flatMap rs)]
    exact (hf b).bind fun _ => ih.bind fun _ => asks_pure _

theorem succeeds_pure {a : α} {ends : α → Prop} (h : ends a) :
    Succeeds (pure a : Asking ρ ε α) ends :=
  fun _ => ⟨a, rfl, h⟩

theorem succeeds_settle_bind {x : Except ε α} {a : α} {f : α → Asking ρ ε β} {ends : β → Prop}
    (hx : x = .ok a) (hf : (f a).Succeeds ends) : (settle x >>= f).Succeeds ends := by
  subst hx
  exact hf

theorem succeeds_ask {source : ρ → Except ε τ} {r : ρ} {t : τ} {ends : τ → Prop}
    (hr : source r = .ok t) (h : ends t) : Succeeds (ask source r) ends :=
  fun _ => ⟨t, hr, h⟩

theorem Succeeds.bind {c : Asking ρ ε α} {f : α → Asking ρ ε β} {ends : α → Prop}
    {ends' : β → Prop} (hc : c.Succeeds ends) (hf : ∀ a, ends a → (f a).Succeeds ends') :
    (c >>= f).Succeeds ends' := by
  intro asked
  obtain ⟨a, ha, hend⟩ := hc asked
  obtain ⟨b, hb, hend'⟩ := hf a hend (c.run asked).2
  refine ⟨b, ?_, hend'⟩
  rw [run_bind]
  rcases hrun : c.run asked with ⟨x, asked'⟩
  rw [hrun] at ha hb
  obtain rfl : x = .ok a := ha
  exact hb

theorem Succeeds.map {c : Asking ρ ε α} {ends : α → Prop} (hc : c.Succeeds ends) (f : α → β) :
    (f <$> c).Succeeds fun _ => True := by
  rw [← bind_pure_comp]
  exact hc.bind fun _ _ => succeeds_pure trivial

theorem Succeeds.mapM {f : β → Asking ρ ε α} {bs : List β}
    (hf : ∀ b ∈ bs, (f b).Succeeds fun _ => True) : Succeeds (bs.mapM f) fun _ => True := by
  induction bs with
  | nil => exact succeeds_pure trivial
  | cons b bs ih =>
    rw [List.mapM_cons]
    refine (hf b List.mem_cons_self).bind fun _ _ => ?_
    refine (ih fun b' hb' => hf b' (List.mem_cons_of_mem _ hb')).bind fun _ _ => ?_
    exact succeeds_pure trivial

/-- What the code gets when it starts. -/
def result (c : Asking ρ ε α) : Except ε α := (c.run []).1

/-- What the code gets does not depend on what has been asked before. -/
def Steady (c : Asking ρ ε α) : Prop := ∀ asked, (c.run asked).1 = c.result

theorem steady_pure (a : α) : Steady (pure a : Asking ρ ε α) := fun _ => rfl

theorem steady_settle (x : Except ε α) : Steady (settle x : Asking ρ ε α) := fun _ => rfl

theorem steady_ask (source : ρ → Except ε τ) (r : ρ) : Steady (ask source r) := fun _ => rfl

theorem result_bind {c : Asking ρ ε α} {f : α → Asking ρ ε β} (hf : ∀ a, (f a).Steady) :
    (c >>= f).result = c.result >>= fun a => (f a).result := by
  unfold result
  rw [run_bind]
  rcases c.run [] with ⟨_ | a, asked⟩
  · rfl
  · exact hf a asked

theorem result_bind_eq_ok {c : Asking ρ ε α} {f : α → Asking ρ ε β} (hf : ∀ a, (f a).Steady)
    {b : β} : (c >>= f).result = .ok b ↔ ∃ a, c.result = .ok a ∧ (f a).result = .ok b := by
  rw [result_bind hf, bind_eq_ok]

theorem Steady.bind {c : Asking ρ ε α} {f : α → Asking ρ ε β} (hc : c.Steady)
    (hf : ∀ a, (f a).Steady) : (c >>= f).Steady := by
  intro asked
  have hx := hc asked
  rw [result_bind hf, run_bind, ← hx]
  rcases c.run asked with ⟨_ | a, asked'⟩
  · rfl
  · exact hf a asked'

theorem Steady.map {c : Asking ρ ε α} (hc : c.Steady) (f : α → β) : (f <$> c).Steady := by
  rw [← bind_pure_comp]
  exact hc.bind fun a => steady_pure (f a)

theorem result_map (c : Asking ρ ε α) (f : α → β) :
    (f <$> c).result = c.result >>= fun a => .ok (f a) := by
  rw [← bind_pure_comp]
  exact result_bind fun a => steady_pure (f a)

theorem Steady.mapM {f : β → Asking ρ ε α} (hf : ∀ b, (f b).Steady) (bs : List β) :
    Steady (bs.mapM f) := by
  induction bs with
  | nil => exact steady_pure []
  | cons b bs ih =>
    rw [List.mapM_cons]
    exact (hf b).bind fun _ => ih.bind fun _ => steady_pure _

theorem result_mapM {f : β → Asking ρ ε α} (hf : ∀ b, (f b).Steady) (bs : List β) :
    Asking.result (bs.mapM f) = bs.mapM fun b => (f b).result := by
  induction bs with
  | nil => rfl
  | cons b bs ih =>
    rw [List.mapM_cons, List.mapM_cons, ← ih, result_bind fun _ =>
      (Steady.mapM hf bs).bind fun _ => steady_pure _]
    refine bind_congr fun a => ?_
    exact result_bind fun _ => steady_pure _

end Asking

end Dlir.Framework
