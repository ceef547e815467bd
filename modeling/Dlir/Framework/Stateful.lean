import Dlir.Framework.Fallible

namespace Dlir.Framework

variable {ι μ ω ε σ β γ : Type} [DecidableEq ι]

/-- Programs with a local state that survives failure run together to these results. -/
abbrev TogetherSt (c : ι → ExceptT ε (StateT σ (Proc ι μ ω)) β) (st : ι → σ) (os : ι → List ω)
    (res : ι → Except ε β) (st' : ι → σ) : Prop :=
  Together (fun i => (c i).run.run (st i)) os fun i => (res i, st' i)

namespace TogetherSt

variable {c : ι → ExceptT ε (StateT σ (Proc ι μ ω)) β} {st st' st'' : ι → σ} {os os' : ι → List ω}

theorem pure (b : ι → β) (st : ι → σ) :
    TogetherSt (fun i => (pure (b i) : ExceptT ε (StateT σ (Proc ι μ ω)) β)) st (fun _ => [])
      (fun i => .ok (b i)) st := Together.ret _

omit [DecidableEq ι] in
theorem run_bind (x : ExceptT ε (StateT σ (Proc ι μ ω)) β)
    (f : β → ExceptT ε (StateT σ (Proc ι μ ω)) γ) (s : σ) :
    (x >>= f).run.run s = (x.run.run s).bind fun r =>
      match r.1 with
      | .ok b => (f b).run.run r.2
      | .error e => .ret (.error e, r.2) := by
  rw [ExceptT.run_bind, StateT.run_bind]
  refine congrArg (Proc.bind _) (funext fun r => ?_)
  obtain ⟨res, s'⟩ := r
  cases res <;> rfl

theorem bind {b : ι → β} {f : ι → β → ExceptT ε (StateT σ (Proc ι μ ω)) γ}
    {res : ι → Except ε γ} (h : TogetherSt c st os (fun i => .ok (b i)) st')
    (h' : TogetherSt (fun i => f i (b i)) st' os' res st'') :
    TogetherSt (fun i => c i >>= f i) st (fun i => os i ++ os' i) res st'' := by
  unfold TogetherSt
  simp only [run_bind]
  exact Together.bind h h'

theorem andThen {b : ι → β} {f : ι → β → ExceptT ε (StateT σ (Proc ι μ ω)) γ}
    {res : ι → Except ε γ} (h : TogetherSt c st (fun _ => []) (fun i => .ok (b i)) st')
    (h' : TogetherSt (fun i => f i (b i)) st' os res st'') :
    TogetherSt (fun i => c i >>= f i) st os res st'' := h.bind h'

/-- Sequential composition after a part with one observation. -/
theorem observed {o : ι → ω} {b : ι → β} {f : ι → β → ExceptT ε (StateT σ (Proc ι μ ω)) γ}
    {res : ι → Except ε γ} (h : TogetherSt c st (fun i => [o i]) (fun i => .ok (b i)) st')
    (h' : TogetherSt (fun i => f i (b i)) st' os res st'') :
    TogetherSt (fun i => c i >>= f i) st (fun i => o i :: os i) res st'' := h.bind h'

/-- What follows a failure everywhere is not run. -/
theorem fail {e : ι → ε} (f : ι → β → ExceptT ε (StateT σ (Proc ι μ ω)) γ)
    (h : TogetherSt c st os (fun i => .error (e i)) st') :
    TogetherSt (fun i => c i >>= f i) st os (fun i => .error (e i)) st' := by
  unfold TogetherSt
  simp only [run_bind]
  have hend := Together.bind h (f := fun i r => match r.1 with
      | .ok b => (f i b).run.run r.2
      | .error e => .ret (.error e, r.2))
    (Together.ret fun i => ((.error (e i) : Except ε γ), st' i))
  simpa using hend

/-- A part that does not touch the state. -/
theorem lift {x : ι → ExceptT ε (Proc ι μ ω) β} {res : ι → Except ε β}
    (h : Together (fun i => (x i).run) os res) (st : ι → σ) :
    TogetherSt (fun i => ExceptT.mk (StateT.lift (x i).run)) st os res st := by
  have hend := Together.bind h (f := fun i r => .ret (r, st i))
    (Together.ret fun i => (res i, st i))
  simp only [List.append_nil] at hend
  exact hend

theorem map (f : β → γ) {res : ι → Except ε β} (h : TogetherSt c st os res st') :
    TogetherSt (fun i => f <$> c i) st os (fun i => (res i).map f) st' := by
  unfold TogetherSt
  simp only [map_eq_pure_bind, run_bind]
  have hend := Together.bind h (f := fun _ r => match r.1 with
      | .ok b => (Pure.pure (f b) : ExceptT ε (StateT σ (Proc ι μ ω)) γ).run.run r.2
      | .error e => .ret (.error e, r.2))
    (by
      have hret : (fun i => (match res i with
          | .ok b => (Pure.pure (f b) : ExceptT ε (StateT σ (Proc ι μ ω)) γ).run.run (st' i)
          | .error e => .ret (.error e, st' i))) =
          fun i => (.ret ((res i).map f, st' i) : Proc ι μ ω _) := by
        funext i
        cases res i <;> rfl
      rw [hret]
      exact Together.ret _)
  simp only [List.append_nil] at hend
  exact hend

theorem map_ok (f : β → γ) {b : ι → β} (h : TogetherSt c st os (fun i => .ok (b i)) st') :
    TogetherSt (fun i => f <$> c i) st os (fun i => .ok (f (b i))) st' := h.map f

theorem map_error (f : β → γ) {e : ι → ε} (h : TogetherSt c st os (fun i => .error (e i)) st') :
    TogetherSt (fun i => f <$> c i) st os (fun i => .error (e i)) st' := h.map f

end TogetherSt

end Dlir.Framework
