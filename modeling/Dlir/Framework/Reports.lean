import Dlir.Framework.Always

namespace Dlir.Framework

open Relation

variable {ι μ ω α β : Type}

/-- Whatever the program receives, if it comes to its end then `Q` holds of what it has observed and
of what it returns. -/
def Proc.Reports : Proc ι μ ω α → (List ω → α → Prop) → Prop
  | .ret a, Q => Q [] a
  | .send _ _ k, Q => k.Reports Q
  | .recv _ _ k, Q => ∀ m, (k m).Reports Q
  | .exchange _ _ _ _ k, Q => ∀ m, (k m).Reports Q
  | .emit o k, Q => k.Reports fun os a => Q (o :: os) a

namespace Proc.Reports

variable {p : Proc ι μ ω α} {Q Q' : List ω → α → Prop}

theorem imp (h : p.Reports Q) (himp : ∀ os a, Q os a → Q' os a) : p.Reports Q' := by
  induction p generalizing Q Q' with
  | ret a => exact himp [] a h
  | send dst m k ih => exact ih h himp
  | recv src sel k ih => exact fun m => ih m (h m) himp
  | exchange dst m src sel k ih => exact fun m => ih m (h m) himp
  | emit o k ih => exact ih h fun os a => himp (o :: os) a

theorem bind {f : α → Proc ι μ ω β} {R : List ω → β → Prop} (h : p.Reports Q)
    (hf : ∀ os a, Q os a → (f a).Reports fun os' b => R (os ++ os') b) : (p.bind f).Reports R := by
  induction p generalizing Q R with
  | ret a => exact hf [] a h
  | send dst m k ih => exact ih h hf
  | recv src sel k ih => exact fun m => ih m (h m) hf
  | exchange dst m src sel k ih => exact fun m => ih m (h m) hf
  | emit o k ih => exact ih h fun os a => hf (o :: os) a

theorem and (h : p.Reports Q) (h' : p.Reports Q') : p.Reports fun os a => Q os a ∧ Q' os a := by
  induction p generalizing Q Q' with
  | ret a => exact ⟨h, h'⟩
  | send dst m k ih => exact ih h h'
  | recv src sel k ih => exact fun m => ih m (h m) (h' m)
  | exchange dst m src sel k ih => exact fun m => ih m (h m) (h' m)
  | emit o k ih => exact ih h h'

/-- What holds of all results. -/
theorem of_always {P : α → Prop} (h : Always P p) : p.Reports fun _ a => P a := by
  obtain ⟨y, rfl⟩ := h
  rw [← bind_pure_comp, Proc.bind_eq]
  have hy : y.Reports fun _ _ => True := by
    induction y with
    | ret a => trivial
    | send dst m k ih => exact ih
    | recv src sel k ih => exact fun m => ih m
    | exchange dst m src sel k ih => exact fun m => ih m
    | emit o k ih => exact ih
  exact hy.bind fun _ a _ => a.2

theorem always {P : α → Prop} (h : p.Reports fun _ a => P a) : Always P p := by
  induction p with
  | ret a => exact Always.pure h
  | send dst m k ih =>
    obtain ⟨y, rfl⟩ := ih h
    exact ⟨.send dst m y, rfl⟩
  | recv src sel k ih =>
    choose y hy using fun m => ih m (h m)
    exact ⟨.recv src sel y, congrArg (Proc.recv src sel) (funext hy)⟩
  | exchange dst m src sel k ih =>
    choose y hy using fun m => ih m (h m)
    exact ⟨.exchange dst m src sel y, congrArg (Proc.exchange dst m src sel) (funext hy)⟩
  | emit o k ih =>
    obtain ⟨y, rfl⟩ := ih h
    exact ⟨.emit o y, rfl⟩

section Steps

variable [DecidableEq ι] {box : Mailbox ι μ} {src : ι} {p' : Proc ι μ ω α} {q q' : box.Store}
  {ms ms' : List μ}

omit [DecidableEq ι] in
theorem outgoing (h : p.Reports Q) {dst : ι} {m : μ} (ho : p.outgoing = some (dst, m, p')) :
    p'.Reports Q := by
  cases p with
  | send d x k =>
    obtain ⟨-, -, rfl⟩ := by simpa [Proc.outgoing] using ho
    exact h
  | exchange d x s sel k =>
    obtain ⟨-, -, rfl⟩ := by simpa [Proc.outgoing] using ho
    exact h
  | ret a => cases ho
  | recv s sel k => cases ho
  | emit o k => cases ho

omit [DecidableEq ι] in
theorem incoming (h : p.Reports Q) {sel : Selector μ} {k : μ → Proc ι μ ω α}
    (hi : p.incoming = some (src, sel, k)) (m : μ) : (k m).Reports Q := by
  cases p with
  | recv s g c =>
    obtain ⟨-, -, rfl⟩ := by simpa [Proc.incoming] using hi
    exact h m
  | exchange d x s g c =>
    obtain ⟨-, -, rfl⟩ := by simpa [Proc.incoming] using hi
    exact h m
  | ret a => cases hi
  | send d x c => cases hi
  | emit o c => cases hi

omit [DecidableEq ι] in
theorem receives (h : p.Reports Q) (hr : Receives box src p q ms p' q' ms') : p'.Reports Q := by
  cases hr with
  | stored hi _ => exact h.incoming hi _
  | fresh hi _ _ => exact h.incoming hi _
  | parked _ _ _ => exact h

/-- The programs of a world do what is reported of them along every run. -/
theorem step {cap : ℕ∞} {w w' : World box ω α} (hstep : Step cap w w') {i : ι}
    (h : (w.proc i).Reports fun os a => Q (w.log i ++ os) a) :
    (w'.proc i).Reports fun os a => Q (w'.log i ++ os) a := by
  obtain ⟨label, hfire⟩ := hstep
  cases hfire with
  | @send _ j dst m p ho hcap =>
    by_cases hij : i = j
    · subst hij
      simpa using h.outgoing ho
    · simpa [hij] using h
  | @recv _ j src p q ms hr =>
    by_cases hij : i = j
    · subst hij
      simpa using h.receives hr
    · simpa [hij] using h
  | @hand _ j dst m p p' q hz hne he ho hr =>
    by_cases hid : i = dst
    · subst hid
      simpa using h.receives hr
    · by_cases hij : i = j
      · subst hij
        simpa [hid] using h.outgoing ho
      · simpa [hid, hij] using h
  | @emit _ j o p hp =>
    by_cases hij : i = j
    · subst hij
      rw [hp] at h
      simpa [Proc.Reports] using h
    · simpa [hij] using h

theorem run {cap : ℕ∞} {w w' : World box ω α} (hrun : ReflTransGen (Step cap) w w') {i : ι}
    (h : (w.proc i).Reports fun os a => Q (w.log i ++ os) a) :
    (w'.proc i).Reports fun os a => Q (w'.log i ++ os) a := by
  induction hrun with
  | refl => exact h
  | tail _ hstep ih => exact step hstep ih

/-- What a program has returned in a world that started with empty logs. -/
theorem returned {cap : ℕ∞} {w w' : World box ω α} (hrun : ReflTransGen (Step cap) w w') {i : ι}
    (hlog : w.log i = []) (h : (w.proc i).Reports Q) {a : α} (hend : w'.proc i = .ret a) :
    Q (w'.log i) a := by
  have hlast := run hrun (Q := Q) (by rw [hlog]; exact h)
  rw [hend] at hlast
  simpa [Proc.Reports] using hlast

end Steps

end Proc.Reports

/-- The program can come to its end with this result, if it receives what it needs for it. -/
def Proc.Yields : Proc ι μ ω α → α → Prop
  | .ret a, b => a = b
  | .send _ _ k, b => k.Yields b
  | .recv _ _ k, b => ∃ m, (k m).Yields b
  | .exchange _ _ _ _ k, b => ∃ m, (k m).Yields b
  | .emit _ k, b => k.Yields b

namespace Proc.Yields

variable {p : Proc ι μ ω α} {a : α}

theorem reports (p : Proc ι μ ω α) : p.Reports fun _ a => p.Yields a := by
  induction p with
  | ret a => exact rfl
  | send dst m k ih => exact ih
  | recv src sel k ih => exact fun m => (ih m).imp fun _ a ha => ⟨m, ha⟩
  | exchange dst m src sel k ih => exact fun m => (ih m).imp fun _ a ha => ⟨m, ha⟩
  | emit o k ih => exact ih

/-- What holds of all results holds of each. -/
theorem of_reports {P : α → Prop} (hy : p.Yields a) (h : p.Reports fun _ a => P a) : P a := by
  induction p with
  | ret b =>
    obtain rfl : b = a := hy
    exact h
  | send dst m k ih => exact ih hy h
  | recv src sel k ih =>
    obtain ⟨m, hm⟩ := hy
    exact ih m hm (h m)
  | exchange dst m src sel k ih =>
    obtain ⟨m, hm⟩ := hy
    exact ih m hm (h m)
  | emit o k ih => exact ih hy h

/-- The results that programs of a world come to are among them. -/
theorem of_run [DecidableEq ι] {box : Mailbox ι μ} {cap : ℕ∞} {w w' : World box ω α}
    (hrun : ReflTransGen (Step cap) w w') {i : ι} (hlog : w.log i = [])
    (hend : w'.proc i = .ret a) : (w.proc i).Yields a :=
  Reports.returned hrun hlog (reports _) hend

end Proc.Yields

section Silent

variable {ε γ : Type} {c : ExceptT ε (Proc ι μ ω) β} {P : β → Prop}

/-- The program observes nothing, and if it succeeds then `P` holds of its result. -/
def Silent (c : ExceptT ε (Proc ι μ ω) β) (P : β → Prop) : Prop :=
  c.run.Reports fun os r => os = [] ∧ ∀ b, r = .ok b → P b

namespace Silent

/-- A part of which the result is known. -/
theorem settled {x : Except ε β} (h : ∀ b, x = .ok b → P b) :
    Silent (ExceptT.mk (Pure.pure x) : ExceptT ε (Proc ι μ ω) β) P := ⟨rfl, h⟩

theorem pure {b : β} (h : P b) : Silent (Pure.pure b : ExceptT ε (Proc ι μ ω) β) P := by
  refine ⟨rfl, fun b' hb' => ?_⟩
  obtain rfl := Except.ok.inj hb'
  exact h

theorem throw (e : ε) : Silent (MonadExcept.throw e : ExceptT ε (Proc ι μ ω) β) P :=
  ⟨rfl, fun b hb => by cases hb⟩

theorem bind {f : β → ExceptT ε (Proc ι μ ω) γ} {R : γ → Prop} (h : Silent c P)
    (hf : ∀ b, P b → Silent (f b) R) : Silent (c >>= f) R := by
  unfold Silent
  rw [ExceptT.run_bind]
  refine Proc.Reports.bind h fun os r hr => ?_
  obtain ⟨rfl, hr⟩ := hr
  cases r with
  | ok b => exact hf b (hr b rfl)
  | error e => exact ⟨rfl, fun b hb => by cases hb⟩

theorem foldlM {κ : Type} {f : β → κ → ExceptT ε (Proc ι μ ω) β}
    (h : ∀ b x, P b → Silent (f b x) P) (l : List κ) {b : β} (hb : P b) :
    Silent (l.foldlM f b) P := by
  induction l generalizing b with
  | nil => exact pure hb
  | cons x l ih =>
    rw [List.foldlM_cons]
    exact (h b x hb).bind fun b' hb' => ih hb'

theorem forM {κ : Type} {f : κ → ExceptT ε (Proc ι μ ω) Unit}
    (h : ∀ x, Silent (f x) fun _ => True) (l : List κ) : Silent (l.forM f) fun _ => True := by
  induction l with
  | nil => exact pure trivial
  | cons x l ih => exact (h x).bind fun _ _ => ih

end Silent

end Silent

section Keeps

variable {σ γ : Type} {x : StateT σ (Proc ι μ ω) β} {Rel : σ → List ω → σ → Prop}

/-- What programs do to a state and observe can be put together from what their parts do. -/
structure Composable (Rel : σ → List ω → σ → Prop) : Prop where
  refl : ∀ s, Rel s [] s
  trans : ∀ {s s' s'' os os'}, Rel s os s' → Rel s' os' s'' → Rel s (os ++ os') s''

/-- Whatever the program receives, it changes the state only in this way. -/
def Keeps (Rel : σ → List ω → σ → Prop) (x : StateT σ (Proc ι μ ω) β) : Prop :=
  ∀ s, (x.run s).Reports fun os r => Rel s os r.2

namespace Keeps

variable (hrel : Composable Rel)

include hrel

theorem pure (b : β) : Keeps Rel (Pure.pure b : StateT σ (Proc ι μ ω) β) := fun s => hrel.refl s

theorem bind {f : β → StateT σ (Proc ι μ ω) γ} (h : Keeps Rel x) (hf : ∀ b, Keeps Rel (f b)) :
    Keeps Rel (x >>= f) := by
  intro s
  rw [StateT.run_bind]
  refine (h s).bind fun os r hr => ?_
  exact (hf r.1 r.2).imp fun os' r' hr' => hrel.trans hr hr'

theorem map (f : β → γ) (h : Keeps Rel x) : Keeps Rel (f <$> x) := by
  rw [← bind_pure_comp]
  exact h.bind hrel fun b => pure hrel (f b)

/-- The parts of a program that may fail. -/
theorem bindExcept {ε : Type} {c : ExceptT ε (StateT σ (Proc ι μ ω)) β}
    {f : β → ExceptT ε (StateT σ (Proc ι μ ω)) γ} (h : Keeps Rel c.run)
    (hf : ∀ b, Keeps Rel (f b).run) : Keeps Rel (c >>= f).run := by
  rw [ExceptT.run_bind]
  refine h.bind hrel fun r => ?_
  cases r with
  | ok b => exact hf b
  | error e => exact pure hrel _

theorem lift_silent {ε : Type} {c : ExceptT ε (Proc ι μ ω) β} {P : β → Prop} (h : Silent c P) :
    Keeps Rel (StateT.lift c.run) := by
  intro s
  show Proc.Reports (c.run.bind fun r => .ret (r, s)) _
  refine Proc.Reports.bind h fun os r hr => ?_
  rw [hr.1]
  exact hrel.refl s

end Keeps

end Keeps

section Parts

variable {ε ε' σ : Type}

/-- An observation of a program that keeps a state and may fail. -/
def publish (o : ω) : ExceptT ε (StateT σ (Proc ι μ ω)) Unit :=
  ExceptT.mk (StateT.lift (.emit o (.ret (.ok ()))))

/-- An observation that is made in some cases only. -/
def publishWhen (p : Prop) [Decidable p] (o : ω) : ExceptT ε (StateT σ (Proc ι μ ω)) Unit :=
  if p then publish o else Pure.pure ()

/-- Communication with errors of its own. -/
def converse (wrap : ε' → ε) (x : ExceptT ε' (Proc ι μ ω) β) :
    ExceptT ε (StateT σ (Proc ι μ ω)) β :=
  ExceptT.mk (StateT.lift (Except.mapError wrap <$> x.run))

/-- Passes on the failure of a computation that neither communicates nor observes anything. -/
def settleWith (wrap : ε' → ε) (x : Except ε' β) : ExceptT ε (StateT σ (Proc ι μ ω)) β :=
  ExceptT.mk (Pure.pure (x.mapError wrap))

end Parts

section Achieves

variable {ε σ γ : Type} {c : ExceptT ε (StateT σ (Proc ι μ ω)) β} {s : σ}
  {Q Q' : List ω → β → σ → Prop}

/-- Whatever the program receives, if it succeeds then `Q` holds of what it has observed, of its
result and of the state that it leaves. -/
def Achieves (c : ExceptT ε (StateT σ (Proc ι μ ω)) β) (s : σ) (Q : List ω → β → σ → Prop) : Prop :=
  (c.run.run s).Reports fun os r => ∀ b, r.1 = .ok b → Q os b r.2

namespace Achieves

theorem imp (h : Achieves c s Q) (himp : ∀ os b s', Q os b s' → Q' os b s') : Achieves c s Q' :=
  Proc.Reports.imp h fun os r hr b hb => himp os b r.2 (hr b hb)

theorem pure {b : β} (h : Q [] b s) : Achieves (Pure.pure b : ExceptT ε (StateT σ (Proc ι μ ω)) β) s Q := by
  intro b' hb'
  obtain rfl := Except.ok.inj hb'
  exact h

theorem throw {e : ε} : Achieves (MonadExcept.throw e : ExceptT ε (StateT σ (Proc ι μ ω)) β) s Q := by
  intro b hb
  cases hb

theorem bind {f : β → ExceptT ε (StateT σ (Proc ι μ ω)) γ} {R : List ω → γ → σ → Prop}
    (h : Achieves c s Q)
    (hf : ∀ os b s', Q os b s' → Achieves (f b) s' fun os' => R (os ++ os')) :
    Achieves (c >>= f) s R := by
  unfold Achieves
  rw [ExceptT.run_bind, StateT.run_bind]
  refine Proc.Reports.bind h fun os r hr => ?_
  obtain ⟨result, s'⟩ := r
  cases result with
  | ok b => exact hf os b s' (hr b rfl)
  | error e =>
    intro b hb
    cases hb

theorem settleWith {ε' : Type} {wrap : ε' → ε} {x : Except ε' β} (h : ∀ b, x = .ok b → Q [] b s) :
    Achieves (Framework.settleWith wrap x : ExceptT ε (StateT σ (Proc ι μ ω)) β) s Q := by
  intro b hb
  cases x with
  | ok b' =>
    obtain rfl := Except.ok.inj hb
    exact h _ rfl
  | error e => cases hb

theorem publish {o : ω} {Q : List ω → Unit → σ → Prop} (h : Q [o] () s) :
    Achieves (Framework.publish o : ExceptT ε (StateT σ (Proc ι μ ω)) Unit) s Q := fun _ _ => h

theorem publishWhen {p : Prop} [Decidable p] {o : ω} {Q : List ω → Unit → σ → Prop}
    (h : Q (if p then [o] else []) () s) :
    Achieves (Framework.publishWhen p o : ExceptT ε (StateT σ (Proc ι μ ω)) Unit) s Q := by
  unfold Framework.publishWhen
  split_ifs at h ⊢
  · exact publish h
  · exact pure h

theorem converse {ε' : Type} {wrap : ε' → ε} {x : ExceptT ε' (Proc ι μ ω) β} {P : β → Prop}
    (hx : Silent x P) (h : ∀ b, P b → Q [] b s) :
    Achieves (Framework.converse wrap x : ExceptT ε (StateT σ (Proc ι μ ω)) β) s Q := by
  show Proc.Reports ((Except.mapError wrap <$> x.run).bind fun r => .ret (r, s)) _
  rw [← bind_pure_comp, Proc.bind_eq, Proc.bind_assoc]
  refine Proc.Reports.bind hx fun os r hr b hb => ?_
  obtain ⟨rfl, hr⟩ := hr
  cases r with
  | ok b' =>
    obtain rfl := Except.ok.inj hb
    exact h _ (hr _ rfl)
  | error e => cases hb

/-- A loop that leaves the state alone and observes something for each entry. -/
theorem forM {κ : Type} {f : κ → ExceptT ε (StateT σ (Proc ι μ ω)) Unit} {o : κ → ω}
    (h : ∀ x, Achieves (f x) s fun os _ s' => os = [o x] ∧ s' = s) (l : List κ) :
    Achieves (l.forM f) s fun os _ s' => os = l.map o ∧ s' = s := by
  induction l with
  | nil => exact pure ⟨rfl, rfl⟩
  | cons x l ih =>
    refine (h x).bind fun os _ s' hx => ?_
    obtain ⟨rfl, rfl⟩ := hx
    refine ih.imp fun os' _ s'' hl => ?_
    obtain ⟨rfl, rfl⟩ := hl
    exact ⟨rfl, rfl⟩

/-- A part of which is known only what it does to the state. -/
theorem of_keeps {Rel : σ → List ω → σ → Prop} (h : Keeps Rel c.run)
    (himp : ∀ os b s', Rel s os s' → Q os b s') : Achieves c s Q :=
  (h s).imp fun os r hr b _ => himp os b r.2 hr

end Achieves

end Achieves

end Dlir.Framework
