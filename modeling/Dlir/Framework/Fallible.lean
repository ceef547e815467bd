import Dlir.Framework.Together

namespace Dlir.Framework

variable {ι μ ω ε σ β γ : Type}

/-- A program over `Proc` that may fail succeeds with `b` after these moves. -/
abbrev PlaysOk (moves : List (Move ι μ)) (c : ExceptT ε (Proc ι μ ω) β) (os : List ω)
    (b : β) : Prop := Plays moves c.run os (.ret (.ok b))

theorem PlaysOk.pure (b : β) :
    PlaysOk [] (pure b : ExceptT ε (Proc ι μ ω) β) ([] : List ω) b := .done _

theorem PlaysOk.bind {moves moves' : List (Move ι μ)} {os os' : List ω}
    {c : ExceptT ε (Proc ι μ ω) β} {f : β → ExceptT ε (Proc ι μ ω) γ} {b : β} {d : γ}
    (h : PlaysOk moves c os b) (h' : PlaysOk moves' (f b) os' d) :
    PlaysOk (moves ++ moves') (c >>= f) (os ++ os') d := by
  unfold PlaysOk
  rw [ExceptT.run_bind]
  exact h.seq h'

/-- Sequential composition after a part without moves and observations. -/
theorem PlaysOk.andThen {moves : List (Move ι μ)} {os : List ω}
    {c : ExceptT ε (Proc ι μ ω) β} {f : β → ExceptT ε (Proc ι μ ω) γ} {b : β} {d : γ}
    (h : PlaysOk [] c [] b) (h' : PlaysOk moves (f b) os d) : PlaysOk moves (c >>= f) os d :=
  h.bind h'

/-- Sequential composition with a part without moves and observations. -/
theorem PlaysOk.andLast {moves : List (Move ι μ)} {os : List ω}
    {c : ExceptT ε (Proc ι μ ω) β} {f : β → ExceptT ε (Proc ι μ ω) γ} {b : β} {d : γ}
    (h : PlaysOk moves c os b) (h' : PlaysOk [] (f b) [] d) : PlaysOk moves (c >>= f) os d := by
  simpa using h.bind h'

/-- Sequential composition of two parts that observe nothing. -/
theorem PlaysOk.append {moves moves' : List (Move ι μ)}
    {c : ExceptT ε (Proc ι μ ω) β} {f : β → ExceptT ε (Proc ι μ ω) γ} {b : β} {d : γ}
    (h : PlaysOk moves c [] b) (h' : PlaysOk moves' (f b) [] d) :
    PlaysOk (moves ++ moves') (c >>= f) [] d := h.bind h'

/-- The program fails with `e` after these moves. -/
abbrev PlaysError (moves : List (Move ι μ)) (c : ExceptT ε (Proc ι μ ω) β) (os : List ω)
    (e : ε) : Prop := Plays moves c.run os (.ret (.error e))

theorem PlaysError.bind {moves : List (Move ι μ)} {os : List ω}
    {c : ExceptT ε (Proc ι μ ω) β} {e : ε} (h : PlaysError moves c os e)
    (f : β → ExceptT ε (Proc ι μ ω) γ) : PlaysError moves (c >>= f) os e := by
  unfold PlaysError
  rw [ExceptT.run_bind]
  exact Plays.bind h _

theorem PlaysOk.andError {moves : List (Move ι μ)} {os : List ω}
    {c : ExceptT ε (Proc ι μ ω) β} {f : β → ExceptT ε (Proc ι μ ω) γ} {b : β} {e : ε}
    (h : PlaysOk [] c [] b) (h' : PlaysError moves (f b) os e) :
    PlaysError moves (c >>= f) os e := by
  unfold PlaysError
  rw [ExceptT.run_bind]
  exact Plays.seq h h'

theorem PlaysOk.lastError {moves : List (Move ι μ)} {os : List ω}
    {c : ExceptT ε (Proc ι μ ω) β} {f : β → ExceptT ε (Proc ι μ ω) γ} {b : β} {e : ε}
    (h : PlaysOk moves c os b) (h' : PlaysError [] (f b) [] e) :
    PlaysError moves (c >>= f) os e := by
  unfold PlaysError
  rw [ExceptT.run_bind, ← List.append_nil moves, ← List.append_nil os]
  exact Plays.seq h h'

/-- A loop with one move in each round. -/
theorem PlaysOk.foldlM {κ : Type} {f : β → κ → ExceptT ε (Proc ι μ ω) β} (g : β → κ → β)
    (move : κ → Move ι μ) (inv : β → Prop) {l : List κ}
    (hstep : ∀ b, inv b → ∀ x ∈ l, PlaysOk [move x] (f b x) ([] : List ω) (g b x) ∧ inv (g b x))
    {b : β} (hb : inv b) :
    PlaysOk (l.map move) (l.foldlM f b) ([] : List ω) (l.foldl g b) := by
  induction l generalizing b with
  | nil => exact PlaysOk.pure b
  | cons x l ih =>
    obtain ⟨hp, hi⟩ := hstep b hb x (by simp)
    rw [List.foldlM_cons, List.foldl_cons, List.map_cons]
    exact hp.bind (ih (fun b hb y hy => hstep b hb y (List.mem_cons_of_mem _ hy)) hi)

variable [DecidableEq ι]

/-- Programs that may fail run together and all succeed. -/
abbrev TogetherOk (c : ι → ExceptT ε (Proc ι μ ω) β) (os : ι → List ω) (b : ι → β) : Prop :=
  Together (fun i => (c i).run) os fun i => .ok (b i)

theorem TogetherOk.pure (b : ι → β) :
    TogetherOk (fun i => (pure (b i) : ExceptT ε (Proc ι μ ω) β)) (fun _ => []) b :=
  Together.ret _

theorem TogetherOk.bind {c : ι → ExceptT ε (Proc ι μ ω) β} {os os' : ι → List ω} {b : ι → β}
    {f : ι → β → ExceptT ε (Proc ι μ ω) γ} {d : ι → γ} (h : TogetherOk c os b)
    (h' : TogetherOk (fun i => f i (b i)) os' d) :
    TogetherOk (fun i => c i >>= f i) (fun i => os i ++ os' i) d := by
  unfold TogetherOk
  simp only [ExceptT.run_bind]
  exact Together.bind h h'

/-- Sequential composition after a part that observes nothing. -/
theorem TogetherOk.andThen {c : ι → ExceptT ε (Proc ι μ ω) β} {os : ι → List ω} {b : ι → β}
    {f : ι → β → ExceptT ε (Proc ι μ ω) γ} {d : ι → γ} (h : TogetherOk c (fun _ => []) b)
    (h' : TogetherOk (fun i => f i (b i)) os d) : TogetherOk (fun i => c i >>= f i) os d :=
  h.bind h'

/-- The same loop on every endpoint, in step. -/
theorem TogetherOk.foldlM {κ : Type} {f : ι → β → κ → ExceptT ε (Proc ι μ ω) β}
    (state : Nat → ι → β) (l : List κ) (start : Nat)
    (hstep : ∀ n (h : n < l.length),
      TogetherOk (fun i => f i (state (start + n) i) (l.get ⟨n, h⟩)) (fun _ => [])
        (state (start + n + 1))) :
    TogetherOk (fun i => l.foldlM (f i) (state start i)) (fun _ => [])
      (state (start + l.length)) := by
  induction l generalizing start with
  | nil => exact TogetherOk.pure _
  | cons x l ih =>
    have h0 := hstep 0 (by simp)
    have hrest := ih (start + 1) fun n h => by
      have hn := hstep (n + 1) (by simpa using h)
      rw [show start + (n + 1) = start + 1 + n by omega] at hn
      exact hn
    rw [show start + 1 + l.length = start + (x :: l).length by simp; omega] at hrest
    exact TogetherOk.bind (f := fun i b => l.foldlM (f i) b) h0 hrest

theorem TogetherOk.foldlM_range' {f : ι → β → Nat → ExceptT ε (Proc ι μ ω) β}
    {state : Nat → ι → β} (first count : Nat)
    (hstep : ∀ n < count,
      TogetherOk (fun i => f i (state n i) (first + n)) (fun _ => []) (state (n + 1))) :
    TogetherOk (fun i => (List.range' first count).foldlM (f i) (state 0 i)) (fun _ => [])
      (state count) := by
  have h := TogetherOk.foldlM (f := f) state (List.range' first count) 0 fun n hn => by
    simpa using hstep n (by simpa using hn)
  simpa using h

end Dlir.Framework
