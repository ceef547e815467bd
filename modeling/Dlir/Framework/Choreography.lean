import Dlir.Framework.Lockstep
import Mathlib.Data.Fintype.Basic
import Mathlib.Data.List.Nodup

namespace Dlir.Framework

open Relation

variable {ι μ ω α β : Type}

/-- One message of a program's side of a conversation. -/
inductive Move (ι μ : Type)
  | get (peer : ι) (m : μ)
  | put (peer : ι) (m : μ)

/-- `Plays moves p os q`: the program `p` makes these moves, observes `os` on the way and
continues as `q`. -/
inductive Plays : List (Move ι μ) → Proc ι μ ω α → List ω → Proc ι μ ω α → Prop
  | done (p : Proc ι μ ω α) : Plays [] p [] p
  | get {i : ι} {m : μ} {sel : Selector μ} {p q : Proc ι μ ω α} {k : μ → Proc ι μ ω α}
      {moves : List (Move ι μ)} {os : List ω} : p.incoming = some (i, sel, k) →
      sel.fresh m = true → Plays moves (k m) os q → Plays (.get i m :: moves) p os q
  | put {i : ι} {m : μ} {p q k : Proc ι μ ω α} {moves : List (Move ι μ)} {os : List ω} :
      p.outgoing = some (i, m, k) → Plays moves k os q → Plays (.put i m :: moves) p os q
  | emit {o : ω} {k q : Proc ι μ ω α} {moves : List (Move ι μ)} {os : List ω} :
      Plays moves k os q → Plays moves (.emit o k) (o :: os) q

namespace Plays

variable {moves moves' : List (Move ι μ)} {os os' : List ω} {p q r : Proc ι μ ω α}

theorem append (h : Plays moves p os q) (h' : Plays moves' q os' r) :
    Plays (moves ++ moves') p (os ++ os') r := by
  induction h with
  | done p => exact h'
  | get hi hf _ ih => exact .get hi hf (ih h')
  | put ho _ ih => exact .put ho (ih h')
  | emit _ ih => exact .emit (ih h')

theorem bind (h : Plays moves p os q) (f : α → Proc ι μ ω β) :
    Plays moves (p.bind f) os (q.bind f) := by
  induction h with
  | done p => exact .done _
  | @get i m sel p q k moves os hi hf _ ih =>
    refine .get (k := fun v => (k v).bind f) ?_ hf ih
    cases p with
    | recv s g c => simp only [Proc.incoming, Option.some.injEq, Prod.mk.injEq] at hi; simp [Proc.incoming, hi]
    | exchange d x s g c =>
      simp only [Proc.incoming, Option.some.injEq, Prod.mk.injEq] at hi
      obtain ⟨rfl, rfl, rfl⟩ := hi
      rfl
    | ret a => simp [Proc.incoming] at hi
    | send d x c => simp [Proc.incoming] at hi
    | emit o c => simp [Proc.incoming] at hi
  | @put i m p q k moves os ho _ ih =>
    refine .put (k := k.bind f) ?_ ih
    cases p with
    | send d x c =>
      simp only [Proc.outgoing, Option.some.injEq, Prod.mk.injEq] at ho
      obtain ⟨rfl, rfl, rfl⟩ := ho
      rfl
    | exchange d x s g c =>
      simp only [Proc.outgoing, Option.some.injEq, Prod.mk.injEq] at ho
      obtain ⟨rfl, rfl, rfl⟩ := ho
      rfl
    | ret a => simp [Proc.outgoing] at ho
    | recv s g c => simp [Proc.outgoing] at ho
    | emit o c => simp [Proc.outgoing] at ho
  | emit _ ih => exact .emit ih

/-- Sequential composition: the second program starts from the result of the first. -/
theorem seq {a : α} {f : α → Proc ι μ ω β} {t : Proc ι μ ω β} (h : Plays moves p os (.ret a))
    (h' : Plays moves' (f a) os' t) : Plays (moves ++ moves') (p.bind f) (os ++ os') t :=
  (h.bind f).append h'

end Plays

variable [DecidableEq ι]

/-- The moves of one endpoint in a list of messages given by sender, receiver and content. -/
def project (i : ι) : List (ι × ι × μ) → List (Move ι μ)
  | [] => []
  | (a, b, m) :: trace =>
    if i = a then .put b m :: project i trace
    else if i = b then .get a m :: project i trace
    else project i trace

@[simp] theorem project_nil (i : ι) : project i ([] : List (ι × ι × μ)) = [] := rfl

theorem project_append (i : ι) (xs ys : List (ι × ι × μ)) :
    project i (xs ++ ys) = project i xs ++ project i ys := by
  induction xs with
  | nil => rfl
  | cons x xs ih =>
    obtain ⟨a, b, m⟩ := x
    simp only [List.cons_append, project, ih]
    split_ifs <;> simp

theorem project_eq_nil {i : ι} {trace : List (ι × ι × μ)}
    (h : ∀ x ∈ trace, i ≠ x.1 ∧ i ≠ x.2.1) : project i trace = [] := by
  induction trace with
  | nil => rfl
  | cons x xs ih =>
    obtain ⟨a, b, m⟩ := x
    have hx := h (a, b, m) (by simp)
    simp only [project, hx.1, hx.2, if_false]
    exact ih fun y hy => h y (List.mem_cons_of_mem _ hy)

/-- Messages of several senders to one receiver. -/
def gatherTrace (root : ι) (srcs : List ι) (m : ι → μ) : List (ι × ι × μ) :=
  srcs.map fun s => (s, root, m s)

/-- Messages of one sender to several receivers. -/
def scatterTrace (root : ι) (dsts : List ι) (m : ι → μ) : List (ι × ι × μ) :=
  dsts.map fun d => (root, d, m d)

theorem project_gather_root {root : ι} {srcs : List ι} (m : ι → μ) (h : root ∉ srcs) :
    project root (gatherTrace root srcs m) = srcs.map fun s => .get s (m s) := by
  induction srcs with
  | nil => rfl
  | cons s srcs ih =>
    simp only [List.mem_cons, not_or] at h
    simp only [gatherTrace, List.map_cons, project, h.1, if_false, if_true] at ih ⊢
    rw [ih h.2]

theorem project_gather_peer {root i : ι} {srcs : List ι} (m : ι → μ) (hnd : srcs.Nodup)
    (hi : i ∈ srcs) (hne : i ≠ root) :
    project i (gatherTrace root srcs m) = [.put root (m i)] := by
  induction srcs with
  | nil => simp at hi
  | cons s srcs ih =>
    obtain ⟨hs, hnd'⟩ := List.nodup_cons.mp hnd
    by_cases his : i = s
    · subst his
      have hrest : project i (gatherTrace root srcs m) = [] := by
        refine project_eq_nil fun x hx => ?_
        obtain ⟨t, ht, rfl⟩ := List.mem_map.mp hx
        exact ⟨fun h => hs (h ▸ ht), hne⟩
      simp only [gatherTrace, List.map_cons, project, if_true] at hrest ⊢
      rw [hrest]
    · have hmem : i ∈ srcs := (List.mem_cons.mp hi).resolve_left his
      simpa only [gatherTrace, List.map_cons, project, his, hne, if_false] using ih hnd' hmem

theorem project_scatter_root {root : ι} {dsts : List ι} (m : ι → μ) :
    project root (scatterTrace root dsts m) = dsts.map fun d => .put d (m d) := by
  induction dsts with
  | nil => rfl
  | cons d dsts ih =>
    simp only [scatterTrace, List.map_cons, project, if_true] at ih ⊢
    rw [ih]

theorem project_scatter_peer {root i : ι} {dsts : List ι} (m : ι → μ) (hnd : dsts.Nodup)
    (hi : i ∈ dsts) (hne : i ≠ root) :
    project i (scatterTrace root dsts m) = [.get root (m i)] := by
  induction dsts with
  | nil => simp at hi
  | cons d dsts ih =>
    obtain ⟨hd, hnd'⟩ := List.nodup_cons.mp hnd
    by_cases hid : i = d
    · subst hid
      have hrest : project i (scatterTrace root dsts m) = [] := by
        refine project_eq_nil fun x hx => ?_
        obtain ⟨t, ht, rfl⟩ := List.mem_map.mp hx
        exact ⟨hne, fun h => hd (h ▸ ht)⟩
      simp only [scatterTrace, List.map_cons, project, hne, if_false, if_true] at hrest ⊢
      rw [hrest]
    · have hmem : i ∈ dsts := (List.mem_cons.mp hi).resolve_left hid
      simpa only [scatterTrace, List.map_cons, project, hid, hne, if_false] using ih hnd' hmem

/-- Without moves a program makes its observations alone. -/
theorem Plays.solo {os : List ω} {s : Snapshot ι μ ω α} {i : ι} {q : Proc ι μ ω α}
    (h : Plays [] (s.proc i) os q) :
    Meets s ⟨Function.update s.proc i q, Function.update s.log i (s.log i ++ os)⟩ := by
  generalize hp : s.proc i = p at h
  generalize hm : ([] : List (Move ι μ)) = moves at h
  induction h generalizing s with
  | done p =>
    rw [← hp]
    simpa using ReflTransGen.refl
  | get => cases hm
  | put => cases hm
  | @emit o k q moves os hrest ih =>
    refine .head (.emit hp) ?_
    simpa using ih (s := ⟨Function.update s.proc i k,
      Function.update s.log i (s.log i ++ [o])⟩) (by simp) hm

/-- A program with a message to send comes to the point of sending it. -/
theorem Plays.until_put {j : ι} {m : μ} {moves : List (Move ι μ)} {os : List ω}
    {s : Snapshot ι μ ω α} {i : ι} {q : Proc ι μ ω α}
    (h : Plays (.put j m :: moves) (s.proc i) os q) :
    ∃ p k os1 os2, os = os1 ++ os2 ∧ p.outgoing = some (j, m, k) ∧ Plays moves k os2 q ∧
      Meets s ⟨Function.update s.proc i p, Function.update s.log i (s.log i ++ os1)⟩ := by
  generalize hp : s.proc i = p at h
  generalize hm : Move.put j m :: moves = ms at h
  induction h generalizing s with
  | done p => cases hm
  | get => cases hm
  | @put j' m' p q k moves' os ho hrest _ =>
    cases hm
    refine ⟨p, k, [], os, rfl, ho, hrest, ?_⟩
    rw [← hp]
    simpa using ReflTransGen.refl
  | @emit o k q moves' os hrest ih =>
    obtain ⟨p, k', os1, os2, rfl, ho, hplay, hmeets⟩ := ih (s := ⟨Function.update s.proc i k,
      Function.update s.log i (s.log i ++ [o])⟩) (by simp) hm
    refine ⟨p, k', o :: os1, os2, rfl, ho, hplay, .head (.emit hp) ?_⟩
    simpa using hmeets

/-- A program with a message to receive comes to the point of waiting for it. -/
theorem Plays.until_get {j : ι} {m : μ} {moves : List (Move ι μ)} {os : List ω}
    {s : Snapshot ι μ ω α} {i : ι} {q : Proc ι μ ω α}
    (h : Plays (.get j m :: moves) (s.proc i) os q) :
    ∃ p sel k os1 os2, os = os1 ++ os2 ∧ p.incoming = some (j, sel, k) ∧ sel.fresh m = true ∧
      Plays moves (k m) os2 q ∧
      Meets s ⟨Function.update s.proc i p, Function.update s.log i (s.log i ++ os1)⟩ := by
  generalize hp : s.proc i = p at h
  generalize hm : Move.get j m :: moves = ms at h
  induction h generalizing s with
  | done p => cases hm
  | put => cases hm
  | @get j' m' sel p q k moves' os hi hf hrest _ =>
    cases hm
    refine ⟨p, sel, k, [], os, rfl, hi, hf, hrest, ?_⟩
    rw [← hp]
    simpa using ReflTransGen.refl
  | @emit o k q moves' os hrest ih =>
    obtain ⟨p, sel, k', os1, os2, rfl, hi, hf, hplay, hmeets⟩ := ih (s := ⟨Function.update s.proc i k,
      Function.update s.log i (s.log i ++ [o])⟩) (by simp) hm
    refine ⟨p, sel, k', o :: os1, os2, rfl, hi, hf, hplay, .head (.emit hp) ?_⟩
    simpa using hmeets

theorem meets_solo [Fintype ι] {s : Snapshot ι μ ω α} (q : ι → Proc ι μ ω α) (os : ι → List ω)
    (h : ∀ i, Plays [] (s.proc i) (os i) (q i)) : Meets s ⟨q, fun i => s.log i ++ os i⟩ := by
  have hall : ∀ is : List ι, is.Nodup → Meets s ⟨fun i => if i ∈ is then q i else s.proc i,
      fun i => if i ∈ is then s.log i ++ os i else s.log i⟩ := by
    intro is hnd
    induction is with
    | nil => simpa using ReflTransGen.refl
    | cons i is ih =>
      obtain ⟨hi, hnd'⟩ := List.nodup_cons.mp hnd
      refine (ih hnd').trans ?_
      have hone := Plays.solo (s := ⟨fun j => if j ∈ is then q j else s.proc j,
        fun j => if j ∈ is then s.log j ++ os j else s.log j⟩) (i := i) (by simpa [hi] using h i)
      convert hone using 2
      · funext j
        by_cases hj : j = i <;> simp [hj]
      · funext j
        by_cases hj : j = i
        · subst hj
          simp [hi]
        · simp [hj]
  simpa using hall (Finset.univ : Finset ι).toList (Finset.nodup_toList _)

/-- If every program plays its side of one list of messages, they can be run in that order. -/
theorem meets_choreography [Fintype ι] {s : Snapshot ι μ ω α} (trace : List (ι × ι × μ))
    (q : ι → Proc ι μ ω α) (os : ι → List ω) (hne : ∀ x ∈ trace, x.1 ≠ x.2.1)
    (h : ∀ i, Plays (project i trace) (s.proc i) (os i) (q i)) :
    Meets s ⟨q, fun i => s.log i ++ os i⟩ := by
  induction trace generalizing s os with
  | nil => exact meets_solo q os h
  | cons x trace ih =>
    obtain ⟨a, b, m⟩ := x
    have hab : a ≠ b := hne (a, b, m) (by simp)
    have ha : Plays (.put b m :: project a trace) (s.proc a) (os a) (q a) := by
      simpa [project] using h a
    have hb : Plays (.get a m :: project b trace) (s.proc b) (os b) (q b) := by
      simpa [project, hab.symm] using h b
    obtain ⟨pa, ka, osa, osa', hosa, hout, hplaya, hmeeta⟩ := ha.until_put
    obtain ⟨pb, sel, kb, osb, osb', hosb, hin, hf, hplayb, hmeetb⟩ := Plays.until_get
      (s := ⟨Function.update s.proc a pa, Function.update s.log a (s.log a ++ osa)⟩) (i := b)
      (by simpa [Function.update_of_ne hab.symm] using hb)
    refine hmeeta.trans (hmeetb.trans (.head (.comm hab (by simpa [hab] using hout)
      (by simpa using hin) hf) ?_))
    have hrest := ih (s := ⟨Function.update (Function.update s.proc a ka) b (kb m),
      Function.update (Function.update s.log a (s.log a ++ osa)) b (s.log b ++ osb)⟩)
      (Function.update (Function.update os a osa') b osb')
      (fun y hy => hne y (List.mem_cons_of_mem _ hy)) ?_
    · convert hrest using 2
      · funext i
        by_cases hib : i = b
        · subst hib
          simp
        · by_cases hia : i = a
          · subst hia
            simp [hib]
          · simp [hib, hia]
      · simp [Function.update_of_ne hab.symm]
      · funext i
        by_cases hib : i = b
        · subst hib
          simp [hosb]
        · by_cases hia : i = a
          · subst hia
            simp [hib, hosa]
          · simp [hib, hia]
    · intro i
      by_cases hib : i = b
      · subst hib
        simpa using hplayb
      · by_cases hia : i = a
        · subst hia
          simpa [hib] using hplaya
        · have hi := h i
          simp only [project, hia, hib, if_false] at hi
          simpa [hib, hia] using hi

end Dlir.Framework
