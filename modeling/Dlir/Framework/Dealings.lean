import Dlir.Framework.Accounting
import Dlir.Framework.Interleaving
import Dlir.Framework.Scripts

namespace Dlir.Framework

open Relation

variable {ι μ ω α β : Type}

/-- What a program has done: the messages that it has sent and taken, with their peers, and what it
has observed. -/
@[ext] structure Dealings (ι μ ω : Type) where
  sent : List (ι × μ)
  taken : List (ι × μ)
  seen : List ω

namespace Dealings

def none : Dealings ι μ ω := ⟨[], [], []⟩

instance : Append (Dealings ι μ ω) :=
  ⟨fun d e => ⟨d.sent ++ e.sent, d.taken ++ e.taken, d.seen ++ e.seen⟩⟩

variable (d e f : Dealings ι μ ω)

@[simp] theorem sent_append : (d ++ e).sent = d.sent ++ e.sent := rfl
@[simp] theorem taken_append : (d ++ e).taken = d.taken ++ e.taken := rfl
@[simp] theorem seen_append : (d ++ e).seen = d.seen ++ e.seen := rfl

@[simp] theorem append_none : d ++ none = d := by ext1 <;> exact List.append_nil _

theorem append_assoc : d ++ e ++ f = d ++ (e ++ f) := by ext1 <;> exact List.append_assoc _ _ _

/-- One message and one observation for each entry. -/
theorem foldr_send {κ : Type} (message : κ → ι × μ) (shown : κ → ω) (xs : List κ) :
    (xs.map fun x => (⟨[message x], [], [shown x]⟩ : Dealings ι μ ω)).foldr (· ++ ·) none =
      ⟨xs.map message, [], xs.map shown⟩ := by
  induction xs with
  | nil => rfl
  | cons x xs ih =>
    rw [List.map_cons, List.foldr_cons, ih]
    rfl

end Dealings

/-- The messages that a receive can return. -/
def Selector.Accepts (sel : Selector μ) (m : μ) : Prop := sel.stored m = true ∨ sel.fresh m = true

/-- Whatever the program receives of what it asks for, if it comes to its end then `Q` holds of what it
has done and of what it returns. -/
def Proc.Deals : Proc ι μ ω α → (Dealings ι μ ω → α → Prop) → Prop
  | .ret a, Q => Q .none a
  | .send dst m k, Q => k.Deals fun d a => Q (⟨[(dst, m)], [], []⟩ ++ d) a
  | .recv src sel k, Q => ∀ m, sel.Accepts m →
      (k m).Deals fun d a => Q (⟨[], [(src, m)], []⟩ ++ d) a
  | .exchange dst m src sel k, Q => ∀ m', sel.Accepts m' →
      (k m').Deals fun d a => Q (⟨[(dst, m)], [(src, m')], []⟩ ++ d) a
  | .emit o k, Q => k.Deals fun d a => Q (⟨[], [], [o]⟩ ++ d) a

namespace Proc.Deals

variable {p : Proc ι μ ω α} {Q Q' : Dealings ι μ ω → α → Prop}

theorem imp (h : p.Deals Q) (himp : ∀ d a, Q d a → Q' d a) : p.Deals Q' := by
  induction p generalizing Q Q' with
  | ret a => exact himp _ a h
  | send dst m k ih => exact ih h fun d => himp _
  | recv src sel k ih => exact fun m hm => ih m (h m hm) fun d => himp _
  | exchange dst m src sel k ih => exact fun m' hm => ih m' (h m' hm) fun d => himp _
  | emit o k ih => exact ih h fun d => himp _

theorem bind {f : α → Proc ι μ ω β} {R : Dealings ι μ ω → β → Prop} (h : p.Deals Q)
    (hf : ∀ d a, Q d a → (f a).Deals fun e b => R (d ++ e) b) : (p.bind f).Deals R := by
  induction p generalizing Q R with
  | ret a => exact hf _ a h
  | send dst m k ih =>
    refine ih h fun d a hd => (hf _ a hd).imp fun e b he => ?_
    rwa [Dealings.append_assoc] at he
  | recv src sel k ih =>
    refine fun m hm => ih m (h m hm) fun d a hd => (hf _ a hd).imp fun e b he => ?_
    rwa [Dealings.append_assoc] at he
  | exchange dst m src sel k ih =>
    refine fun m' hm => ih m' (h m' hm) fun d a hd => (hf _ a hd).imp fun e b he => ?_
    rwa [Dealings.append_assoc] at he
  | emit o k ih =>
    refine ih h fun d a hd => (hf _ a hd).imp fun e b he => ?_
    rwa [Dealings.append_assoc] at he

theorem of_forall (p : Proc ι μ ω α) (h : ∀ d a, Q d a) : p.Deals Q := by
  induction p generalizing Q with
  | ret a => exact h _ a
  | send dst m k ih => exact ih fun d => h _
  | recv src sel k ih => exact fun m _ => ih m fun d => h _
  | exchange dst m src sel k ih => exact fun m' _ => ih m' fun d => h _
  | emit o k ih => exact ih fun d => h _

variable {dst src : ι} {m : μ} {p' : Proc ι μ ω α}

theorem outgoing (h : p.Deals Q) (ho : p.outgoing = some (dst, m, p')) :
    p'.Deals fun d a => Q (⟨[(dst, m)], [], []⟩ ++ d) a := by
  cases p with
  | send d x k =>
    obtain ⟨rfl, rfl, rfl⟩ := by simpa [Proc.outgoing] using ho
    exact h
  | exchange d x s sel k =>
    obtain ⟨rfl, rfl, rfl⟩ := by simpa [Proc.outgoing] using ho
    exact h
  | ret a => cases ho
  | recv s sel k => cases ho
  | emit o k => cases ho

theorem incoming (h : p.Deals Q) {sel : Selector μ} {k : μ → Proc ι μ ω α}
    (hi : p.incoming = some (src, sel, k)) (hm : sel.Accepts m) :
    (k m).Deals fun d a => Q (⟨[], [(src, m)], []⟩ ++ d) a := by
  cases p with
  | recv s g c =>
    obtain ⟨rfl, rfl, rfl⟩ := by simpa [Proc.incoming] using hi
    exact h m hm
  | exchange d x s g c =>
    obtain ⟨rfl, rfl, rfl⟩ := by simpa [Proc.incoming] using hi
    exact h m hm
  | ret a => cases hi
  | send d x c => cases hi
  | emit o c => cases hi

end Proc.Deals

/-- Conditions that always hold are met by any program. -/
theorem Proc.sound_of_forall {sends : ι → μ → Prop} {receives : ι → Selector μ → Prop}
    (hsends : ∀ i m, sends i m) (hreceives : ∀ i sel, receives i sel) (p : Proc ι μ ω α) :
    p.Sound sends receives := by
  induction p with
  | ret a => trivial
  | send dst m k ih => exact ⟨hsends dst m, ih⟩
  | recv src sel k ih => exact ⟨hreceives src sel, ih⟩
  | exchange dst m src sel k ih => exact ⟨hsends dst m, hreceives src sel, ih⟩
  | emit o k ih => exact ih

namespace Proc.Sound

variable {sends : ι → μ → Prop} {receives : ι → Selector μ → Prop} {p p' : Proc ι μ ω α} {src dst : ι}
  {m : μ}

theorem outgoing (h : p.Sound sends receives) (ho : p.outgoing = some (dst, m, p')) :
    sends dst m ∧ p'.Sound sends receives := by
  cases p with
  | send d x k =>
    obtain ⟨rfl, rfl, rfl⟩ := by simpa [Proc.outgoing] using ho
    exact h
  | exchange d x s sel k =>
    obtain ⟨rfl, rfl, rfl⟩ := by simpa [Proc.outgoing] using ho
    exact h
  | ret a => cases ho
  | recv s sel k => cases ho
  | emit o k => cases ho

theorem incoming (h : p.Sound sends receives) {sel : Selector μ} {k : μ → Proc ι μ ω α}
    (hi : p.incoming = some (src, sel, k)) (m : μ) : (k m).Sound sends receives := by
  cases p with
  | recv s g c =>
    obtain ⟨rfl, rfl, rfl⟩ := by simpa [Proc.incoming] using hi
    exact h.2 m
  | exchange d x s g c =>
    obtain ⟨rfl, rfl, rfl⟩ := by simpa [Proc.incoming] using hi
    exact ⟨h.1, h.2.2 m⟩
  | ret a => cases hi
  | send d x c => cases hi
  | emit o c => cases hi

theorem received {box : Mailbox ι μ} {q q' : box.Store} {ms ms' : List μ} (h : p.Sound sends receives)
    (hr : Receives box src p q ms p' q' ms') : p'.Sound sends receives := by
  cases hr with
  | stored hi _ => exact h.incoming hi _
  | fresh hi _ _ => exact h.incoming hi _
  | parked _ _ _ => exact h

end Proc.Sound

section Run

variable [DecidableEq ι] {box : Mailbox ι μ} {Origin : ι → μ → Prop} (contents : box.Contents Origin)

/-- What a receive does: at most one message is taken, and none is lost. -/
theorem Receives.deals {p p' : Proc ι μ ω α} {q q' : box.Store} {ms ms' : List μ} {src : ι}
    {Q : Dealings ι μ ω → α → Prop} (hr : Receives box src p q ms p' q' ms') (h : p.Deals Q)
    (horigin : ∀ m ∈ ms, Origin src m) :
    ∃ got : List μ, p'.Deals (fun d a => Q (⟨[], got.map fun m => (src, m), []⟩ ++ d) a) ∧
      (contents.of q src ++ ms).Perm (got ++ (contents.of q' src ++ ms')) ∧
      (∀ i, i ≠ src → contents.of q' i = contents.of q i) ∧ ∀ m ∈ ms', m ∈ ms := by
  cases hr with
  | @stored sel k _ _ m _ hi ht =>
    obtain ⟨hm, front, back, hq, -, hq'⟩ := contents.take_some ht
    refine ⟨[m], h.incoming hi (.inl hm), ?_, fun i hne => ?_, fun _ hm => hm⟩
    · rw [hq, hq', Function.update_self, List.append_assoc, List.append_assoc]
      exact List.perm_middle
    · rw [hq', Function.update_of_ne hne]
  | @fresh sel k _ m _ hi ht hf =>
    refine ⟨[m], h.incoming hi (.inr hf), List.perm_middle, fun _ _ => rfl, fun _ hm => ?_⟩
    exact List.mem_cons_of_mem _ hm
  | @parked sel k _ m ms hi ht hf =>
    have hpark := contents.of_park q src m (horigin m List.mem_cons_self)
    refine ⟨[], h, ?_, fun i hne => ?_, fun _ hm => List.mem_cons_of_mem _ hm⟩
    · rw [hpark, Function.update_self, List.append_assoc]
      exact .refl _
    · rw [hpark, Function.update_of_ne hne]

/-- What the programs of a world have done since they started: no message was lost or doubled. -/
structure Traded (Q : ι → Dealings ι μ ω → α → Prop) (w : World box ω α) (d : ι → Dealings ι μ ω) :
    Prop where
  seen : ∀ i, (d i).seen = w.log i
  ahead : ∀ i, (w.proc i).Deals fun e a => Q i (d i ++ e) a
  sound : ∀ i, (w.proc i).Sound (fun _ => Origin i) fun _ _ => True
  origin : ∀ i j, ∀ m ∈ w.chan i j, Origin i m
  kept : ∀ i j, (fromStream j (d i).sent).Perm
    (fromStream i (d j).taken ++ (contents.of (w.mail j) i ++ w.chan i j))

namespace Traded

variable {contents} {Q : ι → Dealings ι μ ω → α → Prop} {w w' : World box ω α} {d : ι → Dealings ι μ ω}

/-- A message goes under way. -/
theorem send (h : Traded contents Q w d) {i j : ι} {m : μ} {p : Proc ι μ ω α}
    (ho : (w.proc i).outgoing = some (j, m, p)) :
    Traded contents Q { w with
        proc := Function.update w.proc i p
        chan := setChan w.chan i j (w.chan i j ++ [m]) }
      (Function.update d i (d i ++ ⟨[(j, m)], [], []⟩)) := by
  obtain ⟨hm, hsound⟩ := (h.sound i).outgoing ho
  refine ⟨fun k => ?_, fun k => ?_, fun k => ?_, fun a b x hx => ?_, fun a b => ?_⟩
  · by_cases hk : k = i
    · subst hk
      simpa using h.seen k
    · simpa [hk] using h.seen k
  · by_cases hk : k = i
    · subst hk
      simpa [Dealings.append_assoc] using (h.ahead k).outgoing ho
    · simpa [hk] using h.ahead k
  · by_cases hk : k = i
    · subst hk
      simpa using hsound
    · simpa [hk] using h.sound k
  · simp only [setChan_apply] at hx
    split_ifs at hx with hab
    · obtain ⟨rfl, rfl⟩ := hab
      rcases List.mem_append.mp hx with hx | hx
      · exact h.origin _ _ x hx
      · rw [List.mem_singleton.mp hx]
        exact hm
    · exact h.origin a b x hx
  · have hkept := h.kept a b
    have hsent : fromStream b (Function.update d i (d i ++ ⟨[(j, m)], [], []⟩) a).sent =
        fromStream b (d a).sent ++ if a = i ∧ b = j then [m] else [] := by
      by_cases ha : a = i
      · subst ha
        by_cases hb : b = j
        · subst hb
          simp [fromStream_cons]
        · simp [fromStream_cons, hb, Ne.symm hb]
      · simp [ha]
    have htaken : (Function.update d i (d i ++ ⟨[(j, m)], [], []⟩) b).taken = (d b).taken := by
      by_cases hb : b = i
      · subst hb
        simp
      · simp [hb]
    simp only [hsent, htaken, setChan_apply]
    split_ifs with hab
    · obtain ⟨rfl, rfl⟩ := hab
      rw [← List.append_assoc (contents.of _ _), ← List.append_assoc (fromStream _ _)]
      exact hkept.append_right [m]
    · rw [List.append_nil]
      exact hkept

/-- A message is taken, or put aside. -/
theorem recv (h : Traded contents Q w d) {i j : ι} {p : Proc ι μ ω α} {q : box.Store} {ms : List μ}
    (hr : Receives box j (w.proc i) (w.mail i) (w.chan j i) p q ms) :
    ∃ d', Traded contents Q { w with
        proc := Function.update w.proc i p
        mail := Function.update w.mail i q
        chan := setChan w.chan j i ms } d' := by
  obtain ⟨got, hahead, hperm, hothers, hmem⟩ := hr.deals contents (h.ahead i) (h.origin j i)
  refine ⟨Function.update d i (d i ++ ⟨[], got.map fun m => (j, m), []⟩), fun k => ?_, fun k => ?_,
    fun k => ?_, fun a b x hx => ?_, fun a b => ?_⟩
  · by_cases hk : k = i
    · subst hk
      simpa using h.seen k
    · simpa [hk] using h.seen k
  · by_cases hk : k = i
    · subst hk
      simpa [Dealings.append_assoc] using hahead
    · simpa [hk] using h.ahead k
  · by_cases hk : k = i
    · subst hk
      simpa using (h.sound k).received hr
    · simpa [hk] using h.sound k
  · simp only [setChan_apply] at hx
    split_ifs at hx with hab
    · obtain ⟨rfl, rfl⟩ := hab
      exact h.origin _ _ x (hmem x hx)
    · exact h.origin a b x hx
  · have hkept := h.kept a b
    have hsent : (Function.update d i (d i ++ ⟨[], got.map fun m => (j, m), []⟩) a).sent = (d a).sent := by
      by_cases ha : a = i
      · subst ha
        simp
      · simp [ha]
    have hgot : fromStream a (got.map fun m => (j, m)) = if a = j then got else [] := by
      by_cases ha : a = j
      · subst ha
        simp [fromStream, List.filter_map, Function.comp_def]
      · simp [fromStream, List.filter_map, Function.comp_def, ha, Ne.symm ha]
    rw [hsent]
    by_cases hb : b = i
    · subst hb
      have htaken : (Function.update d b (d b ++ ⟨[], got.map fun m => (j, m), []⟩) b).taken =
          (d b).taken ++ got.map fun m => (j, m) := by simp
      rw [htaken, fromStream_append, hgot]
      simp only [Function.update_self, setChan_apply, and_true]
      by_cases ha : a = j
      · subst ha
        rw [if_pos rfl, if_pos rfl, List.append_assoc]
        exact hkept.trans (hperm.append_left _)
      · rw [if_neg ha, if_neg ha, List.append_nil, hothers a ha]
        exact hkept
    · have hab : ¬ (a = j ∧ b = i) := fun hab => hb hab.2
      simpa [setChan_apply, hb, hab] using hkept

theorem step {cap : ℕ∞} (h : Traded contents Q w d) (hstep : Step cap w w') :
    ∃ d', Traded contents Q w' d' := by
  obtain ⟨label, hfire⟩ := hstep
  cases hfire with
  | send ho hcap => exact ⟨_, h.send ho⟩
  | recv hr => exact h.recv hr
  | @hand _ i j m p p' q hz hne he ho hr =>
    -- The message is under way for a moment.
    have hready : Receives box i (Function.update w.proc i p j) (w.mail j)
        (setChan w.chan i j (w.chan i j ++ [m]) i j) p' q [] := by
      rw [Function.update_of_ne hne.symm, setChan_apply, if_pos ⟨rfl, rfl⟩, he]
      exact hr
    obtain ⟨d', htraded⟩ := (h.send ho).recv hready
    have hchan : setChan (setChan w.chan i j (w.chan i j ++ [m])) i j [] = w.chan := by
      funext a b
      rw [setChan_apply, setChan_apply]
      split_ifs with hab
      · obtain ⟨rfl, rfl⟩ := hab
        exact he.symm
      · rfl
    rw [hchan] at htraded
    exact ⟨d', htraded⟩
  | @emit _ i o p hp =>
    have hahead := h.ahead i
    have hsound := h.sound i
    rw [hp] at hahead hsound
    refine ⟨Function.update d i (d i ++ ⟨[], [], [o]⟩), fun k => ?_, fun k => ?_, fun k => ?_, h.origin,
      fun a b => ?_⟩
    · by_cases hk : k = i
      · subst hk
        simpa using h.seen k
      · simpa [hk] using h.seen k
    · by_cases hk : k = i
      · subst hk
        have hnext : p.Deals fun e a => Q k (d k ++ (⟨[], [], [o]⟩ ++ e)) a := hahead
        simpa [Dealings.append_assoc] using hnext
      · simpa [hk] using h.ahead k
    · by_cases hk : k = i
      · subst hk
        have hnext : p.Sound (fun _ => Origin k) fun _ _ => True := hsound
        simpa using hnext
      · simpa [hk] using h.sound k
    · have hsame : ∀ k, (Function.update d i (d i ++ ⟨[], [], [o]⟩) k).sent = (d k).sent ∧
          (Function.update d i (d i ++ ⟨[], [], [o]⟩) k).taken = (d k).taken := by
        intro k
        by_cases hk : k = i
        · subst hk
          simp
        · simp [hk]
      rw [(hsame a).1, (hsame b).2]
      exact h.kept a b

theorem run {cap : ℕ∞} (h : Traded contents Q w d) (hrun : ReflTransGen (Step cap) w w') :
    ∃ d', Traded contents Q w' d' := by
  induction hrun with
  | refl => exact ⟨d, h⟩
  | tail _ hstep ih =>
    obtain ⟨d', hd'⟩ := ih
    exact hd'.step hstep

/-- Programs that have not done anything yet. -/
theorem start {s : Snapshot ι μ ω α} (hlog : ∀ i, s.log i = []) (hdeals : ∀ i, (s.proc i).Deals (Q i))
    (hsound : ∀ i, (s.proc i).Sound (fun _ => Origin i) fun _ _ => True) :
    Traded contents Q (s.world box) fun _ => .none where
  seen i := (hlog i).symm
  ahead := hdeals
  sound := hsound
  origin := by
    intro i j m hm
    cases hm
  kept i j := by
    show List.Perm [] ([] ++ (contents.of box.empty i ++ []))
    rw [contents.of_empty]
    exact .nil

end Traded

/-- What all programs of a world have done when all of them have returned. What has been taken has been
sent. -/
theorem traded_of_run {box : Mailbox ι μ} {Origin : ι → μ → Prop} (contents : box.Contents Origin)
    {Q : ι → Dealings ι μ ω → α → Prop} {s : Snapshot ι μ ω α} (hlog : ∀ i, s.log i = [])
    (hdeals : ∀ i, (s.proc i).Deals (Q i))
    (hsound : ∀ i, (s.proc i).Sound (fun _ => Origin i) fun _ _ => True) {cap : ℕ∞} {w : World box ω α}
    (hrun : ReflTransGen (Step cap) (s.world box) w) {result : ι → α}
    (hend : ∀ i, w.proc i = .ret (result i)) : ∃ d : ι → Dealings ι μ ω,
      (∀ i, (d i).seen = w.log i ∧ Q i (d i) (result i)) ∧
      ∀ i j, (fromStream i (d j).taken).Subperm (fromStream j (d i).sent) := by
  have hstart : Traded contents Q (s.world box) fun _ => .none := .start hlog hdeals hsound
  obtain ⟨d, htraded⟩ := hstart.run hrun
  refine ⟨d, fun i => ⟨htraded.seen i, ?_⟩, fun i j => ?_⟩
  · have hahead := htraded.ahead i
    rw [hend i] at hahead
    simpa [Proc.Deals] using hahead
  · exact (List.sublist_append_left _ _).subperm.trans (htraded.kept i j).symm.subperm

end Run

section Conveys

variable {ε γ : Type} {c : ExceptT ε (Proc ι μ ω) β} {Q Q' : Dealings ι μ ω → β → Prop}

/-- Whatever the program receives, if it succeeds then `Q` holds of what it has done and of its
result. -/
def Conveys (c : ExceptT ε (Proc ι μ ω) β) (Q : Dealings ι μ ω → β → Prop) : Prop :=
  c.run.Deals fun d r => ∀ b, r = .ok b → Q d b

namespace Conveys

theorem imp (h : Conveys c Q) (himp : ∀ d b, Q d b → Q' d b) : Conveys c Q' :=
  Proc.Deals.imp h fun d _ hr b hb => himp d b (hr b hb)

/-- A part of which the result is known. -/
theorem settled {x : Except ε β} (h : ∀ b, x = .ok b → Q .none b) :
    Conveys (ExceptT.mk (Pure.pure x) : ExceptT ε (Proc ι μ ω) β) Q := h

theorem pure {b : β} (h : Q .none b) : Conveys (Pure.pure b : ExceptT ε (Proc ι μ ω) β) Q := by
  intro b' hb'
  obtain rfl := Except.ok.inj hb'
  exact h

theorem throw {e : ε} : Conveys (MonadExcept.throw e : ExceptT ε (Proc ι μ ω) β) Q := by
  intro b hb
  cases hb

theorem bind {f : β → ExceptT ε (Proc ι μ ω) γ} {R : Dealings ι μ ω → γ → Prop} (h : Conveys c Q)
    (hf : ∀ d b, Q d b → Conveys (f b) fun e => R (d ++ e)) : Conveys (c >>= f) R := by
  unfold Conveys
  rw [ExceptT.run_bind]
  refine Proc.Deals.bind h fun d r hr => ?_
  cases r with
  | ok b => exact hf d b (hr b rfl)
  | error e =>
    intro b hb
    cases hb

/-- A loop all of whose parts do something of the same kind. -/
theorem forM {κ : Type} {f : κ → ExceptT ε (Proc ι μ ω) Unit} {K : Dealings ι μ ω → Prop}
    (hnone : K .none) (happend : ∀ d e, K d → K e → K (d ++ e)) (h : ∀ x, Conveys (f x) fun d _ => K d)
    (l : List κ) : Conveys (l.forM f) fun d _ => K d := by
  induction l with
  | nil => exact pure hnone
  | cons x l ih => exact (h x).bind fun d _ hd => ih.imp fun e _ he => happend d e hd he

end Conveys

end Conveys

section Transacts

variable {ε γ σ : Type} {c : ExceptT ε (StateT σ (Proc ι μ ω)) β} {s : σ}
  {Q Q' : Dealings ι μ ω → β → σ → Prop}

/-- Whatever the program receives, if it succeeds then `Q` holds of what it has done, of its result and
of the state that it leaves. -/
def Transacts (c : ExceptT ε (StateT σ (Proc ι μ ω)) β) (s : σ) (Q : Dealings ι μ ω → β → σ → Prop) :
    Prop :=
  (c.run.run s).Deals fun d r => ∀ b, r.1 = .ok b → Q d b r.2

namespace Transacts

theorem imp (h : Transacts c s Q) (himp : ∀ d b s', Q d b s' → Q' d b s') : Transacts c s Q' :=
  Proc.Deals.imp h fun d r hr b hb => himp d b r.2 (hr b hb)

theorem pure {b : β} (h : Q .none b s) :
    Transacts (Pure.pure b : ExceptT ε (StateT σ (Proc ι μ ω)) β) s Q := by
  intro b' hb'
  obtain rfl := Except.ok.inj hb'
  exact h

theorem throw {e : ε} : Transacts (MonadExcept.throw e : ExceptT ε (StateT σ (Proc ι μ ω)) β) s Q := by
  intro b hb
  cases hb

theorem bind {f : β → ExceptT ε (StateT σ (Proc ι μ ω)) γ} {R : Dealings ι μ ω → γ → σ → Prop}
    (h : Transacts c s Q)
    (hf : ∀ d b s', Q d b s' → Transacts (f b) s' fun e => R (d ++ e)) : Transacts (c >>= f) s R := by
  unfold Transacts
  rw [ExceptT.run_bind, StateT.run_bind]
  refine Proc.Deals.bind h fun d r hr => ?_
  obtain ⟨result, s'⟩ := r
  cases result with
  | ok b => exact hf d b s' (hr b rfl)
  | error e =>
    intro b hb
    cases hb

section Parts

variable {R : Dealings ι μ ω → γ → σ → Prop}

/-- A computation neither sends nor receives nor shows anything. -/
theorem settled {ε' : Type} {wrap : ε' → ε} {x : Except ε' β} {f : β → ExceptT ε (StateT σ (Proc ι μ ω)) γ}
    (hf : ∀ b, x = .ok b → Transacts (f b) s R) : Transacts (settleWith wrap x >>= f) s R := by
  cases x with
  | ok b => exact hf b rfl
  | error e =>
    intro b hb
    cases hb

theorem published {o : ω} {f : Unit → ExceptT ε (StateT σ (Proc ι μ ω)) γ}
    (hf : Transacts (f ()) s fun e => R (⟨[], [], [o]⟩ ++ e)) : Transacts (publish o >>= f) s R := hf

theorem tell {o : ω} {Q : Dealings ι μ ω → Unit → σ → Prop} (h : Q ⟨[], [], [o]⟩ () s) :
    Transacts (publish o : ExceptT ε (StateT σ (Proc ι μ ω)) Unit) s Q := fun _ _ => h

theorem amended {g : σ → σ} {f : Unit → ExceptT ε (StateT σ (Proc ι μ ω)) γ}
    (hf : Transacts (f ()) (g s) R) : Transacts (amend g >>= f) s R := hf

theorem converse {ε' : Type} {wrap : ε' → ε} {x : ExceptT ε' (Proc ι μ ω) β}
    {P : Dealings ι μ ω → β → Prop} (hx : Conveys x P) (h : ∀ d b, P d b → Q d b s) :
    Transacts (Framework.converse wrap x : ExceptT ε (StateT σ (Proc ι μ ω)) β) s Q := by
  show Proc.Deals ((Except.mapError wrap <$> x.run).bind fun r => .ret (r, s)) _
  rw [← bind_pure_comp, Proc.bind_eq, Proc.bind_assoc]
  refine Proc.Deals.bind hx fun d r hr b hb => ?_
  cases r with
  | ok b' =>
    obtain rfl := Except.ok.inj hb
    show Q (d ++ .none) b' s
    rw [Dealings.append_none]
    exact h d b' (hr b' rfl)
  | error e => cases hb

/-- Communication comes first. -/
theorem talked {ε' : Type} {wrap : ε' → ε} {x : ExceptT ε' (Proc ι μ ω) β}
    {P : Dealings ι μ ω → β → Prop} {f : β → ExceptT ε (StateT σ (Proc ι μ ω)) γ} (hx : Conveys x P)
    (hf : ∀ d b, P d b → Transacts (f b) s fun e => R (d ++ e)) :
    Transacts (Framework.converse wrap x >>= f) s R :=
  (converse (Q := fun d b s' => P d b ∧ s' = s) hx fun _ _ h => ⟨h, rfl⟩).bind fun d b s' h => by
    obtain ⟨h, rfl⟩ := h
    exact hf d b h

/-- A loop that does one thing for each entry, as long as it goes well. -/
theorem forM_map {κ κ' : Type} {g : κ' → κ} {f : κ → ExceptT ε (StateT σ (Proc ι μ ω)) Unit}
    {did : κ' → Dealings ι μ ω} {P : κ' → Prop} {xs : List κ'}
    (h : ∀ x ∈ xs, ∀ s, Transacts (f (g x)) s fun d _ _ => d = did x ∧ P x) (s : σ) :
    Transacts ((xs.map g).forM f) s fun d _ _ =>
      d = (xs.map did).foldr (· ++ ·) .none ∧ ∀ x ∈ xs, P x := by
  induction xs generalizing s with
  | nil => exact pure ⟨rfl, fun x hx => by cases hx⟩
  | cons x xs ih =>
    refine (h x List.mem_cons_self s).bind fun d _ s' hd => ?_
    obtain ⟨rfl, hx⟩ := hd
    refine (ih (fun y hy => h y (List.mem_cons_of_mem _ hy)) s').imp fun e _ _ he => ?_
    obtain ⟨rfl, hxs⟩ := he
    exact ⟨rfl, List.forall_mem_cons.mpr ⟨hx, hxs⟩⟩

end Parts

end Transacts

end Transacts

end Dlir.Framework
