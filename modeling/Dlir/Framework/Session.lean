import Dlir.Framework.Link
import Mathlib.Logic.Relation

namespace Dlir.Framework

open Relation

/-- What the endpoints of a network offer to the programs that run on them. A call runs code that
communicates and may change the local state; a failed call leaves the local state alone. -/
structure Service (ι μ ε : Type) where
  box : Mailbox ι μ
  link : Link μ ε
  Op : Type
  Answer : Type
  Local : Type
  start : Local
  code : ι → Local → Op → Proc ι μ Unit (Except ε (Answer × Local))
  /-- How a call fails whose wait takes too long. Calls that only send wait for nothing. -/
  expired : ι → Local → Op → Option ε

variable {ι μ ε : Type} [DecidableEq ι] {S : Service ι μ ε}

/-- All endpoints at one moment. `sent` and `taken` record by sender and receiver what went into
a channel and what a call has got out of it. -/
structure Session (S : Service ι μ ε) where
  locals : ι → S.Local
  call : ι → Option (S.Op × Proc ι μ Unit (Except ε (S.Answer × S.Local)))
  history : ι → List (S.Op × Except ε S.Answer)
  mail : ι → S.box.Store
  chan : ι → ι → S.link.Chan
  sent : ι → ι → List μ
  taken : ι → ι → List μ

/-- What happens next: a rank starts a call, its call sends or receives, or its deadline passes. -/
inductive Event (ι Op : Type)
  | call (i : ι) (op : Op)
  | send (i : ι)
  | recv (i : ι)
  | expire (i : ι) (lost : Nat)

/-- Overwrites one entry of a table by sender and receiver. -/
def set₂ {β : Type} (table : ι → ι → β) (i j : ι) (b : β) : ι → ι → β :=
  Function.update table i (Function.update (table i) j b)

theorem set₂_apply {β : Type} (table : ι → ι → β) (i j : ι) (b : β) (x y : ι) :
    set₂ table i j b x y = if x = i ∧ y = j then b else table x y := by
  unfold set₂
  by_cases hx : x = i
  · subst hx
    by_cases hy : y = j
    · subst hy; simp
    · simp [hy]
  · simp [hx]

namespace Session

def initial (S : Service ι μ ε) : Session S where
  locals _ := S.start
  call _ := none
  history _ := []
  mail _ := S.box.empty
  chan _ _ := S.link.empty
  sent _ _ := []
  taken _ _ := []

/-- A call comes back. -/
def close (w : Session S) (i : ι) (op : S.Op) (r : Except ε (S.Answer × S.Local)) : Session S :=
  { w with
    locals := match r with
      | .ok (_, l) => Function.update w.locals i l
      | .error _ => w.locals
    call := Function.update w.call i none
    history := Function.update w.history i (w.history i ++ [(op, r.map Prod.fst)]) }

/-- A call goes on with the rest of its code. -/
def resume (w : Session S) (i : ι) (op : S.Op)
    (p : Proc ι μ Unit (Except ε (S.Answer × S.Local))) : Session S :=
  match p with
  | .ret r => w.close i op r
  | p => { w with call := Function.update w.call i (some (op, p)) }

/-- A message is read that the call in progress does not want. -/
def putAside (w : Session S) (i j : ι) (m : μ) (c : S.link.Chan) : Session S :=
  { w with
    chan := set₂ w.chan j i c
    mail := Function.update w.mail i (S.box.park (w.mail i) j m) }

section Fields

variable (w : Session S) (i : ι) (op : S.Op)

@[simp] theorem close_mail (r) : (w.close i op r).mail = w.mail := rfl
@[simp] theorem close_chan (r) : (w.close i op r).chan = w.chan := rfl
@[simp] theorem close_sent (r) : (w.close i op r).sent = w.sent := rfl
@[simp] theorem close_taken (r) : (w.close i op r).taken = w.taken := rfl
@[simp] theorem close_call (r) : (w.close i op r).call = Function.update w.call i none := rfl

@[simp] theorem close_history (r) : (w.close i op r).history =
    Function.update w.history i (w.history i ++ [(op, r.map Prod.fst)]) := rfl

@[simp] theorem resume_mail (p) : (w.resume i op p).mail = w.mail := by cases p <;> rfl
@[simp] theorem resume_chan (p) : (w.resume i op p).chan = w.chan := by cases p <;> rfl
@[simp] theorem resume_sent (p) : (w.resume i op p).sent = w.sent := by cases p <;> rfl
@[simp] theorem resume_taken (p) : (w.resume i op p).taken = w.taken := by cases p <;> rfl

theorem resume_call_of_ne (p) {x : ι} (hx : x ≠ i) : (w.resume i op p).call x = w.call x := by
  cases p <;> simp [resume, close, Function.update_of_ne hx]

theorem resume_history_of_ne (p) {x : ι} (hx : x ≠ i) :
    (w.resume i op p).history x = w.history x := by
  cases p <;> simp [resume, close, Function.update_of_ne hx]

theorem resume_locals_of_ne (p) {x : ι} (hx : x ≠ i) :
    (w.resume i op p).locals x = w.locals x := by
  cases p with
  | ret r => cases r <;> simp [resume, close, Function.update_of_ne hx]
  | send dst m k => rfl
  | recv src sel k => rfl
  | exchange dst m src sel k => rfl
  | emit o k => rfl

/-- A call that has not come back has changed nothing but its own code. -/
theorem resume_locals {p p' : Proc ι μ Unit (Except ε (S.Answer × S.Local))} {op' : S.Op}
    (h : (w.resume i op p).call i = some (op', p')) : (w.resume i op p).locals = w.locals := by
  cases p with
  | ret r => simp [resume] at h
  | send dst m k => rfl
  | recv src sel k => rfl
  | exchange dst m src sel k => rfl
  | emit o k => rfl

theorem resume_history_cases (p) : (w.resume i op p).history = w.history ∨
    ∃ r, (w.resume i op p).history = Function.update w.history i (w.history i ++ [(op, r)]) := by
  cases p with
  | ret r => exact .inr ⟨_, rfl⟩
  | send dst m k => exact .inl rfl
  | recv src sel k => exact .inl rfl
  | exchange dst m src sel k => exact .inl rfl
  | emit o k => exact .inl rfl

/-- The code that a call is left with after it went on. -/
theorem resume_call {p p' : Proc ι μ Unit (Except ε (S.Answer × S.Local))} {op' : S.Op}
    (h : (w.resume i op p).call i = some (op', p')) : op' = op ∧ p' = p := by
  cases p with
  | ret r => simp [resume] at h
  | send dst m k => simpa [resume, eq_comm] using h
  | recv src sel k => simpa [resume, eq_comm] using h
  | exchange dst m src sel k => simpa [resume, eq_comm] using h
  | emit o k => simpa [resume, eq_comm] using h

end Fields

/-- One step of one rank. -/
inductive Fire : Event ι S.Op → Session S → Session S → Prop
  | call {w : Session S} {i : ι} {op : S.Op} : w.call i = none →
      Fire (.call i op) w (w.resume i op (S.code i (w.locals i) op))
  | send {w : Session S} {i j : ι} {op : S.Op} {m : μ} {k} {c : S.link.Chan} :
      w.call i = some (op, .send j m k) → S.link.push (w.chan i j) m = .ok c →
      Fire (.send i) w (resume { w with chan := set₂ w.chan i j c
                                        sent := set₂ w.sent i j (w.sent i j ++ [m]) } i op k)
  | refused {w : Session S} {i j : ι} {op : S.Op} {m : μ} {k} {e : ε} :
      w.call i = some (op, .send j m k) → S.link.push (w.chan i j) m = .error e →
      Fire (.send i) w (w.close i op (.error e))
  | stored {w : Session S} {i j : ι} {op : S.Op} {sel : Selector μ} {k} {m : μ} {q : S.box.Store} :
      w.call i = some (op, .recv j sel k) → S.box.take (w.mail i) j sel.stored = some (m, q) →
      Fire (.recv i) w (resume { w with mail := Function.update w.mail i q
                                        taken := set₂ w.taken j i (w.taken j i ++ [m]) } i op (k m))
  | fresh {w : Session S} {i j : ι} {op : S.Op} {sel : Selector μ} {k} {m : μ} {c : S.link.Chan} :
      w.call i = some (op, .recv j sel k) → S.box.take (w.mail i) j sel.stored = none →
      S.link.pop (w.chan j i) = some (.ok m, c) → sel.fresh m = true →
      Fire (.recv i) w (resume { w with chan := set₂ w.chan j i c
                                        taken := set₂ w.taken j i (w.taken j i ++ [m]) } i op (k m))
  | parked {w : Session S} {i j : ι} {op : S.Op} {sel : Selector μ} {k} {m : μ} {c : S.link.Chan} :
      w.call i = some (op, .recv j sel k) → S.box.take (w.mail i) j sel.stored = none →
      S.link.pop (w.chan j i) = some (.ok m, c) → sel.fresh m = false →
      Fire (.recv i) w (w.putAside i j m c)
  | garbled {w : Session S} {i j : ι} {op : S.Op} {sel : Selector μ} {k} {e : ε} {c : S.link.Chan} :
      w.call i = some (op, .recv j sel k) → S.box.take (w.mail i) j sel.stored = none →
      S.link.pop (w.chan j i) = some (.error e, c) →
      Fire (.recv i) w (close { w with chan := set₂ w.chan j i c } i op (.error e))
  | expire {w : Session S} {i j : ι} {op : S.Op} {sel : Selector μ} {k} {lost : Nat} {e : ε} :
      w.call i = some (op, .recv j sel k) → S.box.take (w.mail i) j sel.stored = none →
      S.expired i (w.locals i) op = some e →
      Fire (.expire i lost) w (close { w with chan := set₂ w.chan j i (S.link.cut lost (w.chan j i)) }
        i op (.error e))
  -- the deadline is looked at when the message is ready to be written
  | overdue {w : Session S} {i j : ι} {op : S.Op} {m : μ} {k} {c : S.link.Chan} {e : ε} :
      w.call i = some (op, .send j m k) → S.link.push (w.chan i j) m = .ok c →
      S.link.overdue = some e → Fire (.expire i 0) w (w.close i op (.error e))

/-- Calls in progress have been so before or are starting. -/
theorem Fire.call_cases {e : Event ι S.Op} {w w' : Session S} (h : Fire e w w') {x : ι} {op : S.Op}
    {p} (hcall : w'.call x = some (op, p)) : (∃ p', w.call x = some (op, p')) ∨ e = .call x op := by
  have hresume : ∀ (w1 : Session S) (i : ι) (op1 : S.Op) p1 p2,
      (w1.resume i op1 p1).call x = some (op, p) → w1.call = w.call →
      w.call i = some (op1, p2) → ∃ p', w.call x = some (op, p') := by
    intro w1 i op1 p1 p2 h3 h1 h2
    by_cases hx : x = i
    · subst hx
      obtain ⟨rfl, -⟩ := resume_call w1 x op1 h3
      exact ⟨p2, h2⟩
    · rw [resume_call_of_ne w1 i op1 p1 hx, h1] at h3
      exact ⟨p, h3⟩
  have hclose : ∀ (w1 : Session S) (i : ι) (op1 : S.Op) r,
      (w1.close i op1 r).call x = some (op, p) → w1.call = w.call →
      ∃ p', w.call x = some (op, p') := by
    intro w1 i op1 r h3 h1
    by_cases hx : x = i
    · subst hx
      simp at h3
    · rw [close_call, Function.update_of_ne hx, h1] at h3
      exact ⟨p, h3⟩
  cases h with
  | @call _ i op1 hidle =>
    by_cases hx : x = i
    · subst hx
      obtain ⟨rfl, -⟩ := resume_call w x op1 hcall
      exact .inr rfl
    · rw [resume_call_of_ne w i op1 _ hx] at hcall
      exact .inl ⟨p, hcall⟩
  | send hc hpush => exact .inl (hresume _ _ _ _ _ hcall rfl hc)
  | refused hc hpush => exact .inl (hclose _ _ _ _ hcall rfl)
  | stored hc htake => exact .inl (hresume _ _ _ _ _ hcall rfl hc)
  | fresh hc htake hpop hfresh => exact .inl (hresume _ _ _ _ _ hcall rfl hc)
  | parked hc htake hpop hfresh => exact .inl ⟨p, hcall⟩
  | garbled hc htake hpop => exact .inl (hclose _ _ _ _ hcall rfl)
  | expire hc htake he => exact .inl (hclose _ _ _ _ hcall rfl)
  | overdue hc hpush he => exact .inl (hclose _ _ _ _ hcall rfl)

/-- A property of the code of calls that holds at their start and passes on to the rest of the
code holds of all calls in progress. -/
theorem Fire.inherits {P : ι → S.Op → Proc ι μ Unit (Except ε (S.Answer × S.Local)) → Prop}
    (hcode : ∀ i l op, P i op (S.code i l op))
    (hsend : ∀ i op j m k, P i op (.send j m k) → P i op k)
    (hrecv : ∀ i op j sel k m, P i op (.recv j sel k) → P i op (k m))
    {e : Event ι S.Op} {w w' : Session S} (h : ∀ i op p, w.call i = some (op, p) → P i op p)
    (hfire : Fire e w w') : ∀ i op p, w'.call i = some (op, p) → P i op p := by
  have hresume : ∀ (w1 : Session S) (i : ι) (op1 : S.Op) p1, w1.call = w.call → P i op1 p1 →
      ∀ x op p, (w1.resume i op1 p1).call x = some (op, p) → P x op p := by
    intro w1 i op1 p1 hsame hp x op p hcall
    by_cases hx : x = i
    · subst hx
      obtain ⟨rfl, rfl⟩ := resume_call w1 x op1 hcall
      exact hp
    · rw [resume_call_of_ne w1 i op1 p1 hx, hsame] at hcall
      exact h x op p hcall
  have hclose : ∀ (w1 : Session S) (i : ι) (op1 : S.Op) r, w1.call = w.call →
      ∀ x op p, (w1.close i op1 r).call x = some (op, p) → P x op p := by
    intro w1 i op1 r hsame x op p hcall
    by_cases hx : x = i
    · subst hx
      simp at hcall
    · rw [close_call, Function.update_of_ne hx, hsame] at hcall
      exact h x op p hcall
  cases hfire with
  | call hidle => exact hresume _ _ _ _ rfl (hcode _ _ _)
  | send hcall hpush => exact hresume _ _ _ _ rfl (hsend _ _ _ _ _ (h _ _ _ hcall))
  | refused hcall hpush => exact hclose _ _ _ _ rfl
  | stored hcall htake => exact hresume _ _ _ _ rfl (hrecv _ _ _ _ _ _ (h _ _ _ hcall))
  | fresh hcall htake hpop hfresh =>
    exact hresume _ _ _ _ rfl (hrecv _ _ _ _ _ _ (h _ _ _ hcall))
  | parked hcall htake hpop hfresh => exact h
  | garbled hcall htake hpop => exact hclose _ _ _ _ rfl
  | expire hcall htake he => exact hclose _ _ _ _ rfl
  | overdue hcall hpush he => exact hclose _ _ _ _ rfl

/-- Calls in progress have something left to do. -/
def Live (w : Session S) : Prop := ∀ i op r, w.call i ≠ some (op, .ret r)

theorem Live.resume {w : Session S} (h : w.Live) (i : ι) (op : S.Op) (p) :
    (w.resume i op p).Live := by
  intro x op' r hcall
  by_cases hx : x = i
  · subst hx
    obtain ⟨-, rfl⟩ := resume_call w x op hcall
    simp [Session.resume] at hcall
  · rw [resume_call_of_ne w i op p hx] at hcall
    exact h x op' r hcall

theorem Live.close {w : Session S} (h : w.Live) (i : ι) (op : S.Op) (r) : (w.close i op r).Live :=
  h.resume i op (.ret r)

theorem Live.step {e : Event ι S.Op} {w w' : Session S} (h : w.Live) (hfire : Fire e w w') :
    w'.Live := by
  cases hfire with
  | call hidle => exact h.resume _ _ _
  | send hcall hpush =>
    apply Live.resume
    exact h
  | refused hcall hpush => exact h.close _ _ _
  | stored hcall htake =>
    apply Live.resume
    exact h
  | fresh hcall htake hpop hfresh =>
    apply Live.resume
    exact h
  | parked hcall htake hpop hfresh => exact h
  | garbled hcall htake hpop =>
    apply Live.close
    exact h
  | expire hcall htake he =>
    apply Live.close
    exact h
  | overdue hcall hpush he => exact h.close _ _ _

/-- A state that a run reaches all of whose steps meet a condition on the state before them. -/
def Reaches (ok : Session S → Event ι S.Op → Prop) : Session S → Session S → Prop :=
  ReflTransGen fun w w' => ∃ e, ok w e ∧ Fire e w w'

/-- The steps of a run with the states before them, the last one first. Whether a step is allowed
may depend on those before it. -/
inductive Trail (ok : List (Session S × Event ι S.Op) → Session S → Event ι S.Op → Prop) :
    List (Session S × Event ι S.Op) → Session S → Prop
  | start : Trail ok [] (initial S)
  | step {steps : List (Session S × Event ι S.Op)} {e : Event ι S.Op} {w w' : Session S} :
      Trail ok steps w → ok steps w e → Fire e w w' → Trail ok ((w, e) :: steps) w'

end Session

end Dlir.Framework
