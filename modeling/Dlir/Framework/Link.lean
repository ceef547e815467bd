import Dlir.Framework.World

namespace Dlir.Framework

variable {ι μ ε : Type}

/-- A one-way connection. Messages may have a representation of their own while they are under
way; `Carries` says which messages a channel holds. -/
structure Link (μ ε : Type) where
  Chan : Type
  empty : Chan
  push : Chan → μ → Except ε Chan
  pop : Chan → Option (Except ε μ × Chan)
  /-- What is left of a channel whose reader gave up in the middle of a message. -/
  cut : Nat → Chan → Chan
  /-- How a send fails that begins after its deadline, if sends have one. -/
  overdue : Option ε
  /-- Messages that the other end understands. -/
  Good : μ → Prop
  Carries : Chan → List μ → Prop
  carries_empty : Carries empty []
  carries_push : ∀ {c ms m c'}, Carries c ms → push c m = .ok c' → Carries c' (ms ++ [m])
  pop_nil : ∀ {c}, Carries c [] → pop c = none
  pop_cons : ∀ {c m ms}, Carries c (m :: ms) →
    ∃ r c', pop c = some (r, c') ∧ Carries c' ms ∧ (Good m → r = .ok m)
  cut_zero : ∀ c, cut 0 c = c

namespace Link

variable {link : Link μ ε} {c c' : link.Chan} {ms : List μ} {m : μ}

/-- What comes out of a channel of good messages is the first of them. -/
theorem carries_pop (hc : link.Carries c ms) (hgood : ∀ m ∈ ms, link.Good m)
    {r : Except ε μ} (hpop : link.pop c = some (r, c')) :
    ∃ m rest, ms = m :: rest ∧ r = .ok m ∧ link.Carries c' rest := by
  cases ms with
  | nil =>
    rw [link.pop_nil hc] at hpop
    cases hpop
  | cons m rest =>
    obtain ⟨r', c'', hpop', hcarry, hok⟩ := link.pop_cons hc
    rw [hpop'] at hpop
    obtain ⟨rfl, rfl⟩ := Prod.mk.inj (Option.some.inj hpop)
    exact ⟨m, rest, rfl, hok (hgood m List.mem_cons_self), hcarry⟩

/-- A channel of messages without a representation of their own. -/
def queue (μ ε : Type) : Link μ ε where
  Chan := List μ
  empty := []
  push c m := .ok (c ++ [m])
  pop
    | [] => none
    | m :: c => some (.ok m, c)
  cut _ c := c
  overdue := none
  Good _ := True
  Carries c ms := c = ms
  carries_empty := rfl
  carries_push := by
    rintro c ms m c' rfl h
    exact (Except.ok.inj h).symm
  pop_nil := by
    rintro c rfl
    rfl
  pop_cons := by
    rintro c m ms rfl
    exact ⟨.ok m, ms, rfl, rfl, fun _ => rfl⟩
  cut_zero _ := rfl

end Link

/-- The messages of a store by their source. `Origin` is what the owner may assume about them. -/
structure Mailbox.Contents (box : Mailbox ι μ) [DecidableEq ι] (Origin : ι → μ → Prop) where
  of : box.Store → ι → List μ
  of_empty : ∀ i, of box.empty i = []
  of_park : ∀ q i m, Origin i m → of (box.park q i m) = Function.update (of q) i (of q i ++ [m])
  take_none : ∀ {q i want}, box.take q i want = none → ∀ m ∈ of q i, want m = false
  take_some : ∀ {q i want m q'}, box.take q i want = some (m, q') → want m = true ∧
    ∃ front back, of q i = front ++ m :: back ∧ (∀ x ∈ front, want x = false) ∧
      of q' = Function.update (of q) i (front ++ back)

end Dlir.Framework
