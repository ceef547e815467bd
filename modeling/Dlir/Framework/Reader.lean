import Mathlib.Control.Lawful
import Mathlib.Tactic.Common

namespace Dlir.Framework

/-- A parser that consumes bytes and may fail. -/
abbrev Reader (ε : Type) := StateT (List UInt8) (Except ε)

namespace Reader

variable {ε β γ : Type}

/-- Takes exactly `count` bytes. -/
def readExact (count : Nat) (e : ε) : Reader ε (List UInt8) := fun input =>
  if count ≤ input.length then .ok (input.take count, input.drop count) else .error e

/-- Passes on the failure of a computation that reads nothing. -/
def check (x : Except ε β) : Reader ε β := fun input => x.map fun b => (b, input)

/-- How many bytes are left. -/
def remaining : Reader ε Nat := fun input => .ok (input.length, input)

/-- Runs one reader several times. -/
def times (p : Reader ε β) : Nat → Reader ε (List β)
  | 0 => pure []
  | n + 1 => do
    let b ← p
    let bs ← times p n
    pure (b :: bs)

/-- The reader turns `bytes`, followed by anything, into `b` and leaves what follows. -/
def Reads (p : Reader ε β) (bytes : List UInt8) (b : β) : Prop :=
  ∀ rest, p.run (bytes ++ rest) = .ok (b, rest)

namespace Reads

theorem pure (b : β) : Reads (pure b : Reader ε β) [] b := fun _ => rfl

/-- After the first part the reader goes on with what is left. -/
theorem run_bind {p : Reader ε β} {bytes : List UInt8} {b : β} (h : Reads p bytes b)
    (f : β → Reader ε γ) (rest : List UInt8) :
    (p >>= f).run (bytes ++ rest) = (f b).run rest := by
  rw [StateT.run_bind, h]
  rfl

theorem run_bind_nil {p : Reader ε β} {bytes : List UInt8} {b : β} (h : Reads p bytes b)
    (f : β → Reader ε γ) : (p >>= f).run bytes = (f b).run [] := by
  simpa using h.run_bind f []

theorem bind {p : Reader ε β} {f : β → Reader ε γ} {bytes bytes' : List UInt8} {b : β} {c : γ}
    (h : Reads p bytes b) (h' : Reads (f b) bytes' c) : Reads (p >>= f) (bytes ++ bytes') c := by
  intro rest
  rw [List.append_assoc, h.run_bind]
  exact h' rest

theorem map {p : Reader ε β} {bytes : List UInt8} {b : β} (h : Reads p bytes b) (f : β → γ) :
    Reads (f <$> p) bytes (f b) := by
  intro rest
  rw [StateT.run_map, h]
  rfl

theorem readExact (bytes : List UInt8) (e : ε) :
    Reads (readExact bytes.length e) bytes bytes := by
  intro rest
  simp [Reader.readExact, StateT.run]

theorem times {p : Reader ε β} (encode : β → List UInt8) (bs : List β)
    (h : ∀ b ∈ bs, Reads p (encode b) b) : Reads (times p bs.length) (bs.flatMap encode) bs := by
  induction bs with
  | nil => exact Reads.pure []
  | cons b bs ih =>
    have htail := ih fun c hc => h c (List.mem_cons_of_mem _ hc)
    rw [List.flatMap_cons, ← List.append_nil (bs.flatMap encode)]
    exact (h b (by simp)).bind (htail.bind (Reads.pure _))

end Reads

theorem run_remaining (f : Nat → Reader ε γ) (input : List UInt8) :
    (remaining >>= f).run input = (f input.length).run input := rfl

theorem run_check_ok {x : Except ε β} {b : β} (h : x = .ok b) (f : β → Reader ε γ)
    (input : List UInt8) : (check x >>= f).run input = (f b).run input := by
  subst h
  rfl

theorem run_bind_ok {p : Reader ε β} {input rest : List UInt8} {b : β}
    (h : p.run input = .ok (b, rest)) (f : β → Reader ε γ) :
    (p >>= f).run input = (f b).run rest := by
  rw [StateT.run_bind, h]
  rfl

/-- Both parts of a successful sequence succeed. -/
theorem ok_of_run_bind {p : Reader ε β} {f : β → Reader ε γ} {input rest : List UInt8} {c : γ}
    (h : (p >>= f).run input = .ok (c, rest)) :
    ∃ b left, p.run input = .ok (b, left) ∧ (f b).run left = .ok (c, rest) := by
  rw [StateT.run_bind] at h
  cases hp : p.run input with
  | error e => rw [hp] at h; cases h
  | ok r => rw [hp] at h; exact ⟨r.1, r.2, rfl, h⟩

theorem ok_of_readExact {count : Nat} {e : ε} {input bytes rest : List UInt8}
    (h : (readExact count e).run input = .ok (bytes, rest)) :
    input = bytes ++ rest ∧ bytes.length = count := by
  simp only [readExact, StateT.run] at h
  split_ifs at h with hle
  obtain ⟨rfl, rfl⟩ := Prod.mk.inj (Except.ok.inj h)
  exact ⟨(List.take_append_drop count input).symm, List.length_take_of_le hle⟩

theorem ok_of_check {x : Except ε β} {b : β} {input rest : List UInt8}
    (h : (check x).run input = .ok (b, rest)) : x = .ok b ∧ rest = input := by
  cases x with
  | error e => cases h
  | ok c =>
    obtain ⟨rfl, rfl⟩ := Prod.mk.inj (Except.ok.inj h)
    exact ⟨rfl, rfl⟩

/-- Whatever the reader accepts is the encoding of the good value it returns. -/
def Parses (p : Reader ε β) (good : β → Prop) (encode : β → List UInt8) : Prop :=
  ∀ input b rest, p.run input = .ok (b, rest) → good b ∧ input = encode b ++ rest

theorem Parses.times {p : Reader ε β} {good : β → Prop} {encode : β → List UInt8}
    (h : Parses p good encode) {n : Nat} {input rest : List UInt8} {bs : List β}
    (hrun : (times p n).run input = .ok (bs, rest)) :
    bs.length = n ∧ (∀ b ∈ bs, good b) ∧ input = bs.flatMap encode ++ rest := by
  induction n generalizing input bs with
  | zero =>
    obtain ⟨rfl, rfl⟩ := Prod.mk.inj (Except.ok.inj hrun)
    simp
  | succ n ih =>
    obtain ⟨b, left, hb, hrun⟩ := ok_of_run_bind hrun
    obtain ⟨tail, left', htail, hrun⟩ := ok_of_run_bind hrun
    obtain ⟨rfl, rfl⟩ := Prod.mk.inj (Except.ok.inj hrun)
    obtain ⟨hgood, rfl⟩ := h _ _ _ hb
    obtain ⟨hlen, hall, rfl⟩ := ih htail
    refine ⟨by simp [hlen], ?_, by simp⟩
    simpa using ⟨hgood, hall⟩

end Reader

end Dlir.Framework
