import Dlir.Framework.Results
import Mathlib.Tactic.Ring

namespace Dlir.Framework

/-- How an operation of the language stops the thread that runs it. -/
inductive Panic
  | overflow
  | divisionByZero
  | remainderByZero
  | indexOutOfBounds
  | notCharBoundary
  | missingValue
  | capacityOverflow
  deriving DecidableEq, Repr

/-- Builds with overflow checks and builds whose arithmetic wraps around. -/
inductive Profile
  | dev
  | release
  deriving DecidableEq, Repr

/-- Code that returns a result or an error, unless it panics. -/
abbrev Panicking (ε : Type) := ExceptT ε (Except Panic)

section Operations

variable {α : Type}

/-- The 64-bit result of an operation whose unbounded result is `n`. -/
def Profile.word : Profile → Nat → Except Panic Nat
  | .dev, n => if n < 2 ^ 64 then .ok n else .error .overflow
  | .release, n => .ok (n % 2 ^ 64)

/-- `sum` over 64-bit numbers. -/
def Profile.sum (self : Profile) (xs : List Nat) : Except Panic Nat :=
  xs.foldlM (fun acc x => self.word (acc + x)) 0

def divide (a b : Nat) : Except Panic Nat :=
  if b = 0 then .error .divisionByZero else .ok (a / b)

def remainder (a b : Nat) : Except Panic Nat :=
  if b = 0 then .error .remainderByZero else .ok (a % b)

def index (xs : List α) (i : Nat) : Except Panic α :=
  match xs[i]? with
  | some x => .ok x
  | none => .error .indexOutOfBounds

/-- The assignment of an element of a list. -/
def assign (xs : List α) (i : Nat) (x : α) : Except Panic (List α) :=
  if i < xs.length then .ok (xs.set i x) else .error .indexOutOfBounds

/-- `expect` of a value. -/
def expect : Option α → Except Panic α
  | some x => .ok x
  | none => .error .missingValue

theorem Profile.word_of_lt (self : Profile) {n : Nat} (h : n < 2 ^ 64) : self.word n = .ok n := by
  cases self with
  | dev => exact if_pos h
  | release => exact congrArg Except.ok (Nat.mod_eq_of_lt h)

/-- The number needs no more than 64 bits where the build checks for overflow. -/
def Profile.Fits (self : Profile) (n : Nat) : Prop := self = .dev → n < 2 ^ 64

/-- When an operation has a result, and which one. -/
theorem Profile.word_eq_ok {self : Profile} {n m : Nat} :
    self.word n = .ok m ↔ self.Fits n ∧ m = n % 2 ^ 64 := by
  cases self with
  | dev =>
    rw [word]
    by_cases hfits : n < 2 ^ 64
    · rw [if_pos hfits, Except.ok.injEq, Nat.mod_eq_of_lt hfits]
      exact ⟨fun h => ⟨fun _ => hfits, h.symm⟩, fun h => h.2.symm⟩
    · rw [if_neg hfits]
      constructor
      · intro h
        cases h
      · intro h
        exact absurd (h.1 rfl) hfits
  | release =>
    rw [word, Except.ok.injEq]
    constructor
    · intro h
      refine ⟨fun hdev => ?_, h.symm⟩
      cases hdev
    · intro h
      exact h.2.symm

theorem Profile.word_returns {self : Profile} {n : Nat} :
    (∃ m, self.word n = .ok m) ↔ self.Fits n := by
  simp [word_eq_ok]

theorem divide_of_pos {a b : Nat} (h : 0 < b) : divide a b = .ok (a / b) := if_neg (by omega)

theorem remainder_of_pos {a b : Nat} (h : 0 < b) : remainder a b = .ok (a % b) := if_neg (by omega)

theorem index_of_lt {xs : List α} {i : Nat} (h : i < xs.length) : index xs i = .ok xs[i] := by
  rw [index, List.getElem?_eq_getElem h]

theorem assign_of_lt {xs : List α} {i : Nat} (h : i < xs.length) (x : α) :
    assign xs i x = .ok (xs.set i x) := if_pos h

end Operations

namespace Profile

/-- A sum that starts from an earlier sum. -/
theorem foldlM_word (self : Profile) {xs : List Nat} {acc : Nat} (h : acc + xs.sum < 2 ^ 64) :
    xs.foldlM (fun acc x => self.word (acc + x)) acc = .ok (acc + xs.sum) := by
  induction xs generalizing acc with
  | nil => rfl
  | cons x xs ih =>
    rw [List.sum_cons, ← Nat.add_assoc] at h ⊢
    have hx : self.word (acc + x) = .ok (acc + x) := self.word_of_lt (by omega)
    rw [List.foldlM_cons, hx]
    exact ih h

theorem sum_of_lt (self : Profile) {xs : List Nat} (h : xs.sum < 2 ^ 64) :
    self.sum xs = .ok xs.sum := by
  have hzero : 0 + xs.sum < 2 ^ 64 := by rwa [Nat.zero_add]
  have hfold := self.foldlM_word hzero
  rw [Nat.zero_add] at hfold
  exact hfold

/-- With overflow checks the result of a sum is the sum. -/
theorem foldlM_word_dev {xs : List Nat} {acc n : Nat} (hacc : acc < 2 ^ 64)
    (h : xs.foldlM (fun acc x => Profile.dev.word (acc + x)) acc = .ok n) :
    acc + xs.sum < 2 ^ 64 := by
  induction xs generalizing acc with
  | nil => simpa using hacc
  | cons x xs ih =>
    rw [List.foldlM_cons] at h
    obtain ⟨next, hnext, h⟩ := ok_of_bind h
    have hlt : acc + x < 2 ^ 64 := word_returns.mp ⟨next, hnext⟩ rfl
    rw [dev.word_of_lt hlt] at hnext
    obtain rfl := Except.ok.inj hnext
    have hrest := ih hlt h
    rw [List.sum_cons]
    omega

/-- Without overflow checks there always is a result. -/
theorem foldlM_word_release (xs : List Nat) (acc : Nat) :
    ∃ n, xs.foldlM (fun acc x => Profile.release.word (acc + x)) acc = .ok n := by
  induction xs generalizing acc with
  | nil => exact ⟨acc, rfl⟩
  | cons x xs ih => exact ih ((acc + x) % 2 ^ 64)

theorem sum_returns {self : Profile} {xs : List Nat} :
    (∃ n, self.sum xs = .ok n) ↔ self.Fits xs.sum := by
  constructor
  · intro h hdev
    obtain ⟨n, hn⟩ := h
    subst hdev
    have hlt := foldlM_word_dev (by omega) hn
    omega
  · intro h
    cases self with
    | dev => exact ⟨_, dev.sum_of_lt (h rfl)⟩
    | release => exact foldlM_word_release xs 0

end Profile

section Runs

variable {α β ε : Type}

/-- The code comes to an end, with a result or with an error. -/
def Returns (x : Panicking ε α) : Prop := ∃ r, x.run = .ok r

/-- The code comes to an end with a result. -/
def Succeeds (x : Panicking ε α) : Prop := ∃ a, x.run = .ok (.ok a)

theorem Succeeds.returns {x : Panicking ε α} (h : Succeeds x) : Returns x := by
  obtain ⟨a, ha⟩ := h
  exact ⟨.ok a, ha⟩

theorem run_bind_eq_ok {x : Panicking ε α} {f : α → Panicking ε β} {b : β} :
    (x >>= f).run = .ok (.ok b) ↔ ∃ a, x.run = .ok (.ok a) ∧ (f a).run = .ok (.ok b) := by
  rw [ExceptT.run_bind, bind_eq_ok]
  constructor
  · intro h
    obtain ⟨r, hr, h⟩ := h
    cases r with
    | error e => cases h
    | ok a => exact ⟨a, hr, h⟩
  · intro h
    obtain ⟨a, ha, h⟩ := h
    exact ⟨.ok a, ha, h⟩

theorem run_bind_of_ok {x : Panicking ε α} {f : α → Panicking ε β} {a : α}
    (h : x.run = .ok (.ok a)) : (x >>= f).run = (f a).run := by
  rw [ExceptT.run_bind, h]
  rfl

/-- An operation of the language comes first. -/
theorem run_lift_bind (x : Except Panic α) (f : α → Panicking ε β) :
    (ExceptT.lift x >>= f).run = x >>= fun a => (f a).run := by
  cases x <;> rfl

/-- A sequence comes to an end when its first part does, and its second part where there is one. -/
theorem returns_bind {x : Panicking ε α} {f : α → Panicking ε β} :
    Returns (x >>= f) ↔ Returns x ∧ ∀ a, x.run = .ok (.ok a) → Returns (f a) := by
  unfold Returns
  simp only [ExceptT.run_bind, bind_eq_ok]
  constructor
  · intro h
    obtain ⟨r, r', hr', h⟩ := h
    refine ⟨⟨r', hr'⟩, fun a ha => ?_⟩
    rw [ha] at hr'
    obtain rfl := Except.ok.inj hr'
    exact ⟨r, h⟩
  · intro h
    obtain ⟨⟨r, hr⟩, hf⟩ := h
    cases r with
    | error e => exact ⟨.error e, .error e, hr, rfl⟩
    | ok a =>
      obtain ⟨r, hr'⟩ := hf a hr
      exact ⟨r, .ok a, hr, hr'⟩

theorem succeeds_bind {x : Panicking ε α} {f : α → Panicking ε β} :
    Succeeds (x >>= f) ↔ ∃ a, x.run = .ok (.ok a) ∧ Succeeds (f a) := by
  unfold Succeeds
  simp only [run_bind_eq_ok]
  constructor
  · intro h
    obtain ⟨b, a, ha, hb⟩ := h
    exact ⟨a, ha, b, hb⟩
  · intro h
    obtain ⟨a, ha, b, hb⟩ := h
    exact ⟨b, a, ha, hb⟩

theorem succeeds_pure (a : α) : Succeeds (pure a : Panicking ε α) := ⟨a, rfl⟩

section Parts

variable {f : α → Panicking ε β}

theorem returns_check_bind {x : Except ε α} :
    Returns (ExceptT.mk (.ok x) >>= f) ↔ ∀ a, x = .ok a → Returns (f a) := by
  rw [returns_bind]
  constructor
  · intro h a ha
    exact h.2 a (congrArg Except.ok ha)
  · intro h
    exact ⟨⟨x, rfl⟩, fun a ha => h a (Except.ok.inj ha)⟩

theorem succeeds_check_bind {x : Except ε α} :
    Succeeds (ExceptT.mk (.ok x) >>= f) ↔ ∃ a, x = .ok a ∧ Succeeds (f a) := by
  rw [succeeds_bind]
  have hrun : ∀ a, (ExceptT.mk (.ok x) : Panicking ε α).run = .ok (.ok a) ↔ x = .ok a := fun a =>
    ⟨fun h => Except.ok.inj h, fun h => congrArg Except.ok h⟩
  simp only [hrun]

theorem returns_lift_bind {x : Except Panic α} :
    Returns (ExceptT.lift x >>= f) ↔ ∃ a, x = .ok a ∧ Returns (f a) := by
  unfold Returns
  simp only [run_lift_bind, bind_eq_ok]
  constructor
  · intro h
    obtain ⟨r, a, ha, hr⟩ := h
    exact ⟨a, ha, r, hr⟩
  · intro h
    obtain ⟨a, ha, r, hr⟩ := h
    exact ⟨r, a, ha, hr⟩

theorem succeeds_lift_bind {x : Except Panic α} :
    Succeeds (ExceptT.lift x >>= f) ↔ ∃ a, x = .ok a ∧ Succeeds (f a) := by
  unfold Succeeds
  simp only [run_lift_bind, bind_eq_ok]
  constructor
  · intro h
    obtain ⟨r, a, ha, hr⟩ := h
    exact ⟨a, ha, r, hr⟩
  · intro h
    obtain ⟨a, ha, r, hr⟩ := h
    exact ⟨r, a, ha, hr⟩

theorem returns_lift {x : Except Panic α} :
    Returns (ExceptT.lift x : Panicking ε α) ↔ ∃ a, x = .ok a := by
  constructor
  · intro h
    obtain ⟨r, hr⟩ := h
    obtain ⟨a, ha, -⟩ := ok_of_bind hr
    exact ⟨a, ha⟩
  · intro h
    obtain ⟨a, rfl⟩ := h
    exact (succeeds_pure a).returns

theorem succeeds_lift {x : Except Panic α} :
    Succeeds (ExceptT.lift x : Panicking ε α) ↔ ∃ a, x = .ok a := by
  constructor
  · intro h
    exact returns_lift.mp h.returns
  · intro h
    obtain ⟨a, rfl⟩ := h
    exact succeeds_pure a

end Parts

theorem run_mapM_eq_ok {f : α → Panicking ε β} {xs : List α} {ys : List β}
    (h : (xs.mapM f).run = .ok (.ok ys)) :
    List.Forall₂ (fun x y => (f x).run = .ok (.ok y)) xs ys := by
  induction xs generalizing ys with
  | nil =>
    obtain rfl := Except.ok.inj (Except.ok.inj h)
    exact .nil
  | cons x xs ih =>
    rw [List.mapM_cons] at h
    obtain ⟨y, hy, h⟩ := run_bind_eq_ok.mp h
    obtain ⟨ys', hys, h⟩ := run_bind_eq_ok.mp h
    obtain rfl := Except.ok.inj (Except.ok.inj h)
    exact .cons hy (ih hys)

theorem succeeds_mapM {f : α → Panicking ε β} {xs : List α} :
    Succeeds (xs.mapM f) ↔ ∀ x ∈ xs, Succeeds (f x) := by
  induction xs with
  | nil => exact ⟨fun _ x hx => absurd hx List.not_mem_nil, fun _ => succeeds_pure []⟩
  | cons x xs ih =>
    rw [List.mapM_cons, List.forall_mem_cons, ← ih, succeeds_bind]
    constructor
    · intro h
      obtain ⟨y, hy, h⟩ := h
      obtain ⟨ys, hys, -⟩ := succeeds_bind.mp h
      exact ⟨⟨y, hy⟩, ys, hys⟩
    · intro h
      obtain ⟨⟨y, hy⟩, ys, hys⟩ := h
      exact ⟨y, hy, succeeds_bind.mpr ⟨ys, hys, succeeds_pure _⟩⟩

/-- A loop comes to an end when every round does that it comes to. -/
theorem returns_mapM {f : α → Panicking ε β} {xs : List α} :
    Returns (xs.mapM f) ↔ ∀ before x after, xs = before ++ x :: after →
      (∀ y ∈ before, Succeeds (f y)) → Returns (f x) := by
  induction xs with
  | nil => exact ⟨fun _ before x after h => by simp at h, fun _ => (succeeds_pure []).returns⟩
  | cons x xs ih =>
    rw [List.mapM_cons, returns_bind]
    constructor
    · intro h before z after hsplit hbefore
      obtain ⟨hx, hrest⟩ := h
      cases before with
      | nil =>
        obtain ⟨rfl, -⟩ := List.cons.inj hsplit
        exact hx
      | cons y before =>
        obtain ⟨rfl, hxs⟩ := List.cons.inj hsplit
        obtain ⟨⟨y, hy⟩, hbefore⟩ := List.forall_mem_cons.mp hbefore
        exact ih.mp (returns_bind.mp (hrest y hy)).1 before z after hxs hbefore
    · intro h
      refine ⟨h [] x xs rfl fun y hy => absurd hy List.not_mem_nil, fun y hy => ?_⟩
      have hxs : Returns (xs.mapM f) := by
        refine ih.mpr fun before z after hsplit hbefore => ?_
        refine h (x :: before) z after (by rw [hsplit]; rfl) ?_
        exact List.forall_mem_cons.mpr ⟨⟨y, hy⟩, hbefore⟩
      exact returns_bind.mpr ⟨hxs, fun ys _ => (succeeds_pure (y :: ys)).returns⟩

/-- The rounds of a loop, by their numbers. -/
theorem returns_mapM_iff {f : α → Panicking ε β} {xs : List α} : Returns (xs.mapM f) ↔
    ∀ i (hi : i < xs.length), (∀ j (hj : j < i), Succeeds (f xs[j])) → Returns (f xs[i]) := by
  rw [returns_mapM]
  constructor
  · intro h i hi hbefore
    have hsplit : xs = xs.take i ++ xs[i] :: xs.drop (i + 1) := by
      rw [← List.drop_eq_getElem_cons hi, List.take_append_drop]
    refine h _ _ _ hsplit fun y hy => ?_
    obtain ⟨j, hj, rfl⟩ := List.mem_iff_getElem.mp hy
    rw [List.length_take] at hj
    rw [List.getElem_take]
    exact hbefore j (by omega)
  · intro h before x after hsplit hbefore
    subst hsplit
    have hround := h before.length (by simp) fun j hj => by
      rw [List.getElem_append_left hj]
      exact hbefore _ (List.getElem_mem hj)
    simpa using hround

/-- The rounds of a loop over the first numbers. -/
theorem returns_mapM_range {f : Nat → Panicking ε β} {n : Nat} :
    Returns ((List.range n).mapM f) ↔
      ∀ i, i < n → (∀ j, j < i → Succeeds (f j)) → Returns (f i) := by
  rw [returns_mapM_iff]
  simp only [List.length_range, List.getElem_range]

end Runs

end Dlir.Framework
