import Dlir.Collectives.Rank
import Dlir.Math.Checked
import Mathlib.Data.Fintype.Card
import Mathlib.Data.Finset.Card
import Mathlib.Logic.Relation

namespace Dlir.Collectives

open Dlir.Math Relation

structure BarrierState where
  generation : Nat
  arrived : Nat
  broken : Bool
  deriving DecidableEq, Repr

/-- How a critical section of `wait` ends: the call returns, or it sleeps until it is woken. -/
inductive Pause
  | returned (result : Except CollectivesError Unit)
  | asleep

namespace InMemoryBarrier

/-- The call gives up and breaks the barrier for everybody. -/
def giveUp (rank generation : Nat) (state : BarrierState) : BarrierState × Pause :=
  ({ state with broken := true }, .returned (.error (.barrierTimeout rank generation)))

/-- The head of the loop in `wait`. -/
def sleepUntil (rank generation : Nat) (expired : Bool) (state : BarrierState) :
    BarrierState × Pause :=
  if expired then giveUp rank generation state else (state, .asleep)

/-- The first critical section of `wait`, from taking the lock to returning or sleeping. -/
def enter (worldSize rank : Nat) (expired : Bool) (state : BarrierState) : BarrierState × Pause :=
  if state.broken then (state, .returned (.error (.barrierBroken rank state.generation)))
  else if state.arrived + 1 = worldSize then
    match checkedAdd state.generation 1 with
    | some next => ({ state with arrived := 0, generation := next }, .returned (.ok ()))
    | none =>
      ({ state with arrived := 0 }, .returned (.error (.protocol "barrier generation overflow")))
  else sleepUntil rank state.generation expired { state with arrived := state.arrived + 1 }

/-- Every later critical section, entered when the condition variable wakes the call. -/
def wake (rank generation : Nat) (timedOut expired : Bool) (state : BarrierState) :
    BarrierState × Pause :=
  if state.generation ≠ generation then (state, .returned (.ok ()))
  else if state.broken then (state, .returned (.error (.barrierBroken rank generation)))
  else if timedOut then giveUp rank generation state
  else sleepUntil rank generation expired state

end InMemoryBarrier

/-- The barrier with its callers. A sleeping call remembers its generation; `entered` and
`returned` record, with its rank and generation, every call that passed the broken check and every
call that came back. -/
structure BarrierWorld (world : Nat) where
  state : BarrierState
  sleeping : Rank world → Option Nat
  entered : List (Rank world × Nat)
  returned : List (Rank world × Nat × Except CollectivesError Unit)

namespace BarrierWorld

variable {world : Nat}

def initial (world : Nat) : BarrierWorld world := ⟨⟨0, 0, false⟩, fun _ => none, [], []⟩

/-- Books the end of a critical section of `rank` in `generation`. -/
def finish (w : BarrierWorld world) (rank : Rank world) (generation : Nat) :
    BarrierState × Pause → BarrierWorld world
  | (state, .returned result) =>
    { w with state, sleeping := Function.update w.sleeping rank none,
             returned := (rank, generation, result) :: w.returned }
  | (state, .asleep) =>
    { w with state, sleeping := Function.update w.sleeping rank (some generation) }

/-- One critical section of one rank. Whether a deadline has passed and why a sleeper wakes is left
open. -/
inductive Step : BarrierWorld world → BarrierWorld world → Prop
  | call {w : BarrierWorld world} (rank : Rank world) (expired : Bool) :
      w.sleeping rank = none →
      Step w (({ w with entered := if w.state.broken then w.entered
                  else (rank, w.state.generation) :: w.entered }).finish rank w.state.generation
        (InMemoryBarrier.enter world rank.val expired w.state))
  | wake {w : BarrierWorld world} (rank : Rank world) (generation : Nat)
      (timedOut expired : Bool) : w.sleeping rank = some generation →
      Step w (w.finish rank generation
        (InMemoryBarrier.wake rank.val generation timedOut expired w.state))

/-- Everything one critical section can do. -/
theorem Step.cases {w w' : BarrierWorld world} (h : Step w w') : ∃ rank,
    -- a call refused by a broken barrier
    (w.sleeping rank = none ∧ w.state.broken = true ∧ w' = { w with
      sleeping := Function.update w.sleeping rank none
      returned := (rank, w.state.generation,
        .error (.barrierBroken rank.val w.state.generation)) :: w.returned }) ∨
    -- the last arrival
    (w.sleeping rank = none ∧ w.state.broken = false ∧ w.state.arrived + 1 = world ∧
      w.state.generation + 1 < 2 ^ 64 ∧ w' = { w with
        state := { w.state with arrived := 0, generation := w.state.generation + 1 }
        sleeping := Function.update w.sleeping rank none
        entered := (rank, w.state.generation) :: w.entered
        returned := (rank, w.state.generation, .ok ()) :: w.returned }) ∨
    -- the last arrival of the last generation
    (w.state.broken = false ∧ 2 ^ 64 ≤ w.state.generation + 1 ∧
      w'.state.generation = w.state.generation) ∨
    -- an arrival that has no time left
    (w.sleeping rank = none ∧ w.state.broken = false ∧ w.state.arrived + 1 ≠ world ∧ w' = { w with
        state := { w.state with arrived := w.state.arrived + 1, broken := true }
        sleeping := Function.update w.sleeping rank none
        entered := (rank, w.state.generation) :: w.entered
        returned := (rank, w.state.generation,
          .error (.barrierTimeout rank.val w.state.generation)) :: w.returned }) ∨
    -- an arrival that goes to sleep
    (w.sleeping rank = none ∧ w.state.broken = false ∧ w.state.arrived + 1 ≠ world ∧ w' = { w with
        state := { w.state with arrived := w.state.arrived + 1 }
        sleeping := Function.update w.sleeping rank (some w.state.generation)
        entered := (rank, w.state.generation) :: w.entered }) ∨
    -- a sleeper of a finished generation
    (∃ g, w.sleeping rank = some g ∧ w.state.generation ≠ g ∧ w' = { w with
        sleeping := Function.update w.sleeping rank none
        returned := (rank, g, .ok ()) :: w.returned }) ∨
    -- a sleeper of a broken generation
    (w.sleeping rank = some w.state.generation ∧ w.state.broken = true ∧ w' = { w with
        sleeping := Function.update w.sleeping rank none
        returned := (rank, w.state.generation,
          .error (.barrierBroken rank.val w.state.generation)) :: w.returned }) ∨
    -- a sleeper that has no time left
    (w.sleeping rank = some w.state.generation ∧ w.state.broken = false ∧ w' = { w with
        state := { w.state with broken := true }
        sleeping := Function.update w.sleeping rank none
        returned := (rank, w.state.generation,
          .error (.barrierTimeout rank.val w.state.generation)) :: w.returned }) ∨
    -- a sleeper that goes back to sleep
    w' = w := by
  cases h with
  | call rank expired hidle =>
    refine ⟨rank, ?_⟩
    by_cases hbroken : w.state.broken = true
    · left
      simp [InMemoryBarrier.enter, hbroken, finish, hidle]
    · have hwhole : w.state.broken = false := by simpa using hbroken
      by_cases hlast : w.state.arrived + 1 = world
      · by_cases hfit : w.state.generation + 1 < 2 ^ 64
        · right; left
          refine ⟨hidle, hwhole, hlast, hfit, ?_⟩
          simp [InMemoryBarrier.enter, hwhole, hlast, checkedAdd_some hfit, finish]
        · right; right; left
          simp only [InMemoryBarrier.enter, hwhole, hlast, checkedAdd_none hfit, finish]
          exact ⟨trivial, by omega, rfl⟩
      · cases expired with
        | true =>
          right; right; right; left
          simp [InMemoryBarrier.enter, InMemoryBarrier.sleepUntil, InMemoryBarrier.giveUp, hwhole,
            hlast, finish, hidle]
        | false =>
          right; right; right; right; left
          simp [InMemoryBarrier.enter, InMemoryBarrier.sleepUntil, hwhole, hlast, finish, hidle]
  | wake rank g timedOut expired hasleep =>
    refine ⟨rank, ?_⟩
    by_cases hgen : w.state.generation = g
    · subst hgen
      have hsame : Function.update w.sleeping rank (some w.state.generation) = w.sleeping := by
        rw [← hasleep, Function.update_eq_self]
      by_cases hbroken : w.state.broken = true
      · right; right; right; right; right; right; left
        simp [InMemoryBarrier.wake, hbroken, finish, hasleep]
      · have hwhole : w.state.broken = false := by simpa using hbroken
        cases timedOut with
        | true =>
          right; right; right; right; right; right; right; left
          simp [InMemoryBarrier.wake, InMemoryBarrier.giveUp, hwhole, finish, hasleep]
        | false =>
          cases expired with
          | true =>
            right; right; right; right; right; right; right; left
            simp [InMemoryBarrier.wake, InMemoryBarrier.sleepUntil, InMemoryBarrier.giveUp, hwhole,
              finish, hasleep]
          | false =>
            right; right; right; right; right; right; right; right
            simp [InMemoryBarrier.wake, InMemoryBarrier.sleepUntil, hwhole, finish, hsame]
    · right; right; right; right; right; left
      exact ⟨g, hasleep, hgen, by simp [InMemoryBarrier.wake, hgen, finish]⟩

/-- The ranks that have entered a generation. -/
def present (w : BarrierWorld world) (generation : Nat) : Finset (Rank world) :=
  Finset.univ.filter fun rank => (rank, generation) ∈ w.entered

/-- What holds between critical sections. -/
structure Inv (w : BarrierWorld world) : Prop where
  entered_le : ∀ rank g, (rank, g) ∈ w.entered → g ≤ w.state.generation
  complete : ∀ g, g < w.state.generation → ∀ rank, (rank, g) ∈ w.entered
  arrived_eq : w.state.arrived = (w.present w.state.generation).card
  arrived_lt : w.state.arrived < world
  sleeping_entered : ∀ rank g, w.sleeping rank = some g → (rank, g) ∈ w.entered
  answered : ∀ rank g, (rank, g) ∈ w.entered →
    w.sleeping rank = some g ∨ ∃ result, (rank, g, result) ∈ w.returned
  passed : ∀ rank g, (rank, g, .ok ()) ∈ w.returned → g < w.state.generation
  failed : ∀ rank g e, (rank, g, .error e) ∈ w.returned →
    g = w.state.generation ∧ w.state.broken = true

namespace Inv

variable {w w' : BarrierWorld world}

theorem initial (hworld : 0 < world) : (BarrierWorld.initial world).Inv where
  entered_le := by simp [BarrierWorld.initial]
  complete := by simp [BarrierWorld.initial]
  arrived_eq := by simp [BarrierWorld.initial, present]
  arrived_lt := hworld
  sleeping_entered := by simp [BarrierWorld.initial]
  answered := by simp [BarrierWorld.initial]
  passed := by simp [BarrierWorld.initial]
  failed := by simp [BarrierWorld.initial]

/-- A rank outside a whole barrier has not entered its current generation. -/
theorem absent (h : w.Inv) {rank : Rank world} (hidle : w.sleeping rank = none)
    (hwhole : w.state.broken = false) : (rank, w.state.generation) ∉ w.entered := by
  intro hin
  rcases h.answered _ _ hin with hasleep | ⟨result, hret⟩
  · rw [hidle] at hasleep
    cases hasleep
  · cases result with
    | ok _ => exact Nat.lt_irrefl _ (h.passed _ _ hret)
    | error e =>
      have hbroken := (h.failed _ _ _ hret).2
      rw [hwhole] at hbroken
      cases hbroken

theorem present_cons (h : w.Inv) {rank : Rank world} (hidle : w.sleeping rank = none)
    (hwhole : w.state.broken = false) :
    (Finset.univ.filter fun q => (q, w.state.generation) ∈
      (rank, w.state.generation) :: w.entered).card = w.state.arrived + 1 := by
  have habsent := h.absent hidle hwhole
  have hinsert : (Finset.univ.filter fun q => (q, w.state.generation) ∈
      (rank, w.state.generation) :: w.entered) = insert rank (w.present w.state.generation) := by
    ext q
    simp [present]
  rw [hinsert, Finset.card_insert_of_notMem (by simpa [present] using habsent), h.arrived_eq]

/-- A generation that has reached the world size has everybody in it. -/
theorem everybody (h : w.Inv) {rank : Rank world} (hidle : w.sleeping rank = none)
    (hwhole : w.state.broken = false) (hlast : w.state.arrived + 1 = world) (q : Rank world) :
    (q, w.state.generation) ∈ (rank, w.state.generation) :: w.entered := by
  have hcard := h.present_cons hidle hwhole
  rw [hlast] at hcard
  have huniv := Finset.eq_univ_of_card _ (hcard.trans (Fintype.card_fin world).symm)
  have hq : q ∈ Finset.univ.filter fun q => (q, w.state.generation) ∈
      (rank, w.state.generation) :: w.entered := by
    rw [huniv]
    exact Finset.mem_univ q
  exact (Finset.mem_filter.mp hq).2

/-- A call that comes back leaves everything but its own record as it was. -/
theorem returning (h : w.Inv) {rank : Rank world} {g : Nat} {result : Except CollectivesError Unit}
    (hold : ∀ g', w.sleeping rank = some g' → g' = g)
    (hok : result = .ok () → g < w.state.generation)
    (herror : ∀ e, result = .error e → g = w.state.generation ∧ w.state.broken = true) :
    ({ w with sleeping := Function.update w.sleeping rank none
              returned := (rank, g, result) :: w.returned } : BarrierWorld world).Inv where
  entered_le := h.entered_le
  complete := h.complete
  arrived_eq := h.arrived_eq
  arrived_lt := h.arrived_lt
  sleeping_entered := by
    intro q g' hq
    by_cases hqr : q = rank
    · subst hqr
      simp at hq
    · simp only [Function.update_of_ne hqr] at hq
      exact h.sleeping_entered q g' hq
  answered := by
    intro q g' hin
    by_cases hqr : q = rank
    · subst hqr
      right
      rcases h.answered _ _ hin with hasleep | ⟨result', hret⟩
      · obtain rfl := hold _ hasleep
        exact ⟨result, by simp⟩
      · exact ⟨result', List.mem_cons_of_mem _ hret⟩
    · rcases h.answered _ _ hin with hasleep | ⟨result', hret⟩
      · left
        simpa only [Function.update_of_ne hqr] using hasleep
      · exact .inr ⟨result', List.mem_cons_of_mem _ hret⟩
  passed := by
    intro q g' hin
    rcases List.mem_cons.mp hin with heq | hin
    · simp only [Prod.mk.injEq] at heq
      obtain ⟨-, rfl, hres⟩ := heq
      exact hok hres.symm
    · exact h.passed q g' hin
  failed := by
    intro q g' e hin
    rcases List.mem_cons.mp hin with heq | hin
    · simp only [Prod.mk.injEq] at heq
      obtain ⟨-, rfl, hres⟩ := heq
      exact herror e hres.symm
    · exact h.failed q g' e hin

/-- An arrival that does not complete its generation goes to sleep. -/
theorem arriving (h : w.Inv) {rank : Rank world} (hidle : w.sleeping rank = none)
    (hwhole : w.state.broken = false) (hlast : w.state.arrived + 1 ≠ world) :
    ({ w with state := { w.state with arrived := w.state.arrived + 1 }
              sleeping := Function.update w.sleeping rank (some w.state.generation)
              entered := (rank, w.state.generation) :: w.entered } : BarrierWorld world).Inv where
  entered_le := by
    intro q g hin
    rcases List.mem_cons.mp hin with heq | hin
    · obtain ⟨-, rfl⟩ := Prod.mk.inj heq
      exact le_rfl
    · exact h.entered_le q g hin
  complete := fun g hg q => List.mem_cons_of_mem _ (h.complete g hg q)
  arrived_eq := (h.present_cons hidle hwhole).symm
  arrived_lt := by
    have hlt := h.arrived_lt
    simp only
    omega
  sleeping_entered := by
    intro q g hq
    by_cases hqr : q = rank
    · subst hqr
      simp only [Function.update_self, Option.some.injEq] at hq
      simp [hq]
    · simp only [Function.update_of_ne hqr] at hq
      exact List.mem_cons_of_mem _ (h.sleeping_entered q g hq)
  answered := by
    intro q g hin
    rcases List.mem_cons.mp hin with heq | hin
    · obtain ⟨rfl, rfl⟩ := Prod.mk.inj heq
      simp
    · rcases h.answered _ _ hin with hasleep | hret
      · by_cases hqr : q = rank
        · subst hqr
          rw [hidle] at hasleep
          cases hasleep
        · left
          simpa only [Function.update_of_ne hqr] using hasleep
      · exact .inr hret
  passed := h.passed
  failed := h.failed

/-- A whole barrier may break at any time: nobody has failed before. -/
theorem breaking (h : w.Inv) (hwhole : w.state.broken = false) :
    ({ w with state := { w.state with broken := true } } : BarrierWorld world).Inv where
  entered_le := h.entered_le
  complete := h.complete
  arrived_eq := h.arrived_eq
  arrived_lt := h.arrived_lt
  sleeping_entered := h.sleeping_entered
  answered := h.answered
  passed := h.passed
  failed := by
    intro q g e hin
    have hbroken := (h.failed q g e hin).2
    rw [hwhole] at hbroken
    cases hbroken

/-- The last arrival opens the next generation. -/
theorem completing (h : w.Inv) {rank : Rank world} (hidle : w.sleeping rank = none)
    (hwhole : w.state.broken = false) (hlast : w.state.arrived + 1 = world) :
    ({ w with state := { w.state with arrived := 0, generation := w.state.generation + 1 }
              sleeping := Function.update w.sleeping rank none
              entered := (rank, w.state.generation) :: w.entered
              returned := (rank, w.state.generation, .ok ()) :: w.returned } :
      BarrierWorld world).Inv where
  entered_le := by
    intro q g hin
    rcases List.mem_cons.mp hin with heq | hin
    · obtain ⟨-, rfl⟩ := Prod.mk.inj heq
      exact Nat.le_succ _
    · exact (h.entered_le q g hin).trans (Nat.le_succ _)
  complete := by
    intro g hg q
    rcases Nat.lt_succ_iff_lt_or_eq.mp hg with hlt | rfl
    · exact List.mem_cons_of_mem _ (h.complete g hlt q)
    · exact h.everybody hidle hwhole hlast q
  arrived_eq := by
    symm
    rw [Finset.card_eq_zero, present, Finset.filter_eq_empty_iff]
    intro q _ hin
    rcases List.mem_cons.mp hin with heq | hin
    · have := (Prod.mk.inj heq).2
      simp at this
    · exact Nat.not_succ_le_self _ (h.entered_le _ _ hin)
  arrived_lt := by
    simp only
    omega
  sleeping_entered := by
    intro q g hq
    by_cases hqr : q = rank
    · subst hqr
      simp at hq
    · simp only [Function.update_of_ne hqr] at hq
      exact List.mem_cons_of_mem _ (h.sleeping_entered q g hq)
  answered := by
    intro q g hin
    by_cases hqr : q = rank
    · subst hqr
      right
      rcases List.mem_cons.mp hin with heq | hin
      · obtain ⟨-, rfl⟩ := Prod.mk.inj heq
        exact ⟨.ok (), by simp⟩
      · rcases h.answered _ _ hin with hasleep | ⟨result, hret⟩
        · rw [hidle] at hasleep
          cases hasleep
        · exact ⟨result, List.mem_cons_of_mem _ hret⟩
    · have hin' : (q, g) ∈ w.entered := by simpa [hqr] using hin
      rcases h.answered _ _ hin' with hasleep | ⟨result, hret⟩
      · left
        simpa only [Function.update_of_ne hqr] using hasleep
      · exact .inr ⟨result, List.mem_cons_of_mem _ hret⟩
  passed := by
    intro q g hin
    rcases List.mem_cons.mp hin with heq | hin
    · simp only [Prod.mk.injEq] at heq
      obtain ⟨-, rfl, -⟩ := heq
      exact Nat.lt_succ_self _
    · exact (h.passed q g hin).trans (Nat.lt_succ_self _)
  failed := by
    intro q g e hin
    have hin' : (q, g, .error e) ∈ w.returned := by simpa using hin
    have hbroken := (h.failed q g e hin').2
    rw [hwhole] at hbroken
    cases hbroken

theorem step (h : w.Inv) (hstep : Step w w') (hgen : w'.state.generation < 2 ^ 64 - 1) :
    w'.Inv := by
  obtain ⟨rank, ⟨hidle, hbroken, rfl⟩ | ⟨hidle, hwhole, hlast, -, rfl⟩ | ⟨-, hover, hsame⟩ |
    ⟨hidle, hwhole, hlast, rfl⟩ | ⟨hidle, hwhole, hlast, rfl⟩ | ⟨g, hasleep, hne, rfl⟩ |
    ⟨hasleep, hbroken, rfl⟩ | ⟨hasleep, hwhole, rfl⟩ | rfl⟩ := hstep.cases
  · exact h.returning (by simp [hidle]) (by simp) (by simp [hbroken])
  · exact h.completing hidle hwhole hlast
  · omega
  · have hslept := (h.arriving hidle hwhole hlast).breaking hwhole
    have hback := @returning _ _ hslept rank w.state.generation
      (.error (.barrierTimeout rank.val w.state.generation)) (by simp) (by simp) (by simp)
    simpa using hback
  · exact h.arriving hidle hwhole hlast
  · have hle := h.entered_le _ _ (h.sleeping_entered _ _ hasleep)
    exact h.returning (by simp [hasleep]) (fun _ => by omega) (by simp)
  · exact h.returning (by simp [hasleep]) (by simp) (by simp [hbroken])
  · exact (h.breaking hwhole).returning (by simp [hasleep]) (by simp) (by simp)
  · exact h

end Inv

theorem Step.generation_le {w w' : BarrierWorld world} (h : Step w w') :
    w.state.generation ≤ w'.state.generation := by
  obtain ⟨rank, ⟨-, -, rfl⟩ | ⟨-, -, -, -, rfl⟩ | ⟨-, -, hsame⟩ | ⟨-, -, -, rfl⟩ |
    ⟨-, -, -, rfl⟩ | ⟨g, -, -, rfl⟩ | ⟨-, -, rfl⟩ | ⟨-, -, rfl⟩ | rfl⟩ := h.cases
  · exact le_rfl
  · exact Nat.le_succ _
  · exact hsame.ge
  all_goals exact le_rfl

theorem reaches_inv (hworld : 0 < world) {w : BarrierWorld world}
    (h : ReflTransGen Step (initial world) w) (hgen : w.state.generation < 2 ^ 64 - 1) : w.Inv := by
  induction h with
  | refl => exact Inv.initial hworld
  | tail _ hstep ih =>
    have hle := hstep.generation_le
    exact (ih (by omega)).step hstep hgen

/-- A broken barrier keeps its generation, and calls only return `Ok` for older ones. -/
theorem Inv.after_break {w w' : BarrierWorld world} (h : w.Inv) (hbroken : w.state.broken = true)
    (hrun : ReflTransGen Step w w') : w'.Inv ∧ w'.state.broken = true ∧
      w'.state.generation = w.state.generation ∧ ∃ later, w'.returned = later ++ w.returned ∧
        ∀ rank g, (rank, g, .ok ()) ∈ later → g < w.state.generation := by
  induction hrun with
  | refl => exact ⟨h, hbroken, rfl, [], rfl, by simp⟩
  | @tail u v _ hstep ih =>
    obtain ⟨hu, hub, hug, later, hlater, hold⟩ := ih
    obtain ⟨rank, ⟨hidle, -, rfl⟩ | ⟨-, hwhole, -⟩ | ⟨hwhole, -⟩ | ⟨-, hwhole, -⟩ |
      ⟨-, hwhole, -⟩ | ⟨g, hasleep, hne, rfl⟩ | ⟨hasleep, -, rfl⟩ | ⟨-, hwhole, -⟩ | rfl⟩ :=
      hstep.cases
    · refine ⟨hu.returning (by simp [hidle]) (by simp) (by simp [hub]), hub, hug, _ :: later,
        by rw [hlater]; rfl, ?_⟩
      intro q g hin
      exact hold q g (by simpa using hin)
    · rw [hub] at hwhole
      cases hwhole
    · rw [hub] at hwhole
      cases hwhole
    · rw [hub] at hwhole
      cases hwhole
    · rw [hub] at hwhole
      cases hwhole
    · have hle := hu.entered_le _ _ (hu.sleeping_entered _ _ hasleep)
      refine ⟨hu.returning (by simp [hasleep]) (fun _ => by omega) (by simp), hub, hug, _ :: later,
        by rw [hlater]; rfl, ?_⟩
      intro q g' hin
      rcases List.mem_cons.mp hin with heq | hin
      · simp only [Prod.mk.injEq] at heq
        omega
      · exact hold q g' hin
    · refine ⟨hu.returning (by simp [hasleep]) (by simp) (by simp [hub]), hub, hug, _ :: later,
        by rw [hlater]; rfl, ?_⟩
      intro q g hin
      exact hold q g (by simpa using hin)
    · rw [hub] at hwhole
      cases hwhole
    · exact ⟨hu, hub, hug, later, hlater, hold⟩

/-- Agreement of the in-memory barrier, for every order of critical sections, wake-ups and
timeouts. -/
theorem barrier_agreement (hworld : 0 < world) {w : BarrierWorld world}
    (hreach : ReflTransGen Step (initial world) w) (hgen : w.state.generation < 2 ^ 64 - 1) :
    (∀ rank g, (rank, g, .ok ()) ∈ w.returned → ∀ q, (q, g) ∈ w.entered) ∧
    (∀ rank q g e, (rank, g, .ok ()) ∈ w.returned → (q, g, .error e) ∉ w.returned) ∧
    (w.state.broken = true → ∀ w', ReflTransGen Step w w' →
      ∃ later, w'.returned = later ++ w.returned ∧
        ∀ rank g, (rank, g, .ok ()) ∈ later → g < w.state.generation) ∧
    w.state.arrived < world ∧ w.state.arrived = (w.present w.state.generation).card := by
  have hinv := reaches_inv hworld hreach hgen
  refine ⟨?_, ?_, ?_, hinv.arrived_lt, hinv.arrived_eq⟩
  · intro rank g hret
    exact hinv.complete g (hinv.passed rank g hret)
  · intro rank q g e hok herror
    have hlt := hinv.passed rank g hok
    have heq := (hinv.failed q g e herror).1
    omega
  · intro hbroken w' hrun
    exact (hinv.after_break hbroken hrun).2.2.2

/-- Two ranks meet once; then one of them gives up alone. -/
theorem barrier_agreement_pair : ∃ w : BarrierWorld 2, ReflTransGen Step (initial 2) w ∧
    (1, 0, .ok ()) ∈ w.returned ∧ (1, 1, .error (.barrierTimeout 1 1)) ∈ w.returned ∧
    ∀ q, (q, 0) ∈ w.entered := by
  have h1 := (ReflTransGen.refl (r := Step) (a := initial 2)).tail (.call 0 false rfl)
  have h2 := h1.tail (.call 1 false (by decide +kernel))
  have h3 := h2.tail (.call 1 true (by decide +kernel))
  refine ⟨_, h3, ?_, ?_, (barrier_agreement (by decide) h3 (by decide +kernel)).1 1 0 ?_⟩
  · decide +kernel
  · decide +kernel
  · decide +kernel

end BarrierWorld

end Dlir.Collectives
