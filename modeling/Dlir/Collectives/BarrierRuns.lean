import Dlir.Collectives.BarrierProtocol
import Dlir.Collectives.TaggedReceive

namespace Dlir.Collectives

open Dlir.Framework Dlir.Math Session

namespace TcpTransport

/-- The entry of a barrier call whose result is of some kind. -/
def barrierEntry (p : Except CollectivesError (Answer UInt32) → Bool)
    (entry : Operation UInt32 Unit × Except CollectivesError (Answer UInt32)) : Bool :=
  match entry.1 with
  | .other _ => p entry.2
  | .message _ => false

/-- How many barrier calls returned `Ok`. The call after `g` of them is the one for generation
`g`. -/
def barriersPassed
    (history : List (Operation UInt32 Unit × Except CollectivesError (Answer UInt32))) : Nat :=
  history.countP (barrierEntry Except.isOk)

variable {world : Nat} {maximum : UInt64} {w w' : Session (endpoints world maximum)}
  {e : Event (Rank world) (endpoints world maximum).Op} {root : Rank world}

/-- Tensors that are sent have at most 64 dimensions, unless the encoder refuses them anyway. -/
def Shallow (w : Session (endpoints world maximum))
    (e : Event (Rank world) (endpoints world maximum).Op) : Prop :=
  ∀ i op j m k, e = .send i → w.call i = some (op, .send j m k) →
    m.dimensions ≤ 64 ∨ m.Refused maximum

/-- Steps that do not get in the way of barriers: tensors have at most 64 dimensions, a barrier
does not read a control frame, and no wait ends in the middle of a frame. -/
structure Undisturbed (w : Session (endpoints world maximum))
    (e : Event (Rank world) (endpoints world maximum).Op) : Prop where
  shallow : Shallow w e
  control : ∀ i j sel k m c tag, e = .recv i → w.call i = some (.other (), .recv j sel k) →
    (endpoints world maximum).box.take (w.mail i) j sel.stored = none →
    (endpoints world maximum).link.pop (w.chan j i) = some (.ok m, c) → m.key ≠ .control tag
  whole : ∀ i lost, e = .expire i lost → lost = 0

/-- What barriers and messages do in such a step can be accounted for, if barriers look for barrier
frames. -/
theorem Undisturbed.orderly (he : Undisturbed w e) (htracked : Tracked w)
    (hselector : ∀ {i j : Rank world} {sel k}, w.call i = some (.other (), .recv j sel k) →
      sel = barrierSelector i j) : w.Orderly e where
  sends := by
    intro i op j m k c hsend hcall hpush
    obtain ⟨bytes, hwrite⟩ := writeWire_of_push hpush
    obtain ⟨body, hbody, -⟩ := ok_of_bind hwrite
    exact readable_of_encodeWire hbody (he.shallow i op j m k hsend hcall)
  selects := by
    intro i op j sel k m c hrecv hcall htake hpop hfresh
    have hbetween := htracked.between_fresh hpop
    cases op with
    | message call => rw [← htracked.selects hcall hbetween, hfresh]
    | other b =>
      have hcontrol := he.control i j sel k m c
      obtain rfl := hselector hcall
      rw [stored_barrierSelector, decide_eq_true_iff]
      simp only [barrierSelector, Backend.misaddressed_between hbetween, Bool.false_or] at hfresh
      cases m with
      | tensor s d tag packet => cases hfresh
      | control s d tag packet => exact absurd rfl (hcontrol tag hrecv hcall htake hpop)
      | barrierArrive s d g => rfl
      | barrierRelease s d g => rfl
  whole := he.whole

/-- The invariant of runs with barriers. -/
structure Barriers (root : Rank world) (w : Session (endpoints world maximum)) : Prop where
  tracked : Tracked w
  live : w.Live
  protocol : ∃ ph, Protocol root (board w) ph

namespace Barriers

/-- The search of a barrier that waits. -/
theorem selector (h : Barriers root w) (hzero : root.val = 0) {i j : Rank world} {sel k}
    (hcall : w.call i = some (.other (), .recv j sel k)) : sel = barrierSelector i j := by
  obtain ⟨ph, hprotocol⟩ := h.protocol
  obtain ⟨ph', -, ⟨-, rfl, -, hcode⟩ | ⟨rfl, rest, -, hcode⟩⟩ :=
    hprotocol.phase_of_recv hzero (running_board.mpr hcall)
  · exact (Proc.recv.inj hcode).2.1.symm
  · exact (Proc.recv.inj hcode).2.1.symm

theorem orderly (h : Barriers root w) (hzero : root.val = 0) (he : Undisturbed w e) :
    w.Orderly e :=
  he.orderly h.tracked fun hcall => h.selector hzero hcall

theorem step (h : Barriers root w) (hzero : root.val = 0) (hmax : 64 ≤ maximum.toNat)
    (he : Undisturbed w e) (hpunctual : ∀ i lost, e ≠ .expire i lost) (hfire : Fire e w w') :
    Barriers root w' := by
  have hord := h.orderly hzero he
  have htracked : Tracked w' := h.tracked.step quiet_barrier hord hfire
  refine ⟨htracked, h.live.step hfire, ?_⟩
  obtain ⟨ph, hprotocol⟩ := h.protocol
  rcases turn_of_fire h.tracked hord hfire with hsame | hturn
  · rw [hsame]
    exact ⟨ph, hprotocol⟩
  · exact hprotocol.turn hzero hmax hturn hpunctual

theorem initial (root : Rank world) :
    Barriers root (Session.initial (endpoints world maximum)) where
  tracked := .initial
  live := nofun
  protocol := by
    refine ⟨fun _ => .idle, ?_, ?_, ?_, ?_, ?_, ?_⟩
    · intro r
      rfl
    · intro r
      rfl
    · intro r
      rfl
    · intro r
      trivial
    · constructor
      · intro i j
        exact List.prefix_refl _
      · intro r _
        exact ⟨rfl, rfl⟩
      · intro r _
        rfl
      · intro r _
        exact ⟨rfl, rfl⟩
      · intro r _
        rfl
      · intro r _ hne
        exact absurd rfl hne
    · intro r x hx
      cases hx

/-- Counting results is counting entries of the history. -/
theorem countP_results (p : Except CollectivesError (Answer UInt32) → Bool) (r : Rank world) :
    ((board w).results r).countP p = (w.history r).countP (barrierEntry p) := by
  unfold board
  dsimp only
  generalize w.history r = history
  induction history with
  | nil => rfl
  | cons entry history ih =>
    obtain ⟨op, x⟩ := entry
    cases op with
    | message call => simpa [List.countP_cons, barrierEntry] using ih
    | other b =>
      simp only [List.filterMap_cons, List.countP_cons, barrierEntry, ih]
      rfl

/-- The generation of a rank is the number of its barriers that returned `Ok`. -/
theorem passed (h : Barriers root w) (r : Rank world) :
    w.locals r = barriersPassed (w.history r) := by
  obtain ⟨ph, hprotocol⟩ := h.protocol
  exact (hprotocol.passes r).trans (countP_results Except.isOk r)

end Barriers

/-- A rank that is not the root has gone through no more barriers than the root has released it
from. -/
theorem Ties.round_member {n ph sent taken} (h : Ties root n ph sent taken) {r : Rank world}
    (hr : r ≠ root) : n r + (ph r).freed ≤ n root + (ph root).released r := by
  have hle := (h.order root r).length_le
  rw [h.freed r hr, (h.released r hr).1] at hle
  exact hle

/-- The root has gone through no more barriers than the other ranks have arrived at. -/
theorem Ties.round_root {n ph sent taken} (h : Ties root n ph sent taken) {r : Rank world}
    (hr : r ≠ root) : n root + (ph root).collected r ≤ n r + (ph r).arrived := by
  have hle := (h.order r root).length_le
  rw [h.collected r hr, (h.arrived r hr).1] at hle
  exact hle

section Steps

theorem undisturbed_send {i : Rank world} {op j m k} (hcall : w.call i = some (op, .send j m k))
    (hm : m.dimensions ≤ 64) : Undisturbed w (.send i) where
  shallow := by
    intro i' op' j' m' k' he hcall'
    obtain rfl := Event.send.inj he
    rw [hcall] at hcall'
    obtain ⟨-, hproc⟩ := Prod.mk.inj (Option.some.inj hcall')
    obtain ⟨-, rfl, -⟩ := Proc.send.inj hproc
    exact .inl hm
  control := nofun
  whole := nofun

theorem undisturbed_recv {i : Rank world} {op j sel k m c}
    (hcall : w.call i = some (op, .recv j sel k))
    (hpop : (endpoints world maximum).link.pop (w.chan j i) = some (.ok m, c))
    (hm : ∀ tag, m.key ≠ .control tag) : Undisturbed w (.recv i) where
  shallow := nofun
  control := by
    intro i' j' sel' k' m' c' tag he hcall' _ hpop'
    obtain rfl := Event.recv.inj he
    rw [hcall] at hcall'
    obtain ⟨-, hproc⟩ := Prod.mk.inj (Option.some.inj hcall')
    obtain ⟨rfl, -, -⟩ := Proc.recv.inj hproc
    rw [hpop] at hpop'
    obtain ⟨hok, -⟩ := Prod.mk.inj (Option.some.inj hpop')
    rw [← Except.ok.inj hok]
    exact hm tag
  whole := nofun

theorem undisturbed_call (i : Rank world) (op) : Undisturbed w (.call i op) where
  shallow := nofun
  control := nofun
  whole := nofun

theorem undisturbed_expire (i : Rank world) : Undisturbed w (.expire i 0) where
  shallow := nofun
  control := nofun
  whole := by
    intro i' lost he
    exact (Event.expire.inj he).2.symm

theorem fire_barrier {i : Rank world} {p : BarrierCode world} (hidle : w.call i = none)
    (hcode : (endpoints world maximum).code i (w.locals i) (.other ()) = p) :
    Fire (S := endpoints world maximum) (.call i (.other ())) w (w.resume i (.other ()) p) := by
  subst hcode
  exact .call hidle

theorem passed_zero : passed 0 = .ok (.done, 1) := by
  rw [passed, checkedAdd_some (by decide)]

end Steps

end TcpTransport

end Dlir.Collectives
