import Dlir.Collectives.BarrierRuns

namespace Dlir.Collectives

open Dlir.Framework Dlir.Math Session

namespace TcpTransport

variable {world : Nat} {maximum : UInt64} {w w' : Session (endpoints world maximum)}
  {e : Event (Rank world) (endpoints world maximum).Op} {root : Rank world}

/-- A release of this generation has been written. -/
def Released (sent : Rank world → Rank world → List (WireFrame UInt32)) (g : UInt64) : Prop :=
  ∃ i j s d, .barrierRelease s d g ∈ sent i j

/-- Where a barrier call can be, whatever has failed before it. A rank releases the others only
after a release of its generation, except for the first one. -/
inductive Place (root r : Rank world) (g : Nat) (released : Prop) : BarrierCode world → Prop
  | arriving : r ≠ root → Place root r g released
      (.send root (.barrierArrive r.val 0 (.ofNat g)) (awaiting r root g))
  | awaiting : r ≠ root → Place root r g released (awaiting r root g)
  | collecting (rest : List (Rank world)) : r = root → Place root r g released
      (collecting root g rest)
  | releasing (rest : List (Rank world)) : r = root → released → Place root r g released
      (releasing root g rest)

namespace Place

variable {r j : Rank world} {g : Nat} {released released' : Prop} {p : BarrierCode world}

theorem mono (h : Place root r g released p) (himp : released → released') :
    Place root r g released' p := by
  cases h with
  | arriving hr => exact .arriving hr
  | awaiting hr => exact .awaiting hr
  | collecting rest hr => exact .collecting rest hr
  | releasing rest hr hreleased => exact .releasing rest hr (himp hreleased)

/-- What a barrier call sends: the arrival of its rank, or a release. -/
theorem of_send {m k} (h : Place root r g released (.send j m k)) :
    (r ≠ root ∧ m = .barrierArrive r.val 0 (.ofNat g) ∧ k = TcpTransport.awaiting r root g) ∨
      (r = root ∧ m = .barrierRelease 0 j.val (.ofNat g) ∧
        ∃ rest, k = TcpTransport.releasing root g rest) := by
  generalize hp : Proc.send j m k = p at h
  have hreleasing : ∀ ranks, Proc.send j m k = TcpTransport.releasing root g ranks →
      m = .barrierRelease 0 j.val (.ofNat g) ∧ ∃ rest, k = TcpTransport.releasing root g rest := by
    intro ranks heq
    cases ranks with
    | nil => cases heq
    | cons d rest =>
      obtain ⟨rfl, rfl, rfl⟩ := Proc.send.inj heq
      exact ⟨rfl, rest, rfl⟩
  cases h with
  | arriving hr =>
    obtain ⟨-, rfl, rfl⟩ := Proc.send.inj hp
    exact .inl ⟨hr, rfl, rfl⟩
  | awaiting hr => cases hp
  | collecting rest hr =>
    cases rest with
    | nil => exact .inr ⟨hr, hreleasing _ hp⟩
    | cons s rest => cases hp
  | releasing rest hr hreleased => exact .inr ⟨hr, hreleasing _ hp⟩

/-- What a barrier call waits for: its release, or the next arrival. -/
theorem of_recv {sel k} (h : Place root r g released (.recv j sel k)) :
    (r ≠ root ∧ TcpTransport.awaiting r root g = .recv j sel k) ∨
      (r = root ∧ ∃ rest, TcpTransport.collecting root g (j :: rest) = .recv j sel k) := by
  generalize hp : Proc.recv j sel k = p at h
  cases h with
  | arriving hr => cases hp
  | awaiting hr => exact .inl ⟨hr, rfl⟩
  | collecting rest hr =>
    cases rest with
    | nil =>
      rw [TcpTransport.collecting] at hp
      cases hmembers : members world with
      | nil =>
        rw [hmembers] at hp
        cases hp
      | cons d rest =>
        rw [hmembers] at hp
        cases hp
    | cons s rest =>
      obtain rfl : j = s := (Proc.recv.inj hp).1
      exact .inr ⟨hr, rest, rfl⟩
  | releasing rest hr hreleased =>
    cases rest with
    | nil => cases hp
    | cons d rest => cases hp

end Place

/-- Barriers agree on their failure: a rank has passed a generation only after a release of it, it
gave up only a generation for which a wait has expired, and no generation has both. -/
structure Agreed (root : Rank world) (expired : UInt64 → Prop) (b : Board world) : Prop where
  passes : ∀ r, b.generation r = (b.results r).countP Except.isOk
  place : ∀ r p, b.running r = some p →
    Place root r (b.generation r) (Released b.sent (.ofNat (b.generation r))) p
  passed : ∀ r g, g < b.generation r → Released b.sent (.ofNat g)
  gaveUp : ∀ r q g, .error (.barrierTimeout q g) ∈ b.results r → expired (.ofNat g)
  apart : ∀ g, expired g → ¬ Released b.sent g

namespace Agreed

variable {b b' : Board world} {expired expired' : UInt64 → Prop} {i j : Rank world}

theorem initial (root : Rank world) (expired : UInt64 → Prop) :
    Agreed root expired (board (Session.initial (endpoints world maximum))) where
  passes _ := rfl
  place := nofun
  passed := nofun
  gaveUp := nofun
  apart := by
    intro g _ hreleased
    obtain ⟨i, j, s, d, hmem⟩ := hreleased
    cases hmem

/-- More waits have expired, for generations that are not released. -/
theorem mono (h : Agreed root expired b) (hmore : ∀ g, expired g → expired' g)
    (hapart : ∀ g, expired' g → expired g ∨ ¬ Released b.sent g) : Agreed root expired' b where
  passes := h.passes
  place := h.place
  passed := h.passed
  gaveUp r q g hmem := hmore _ (h.gaveUp r q g hmem)
  apart := by
    intro g hexpired
    rcases hapart g hexpired with hbefore | hnew
    · exact h.apart g hbefore
    · exact hnew

theorem proceed (h : Agreed root expired b) {p : BarrierCode world}
    (hp : Place root i (b.generation i) (Released b.sent (.ofNat (b.generation i))) p) :
    Agreed root expired (b.proceed i p) where
  passes := h.passes
  place := by
    intro r q hrunning
    by_cases hr : r = i
    · subst hr
      rw [Board.proceed_running] at hrunning
      obtain rfl := Option.some.inj hrunning
      exact hp
    · simp only [Board.proceed, Function.update_of_ne hr] at hrunning
      exact h.place r q hrunning
  passed := h.passed
  gaveUp := h.gaveUp
  apart := h.apart

/-- A barrier call fails. -/
theorem fail (h : Agreed root expired b) {err : CollectivesError}
    (herr : ∀ q g, err = .barrierTimeout q g → expired (.ofNat g)) :
    Agreed root expired (b.close i (.error err)) where
  passes := by
    intro r
    have hpasses := h.passes r
    by_cases hr : r = i
    · subst hr
      simpa [Board.close, List.countP_append, Except.isOk, Except.toBool, Except.map] using hpasses
    · simpa [Board.close, Function.update_of_ne hr] using hpasses
  place := by
    intro r p hrunning
    by_cases hr : r = i
    · subst hr
      simp [Board.close] at hrunning
    · simp only [Board.close, Function.update_of_ne hr] at hrunning
      exact h.place r p hrunning
  passed := h.passed
  gaveUp := by
    intro r q g hmem
    by_cases hr : r = i
    · subst hr
      simp only [Board.close, Function.update_self, List.mem_append, List.mem_singleton] at hmem
      rcases hmem with hold | hnew
      · exact h.gaveUp r q g hold
      · exact herr q g (Except.error.inj hnew).symm
    · simp only [Board.close, Function.update_of_ne hr] at hmem
      exact h.gaveUp r q g hmem
  apart := h.apart

/-- A barrier call returns `Ok`. -/
theorem succeed (h : Agreed root expired b)
    (hreleased : Released b.sent (.ofNat (b.generation i))) :
    Agreed root expired (b.close i (.ok (.done, b.generation i + 1))) where
  passes := by
    intro r
    have hpasses := h.passes r
    by_cases hr : r = i
    · subst hr
      simpa [Board.close, List.countP_append, Except.isOk, Except.toBool, Except.map] using hpasses
    · simpa [Board.close, Function.update_of_ne hr] using hpasses
  place := by
    intro r p hrunning
    by_cases hr : r = i
    · subst hr
      simp [Board.close] at hrunning
    · simp only [Board.close, Function.update_of_ne hr] at hrunning ⊢
      exact h.place r p hrunning
  passed := by
    intro r g hg
    by_cases hr : r = i
    · subst hr
      simp only [Board.close, Function.update_self] at hg
      rcases Nat.lt_succ_iff_lt_or_eq.mp hg with hless | rfl
      · exact h.passed r g hless
      · exact hreleased
    · simp only [Board.close, Function.update_of_ne hr] at hg
      exact h.passed r g hg
  gaveUp := by
    intro r q g hmem
    by_cases hr : r = i
    · subst hr
      simp only [Board.close, Function.update_self, List.mem_append, List.mem_singleton] at hmem
      rcases hmem with hold | hnew
      · exact h.gaveUp r q g hold
      · cases hnew
    · simp only [Board.close, Function.update_of_ne hr] at hmem
      exact h.gaveUp r q g hmem
  apart := h.apart

/-- All frames of a barrier call have been exchanged. -/
theorem pass (h : Agreed root expired b) (hreleased : Released b.sent (.ofNat (b.generation i))) :
    Agreed root expired (b.close i (TcpTransport.passed (b.generation i))) := by
  unfold TcpTransport.passed
  cases hsum : checkedAdd (b.generation i) 1 with
  | none => exact h.fail nofun
  | some next =>
    obtain ⟨-, rfl⟩ := checkedAdd_eq_some.mp hsum
    exact h.succeed hreleased

/-- A barrier call goes on, or has come to its end. -/
theorem resume (h : Agreed root expired b) (hmembers : members world ≠ []) {p : BarrierCode world}
    (hp : Place root i (b.generation i) (Released b.sent (.ofNat (b.generation i))) p) :
    Agreed root expired (b.resume i p) := by
  have hproceed := h.proceed hp
  cases hp with
  | arriving hi => exact hproceed
  | awaiting hi => exact hproceed
  | collecting rest hi =>
    cases rest with
    | nil =>
      rw [collecting] at hproceed ⊢
      cases hnone : members world with
      | nil => exact absurd hnone hmembers
      | cons d rest =>
        rw [hnone] at hproceed
        exact hproceed
    | cons s rest => exact hproceed
  | releasing rest hi hreleased =>
    cases rest with
    | nil => exact h.pass hreleased
    | cons d rest => exact hproceed

/-- A frame is written. If it is a release, no wait for its generation has expired. -/
theorem addSent (h : Agreed root expired b) {m : WireFrame UInt32}
    (hm : ∀ s d g, m = .barrierRelease s d g → ¬ expired g) :
    Agreed root expired (b.addSent i j m) := by
  have hmore : ∀ g, Released b.sent g → Released (b.addSent i j m).sent g := by
    intro g hreleased
    obtain ⟨x, y, s, d, hmem⟩ := hreleased
    refine ⟨x, y, s, d, ?_⟩
    simp only [Board.addSent, set₂_apply]
    split_ifs with hxy
    · obtain ⟨rfl, rfl⟩ := hxy
      exact List.mem_append_left _ hmem
    · exact hmem
  constructor
  · exact h.passes
  · intro r p hrunning
    exact (h.place r p hrunning).mono (hmore _)
  · intro r g hg
    exact hmore _ (h.passed r g hg)
  · exact h.gaveUp
  · intro g hexpired hreleased
    obtain ⟨x, y, s, d, hmem⟩ := hreleased
    simp only [Board.addSent, set₂_apply] at hmem
    split_ifs at hmem with hxy
    · obtain ⟨rfl, rfl⟩ := hxy
      rcases List.mem_append.mp hmem with hold | hnew
      · exact h.apart g hexpired ⟨x, y, s, d, hold⟩
      · exact hm s d g (List.mem_singleton.mp hnew).symm hexpired
    · exact h.apart g hexpired ⟨x, y, s, d, hmem⟩

theorem addTaken (h : Agreed root expired b) (m : WireFrame UInt32) :
    Agreed root expired (b.addTaken i j m) :=
  ⟨h.passes, h.place, h.passed, h.gaveUp, h.apart⟩

end Agreed

/-- A barrier frame that cannot be written is reported as such. -/
theorem writeWire_barrier_error {f : WireFrame UInt32} (hkey : f.key = .barrier)
    {err : CollectivesError} (h : writeWire maximum f = .error err) :
    ∃ message, err = .protocol message := by
  have hrank : ∀ {value : Nat} {name : String}, toU32 value name = .error err →
      ∃ message, err = .protocol message := by
    intro value name hvalue
    unfold toU32 at hvalue
    split_ifs at hvalue
    exact ⟨_, (Except.error.inj hvalue).symm⟩
  obtain ⟨payload, hpayload, -⟩ := length_payload_barrier hkey
  rcases error_of_bind h with hencode | ⟨body, -, hbody⟩
  · rcases error_of_bind hencode with hsource | ⟨source, -, hencode⟩
    · exact hrank hsource
    · rcases error_of_bind hencode with hdest | ⟨destination, -, hencode⟩
      · exact hrank hdest
      · rw [hpayload] at hencode
        rcases error_of_bind hencode with hnone | ⟨_, -, hlarge⟩
        · cases hnone
        · dsimp only at hlarge
          split_ifs at hlarge
          exact ⟨_, (Except.error.inj hlarge).symm⟩
  · cases hbody

/-- A frame that a barrier does not expect is reported as such. -/
theorem barrierFrame_error {rank source : Rank world} {arrive : Bool} {g : Nat}
    {m : WireFrame UInt32} {err : CollectivesError}
    (h : barrierFrame rank source arrive g m = .error err) : ∃ message, err = .protocol message := by
  unfold barrierFrame at h
  dsimp only at h
  split_ifs at h
  · exact ⟨_, (Except.error.inj h).symm⟩
  · cases m with
    | tensor s d tag packet => exact ⟨_, (Except.error.inj h).symm⟩
    | control s d tag packet => exact ⟨_, (Except.error.inj h).symm⟩
    | barrierArrive s d n =>
      dsimp only at h
      split_ifs at h
      exact ⟨_, (Except.error.inj h).symm⟩
    | barrierRelease s d n =>
      dsimp only at h
      split_ifs at h
      exact ⟨_, (Except.error.inj h).symm⟩

/-- What another rank takes for its release is one. -/
theorem barrierFrame_released {rank source : Rank world} {g : Nat} {m : WireFrame UInt32}
    (h : barrierFrame rank source false g m = .ok ()) : ∃ s d, m = .barrierRelease s d (.ofNat g) := by
  unfold barrierFrame at h
  dsimp only at h
  split_ifs at h
  cases m with
  | tensor s d tag packet => cases h
  | control s d tag packet => cases h
  | barrierArrive s d n => cases h
  | barrierRelease s d n =>
    dsimp only at h
    split_ifs at h with hsame
    exact ⟨s, d, by simpa using hsame⟩

/-- A turn keeps the agreement if it writes no release of a generation for which a wait has expired,
and if a wait that expires is among those that have. -/
theorem Agreed.turn {b b' : Board world} {expired : UInt64 → Prop} (h : Agreed root expired b)
    (hzero : root.val = 0) (hmembers : members world ≠ [])
    {e : Event (Rank world) (Operation UInt32 Unit)} (hturn : Board.Turn maximum e b b')
    (hreleases : ∀ i j s d g k, e = .send i →
      b.running i = some (.send j (.barrierRelease s d g) k) → ¬ expired g)
    (hwaits : ∀ i lost j sel k, e = .expire i lost → b.running i = some (.recv j sel k) →
      expired (.ofNat (b.generation i))) : Agreed root expired b' := by
  cases hturn with
  | @start _ i hidle =>
    apply h.resume hmembers
    by_cases hi : i = root
    · subst hi
      rw [code_root hzero]
      exact .collecting _ rfl
    · rw [code_member (fun hval => hi (Fin.ext (hval.trans hzero.symm))) hzero]
      exact .arriving hi
  | @send _ i j m k bytes hrunning hwrite =>
    have hsent : Agreed root expired (b.addSent i j m) := by
      apply h.addSent
      intro s d g hm
      subst hm
      exact hreleases i j s d g k rfl hrunning
    apply hsent.resume hmembers
    rcases (h.place i _ hrunning).of_send with ⟨hi, rfl, rfl⟩ | ⟨hi, rfl, rest, rfl⟩
    · exact .awaiting hi
    · refine .releasing rest hi ⟨i, j, 0, j.val, ?_⟩
      simp [Board.addSent, set₂_apply]
  | @refused _ i j m k err hrunning hwrite =>
    have hkey : m.key = .barrier := by
      rcases (h.place i _ hrunning).of_send with ⟨-, rfl, -⟩ | ⟨-, rfl, -⟩
      · rfl
      · rfl
    obtain ⟨message, rfl⟩ := writeWire_barrier_error hkey hwrite
    exact h.fail fun q g heq => by cases heq
  | @take _ i j sel k m hrunning hbetween hnext =>
    have htaken : Agreed root expired (b.addTaken j i m) := h.addTaken m
    have hmem : m ∈ b.sent j i := hnext.subset (by simp)
    rcases (h.place i _ hrunning).of_recv with ⟨hi, hcode⟩ | ⟨rfl, rest, hcode⟩
    · obtain ⟨rfl, -, rfl⟩ := Proc.recv.inj hcode
      cases hframe : barrierFrame i root false (b.generation i) m with
      | ok u =>
        obtain ⟨s, d, rfl⟩ := barrierFrame_released hframe
        simp only [hframe]
        exact htaken.pass ⟨root, i, s, d, hmem⟩
      | error err =>
        obtain ⟨message, rfl⟩ := barrierFrame_error hframe
        simp only [hframe]
        exact htaken.fail fun q g heq => by cases heq
    · obtain ⟨-, -, rfl⟩ := Proc.recv.inj hcode
      cases hframe : barrierFrame i j true (b.generation i) m with
      | ok u =>
        simp only [hframe]
        exact htaken.resume hmembers (.collecting rest rfl)
      | error err =>
        obtain ⟨message, rfl⟩ := barrierFrame_error hframe
        simp only [hframe]
        exact htaken.fail fun q g heq => by cases heq
  | @expire _ i j sel k lost hrunning =>
    apply h.fail
    intro q g heq
    obtain ⟨-, rfl⟩ := CollectivesError.barrierTimeout.inj heq
    exact hwaits i lost j sel k rfl hrunning
  | @overdue _ i j m k hrunning => exact h.fail fun q g heq => by cases heq

/-- The wait of a barrier call for this generation has expired. -/
def WaitExpired (steps : List (Session (endpoints world maximum) ×
    Event (Rank world) (endpoints world maximum).Op)) (g : UInt64) : Prop :=
  ∃ v i lost j sel k, (v, .expire i lost) ∈ steps ∧
    v.call i = some (.other (), .recv j sel k) ∧ .ofNat (v.locals i) = g

/-- Steps under which a barrier fails for all or for none: a wait for a generation does not expire
after a release of it was written, and no release of it is written after a wait for it has expired. -/
structure Agreeing (steps : List (Session (endpoints world maximum) ×
    Event (Rank world) (endpoints world maximum).Op)) (w : Session (endpoints world maximum))
    (e : Event (Rank world) (endpoints world maximum).Op) : Prop extends Undisturbed w e where
  waits : ∀ i lost j sel k, e = .expire i lost → w.call i = some (.other (), .recv j sel k) →
    ¬ Released w.sent (.ofNat (w.locals i))
  releases : ∀ i j s d g k, e = .send i →
    w.call i = some (.other (), .send j (.barrierRelease s d g) k) → ¬ WaitExpired steps g

theorem released_board {g : UInt64} : Released (board w).sent g ↔ Released w.sent g := by
  have hmem : ∀ i j s d, .barrierRelease s d g ∈ (board w).sent i j ↔
      .barrierRelease s d g ∈ w.sent i j := by
    intro i j s d
    show _ ∈ (w.sent i j).filter _ ↔ _
    rw [List.mem_filter]
    exact and_iff_left (decide_eq_true rfl)
  unfold Released
  simp only [hmem]

section Runs

variable {steps : List (Session (endpoints world maximum) ×
  Event (Rank world) (endpoints world maximum).Op)}

theorem waitExpired_cons {g : UInt64} : WaitExpired ((w, e) :: steps) g ↔ WaitExpired steps g ∨
    ∃ i lost j sel k, e = .expire i lost ∧ w.call i = some (.other (), .recv j sel k) ∧
      .ofNat (w.locals i) = g := by
  constructor
  · intro h
    obtain ⟨v, i, lost, j, sel, k, hmem, hcall, hg⟩ := h
    rcases List.mem_cons.mp hmem with hnew | hold
    · obtain ⟨rfl, rfl⟩ := Prod.mk.inj hnew
      exact .inr ⟨i, lost, j, sel, k, rfl, hcall, hg⟩
    · exact .inl ⟨v, i, lost, j, sel, k, hold, hcall, hg⟩
  · intro h
    rcases h with ⟨v, i, lost, j, sel, k, hmem, hcall, hg⟩ | ⟨i, lost, j, sel, k, rfl, hcall, hg⟩
    · exact ⟨v, i, lost, j, sel, k, List.mem_cons_of_mem _ hmem, hcall, hg⟩
    · exact ⟨w, i, lost, j, sel, k, List.mem_cons_self, hcall, hg⟩

/-- What a step keeps: the books balance and barriers agree on their failure. -/
theorem Agreed.step (h : Agreed root (WaitExpired steps) (board w)) (ht : Tracked w)
    (hzero : root.val = 0) (hmembers : members world ≠ []) (he : Agreeing steps w e)
    (hfire : Fire e w w') :
    Tracked w' ∧ Agreed root (WaitExpired ((w, e) :: steps)) (board w') := by
  have hselector : ∀ {i j : Rank world} {sel k}, w.call i = some (.other (), .recv j sel k) →
      sel = barrierSelector i j := by
    intro i j sel k hcall
    rcases (h.place i _ (running_board.mpr hcall)).of_recv with ⟨-, hcode⟩ | ⟨rfl, rest, hcode⟩
    · obtain ⟨rfl, rfl, -⟩ := Proc.recv.inj hcode
      rfl
    · exact (Proc.recv.inj hcode).2.1.symm
  have hord := he.orderly ht hselector
  refine ⟨ht.step quiet_barrier hord hfire, ?_⟩
  have hmore : Agreed root (WaitExpired ((w, e) :: steps)) (board w) := by
    apply h.mono
    · intro g hg
      exact waitExpired_cons.mpr (.inl hg)
    · intro g hg
      rcases waitExpired_cons.mp hg with hold | ⟨i, lost, j, sel, k, hexpire, hcall, rfl⟩
      · exact .inl hold
      · right
        rw [released_board]
        exact he.waits i lost j sel k hexpire hcall
  rcases turn_of_fire ht hord hfire with hsame | hturn
  · rw [hsame]
    exact hmore
  · apply hmore.turn hzero hmembers hturn
    · intro i j s d g k hsend hrunning hexpired
      rcases waitExpired_cons.mp hexpired with hold | ⟨i', lost, j', sel, k', hexpire, -⟩
      · exact he.releases i j s d g k hsend (running_board.mp hrunning) hold
      · rw [hsend] at hexpire
        cases hexpire
    · intro i lost j sel k hexpire hrunning
      exact waitExpired_cons.mpr
        (.inr ⟨i, lost, j, sel, k, hexpire, running_board.mp hrunning, rfl⟩)

theorem Agreed.reached (hzero : root.val = 0) (hmembers : members world ≠ [])
    (h : Trail Agreeing steps w) : Tracked w ∧ Agreed root (WaitExpired steps) (board w) := by
  induction h with
  | start => exact ⟨.initial, .initial root _⟩
  | step _ he hfire ih => exact ih.2.step ih.1 hzero hmembers he hfire

/-- If a barrier call for a generation timed out, no rank has got or will get `Ok` for it. -/
theorem barrier_failure_agreed (hworld : 2 ≤ world) (h : Trail Agreeing steps w) (r : Rank world)
    (q g : Nat) (htimeout : (.other (), .error (.barrierTimeout q g)) ∈ w.history r)
    (s : Rank world) : barriersPassed (w.history s) ≤ g := by
  have hmembers : members world ≠ [] :=
    List.ne_nil_of_mem (mem_members.mpr (show (⟨1, hworld⟩ : Rank world).val ≠ 0 from Nat.one_ne_zero))
  obtain ⟨-, hagreed⟩ := @Agreed.reached world maximum w ⟨0, by omega⟩ steps rfl hmembers h
  have hpasses : (board w).generation s = barriersPassed (w.history s) :=
    (hagreed.passes s).trans (Barriers.countP_results Except.isOk s)
  rw [← hpasses]
  by_contra hmore
  exact hagreed.apart _ (hagreed.gaveUp r q g (mem_results_board.mpr htimeout))
    (hagreed.passed s g (by omega))

theorem agreeing_call (i : Rank world) (op) : Agreeing steps w (.call i op) where
  toUndisturbed := undisturbed_call i op
  waits := nofun
  releases := nofun

theorem agreeing_send {i : Rank world} {op j m k} (hcall : w.call i = some (op, .send j m k))
    (hm : m.dimensions ≤ 64) (hrelease : ∀ s d g, m ≠ .barrierRelease s d g) :
    Agreeing steps w (.send i) where
  toUndisturbed := undisturbed_send hcall hm
  waits := nofun
  releases := by
    intro i' j' s d g k' he hcall'
    obtain rfl := Event.send.inj he
    rw [hcall] at hcall'
    obtain ⟨-, hproc⟩ := Prod.mk.inj (Option.some.inj hcall')
    exact absurd (Proc.send.inj hproc).2.1 (hrelease s d g)

theorem agreeing_recv {i : Rank world} {op j sel k m c}
    (hcall : w.call i = some (op, .recv j sel k))
    (hpop : (endpoints world maximum).link.pop (w.chan j i) = some (.ok m, c))
    (hm : ∀ tag, m.key ≠ .control tag) : Agreeing steps w (.recv i) where
  toUndisturbed := undisturbed_recv hcall hpop hm
  waits := nofun
  releases := nofun

theorem agreeing_expire (i : Rank world) (hnone : ∀ g, ¬ Released w.sent g) :
    Agreeing steps w (.expire i 0) where
  toUndisturbed := undisturbed_expire i
  waits := by
    intro i' lost j sel k _ _
    exact hnone _
  releases := nofun

theorem not_released {sent : Rank world → Rank world → List (WireFrame UInt32)}
    (h : ∀ i j, ∀ f ∈ sent i j, f.kind ≠ barrierReleaseKind) (g : UInt64) : ¬ Released sent g := by
  intro hreleased
  obtain ⟨i, j, s, d, hmem⟩ := hreleased
  exact h i j _ hmem rfl

/-- Rank 0 has got the arrival of rank 1 when its deadline passes. It writes no release, and rank 1
waits in vain. -/
theorem barrier_failure_agreed_pair : ∃ steps, ∃ w : Session (endpoints 2 64),
    Trail Agreeing steps w ∧
    w.history 0 = [(.other (), .error (.protocol "TCP write deadline expired"))] ∧
    w.history 1 = [(.other (), .error (.barrierTimeout 1 0))] ∧
    ∀ s, barriersPassed (w.history s) ≤ 0 := by
  have h1 : Trail (S := endpoints 2 64) Agreeing [(_, .call 1 (.other ()))] _ :=
    .step .start (agreeing_call _ _) (fire_barrier rfl (@code_member 2 64 1 0 (by decide) rfl 0))
  have h2 : Trail Agreeing ((_, .send 1) :: _) _ :=
    .step h1 (agreeing_send rfl (by decide) nofun) (.send rfl rfl)
  have h3 : Trail Agreeing ((_, .call 0 (.other ())) :: _) _ :=
    .step h2 (agreeing_call _ _) (fire_barrier rfl (@code_root 2 64 0 rfl 0))
  have h4 : Trail Agreeing ((_, .recv 0) :: _) _ :=
    .step h3 (agreeing_recv rfl rfl nofun) (.fresh rfl rfl rfl rfl)
  have h5 : Trail Agreeing ((_, .expire 0 0) :: _) _ :=
    .step h4 (agreeing_expire _ (not_released (by decide))) (.overdue rfl rfl rfl)
  have h6 : Trail Agreeing ((_, .expire 1 0) :: _) _ :=
    .step h5 (agreeing_expire _ (not_released (by decide))) (.expire rfl rfl rfl)
  refine ⟨_, _, h6, rfl, rfl, ?_⟩
  exact barrier_failure_agreed (by decide) h6 1 1 0 (List.mem_singleton.mpr rfl)

end Runs

/-- Both ranks have arrived and rank 0 has returned `Ok`; then the wait of rank 1 expires
although its release is under way. -/
theorem barrier_failure_not_agreed : ∃ w : Session (endpoints 2 64),
    Reaches Undisturbed (Session.initial _) w ∧
    w.history 0 = [(.other (), .ok .done)] ∧
    w.history 1 = [(.other (), .error (.barrierTimeout 1 0))] := by
  have h1 : Reaches Undisturbed (Session.initial (endpoints 2 64)) _ :=
    .single ⟨.call 1 (.other ()), undisturbed_call _ _,
      fire_barrier rfl (@code_member 2 64 1 0 (by decide) rfl 0)⟩
  have h2 := h1.tail ⟨.send 1, undisturbed_send rfl (by decide), .send rfl rfl⟩
  have h3 := h2.tail ⟨.call 0 (.other ()), undisturbed_call _ _,
    fire_barrier rfl (@code_root 2 64 0 rfl 0)⟩
  have h4 := h3.tail ⟨.recv 0, undisturbed_recv rfl rfl nofun, .fresh rfl rfl rfl rfl⟩
  have h5 := h4.tail ⟨.send 0, undisturbed_send rfl (by decide), .send rfl rfl⟩
  change Reaches Undisturbed (Session.initial (endpoints 2 64))
    (Session.close _ 0 (.other ()) (passed 0)) at h5
  rw [passed_zero] at h5
  have h6 := h5.tail ⟨.expire 1 0, undisturbed_expire _, .expire rfl rfl rfl⟩
  exact ⟨_, h6, rfl, rfl⟩

end TcpTransport

end Dlir.Collectives
