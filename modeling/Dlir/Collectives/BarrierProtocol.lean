import Dlir.Collectives.BarrierPhases

namespace Dlir.Collectives

open Dlir.Framework Dlir.Math Session

namespace TcpTransport

variable {world : Nat} {maximum : UInt64}

theorem length_payload_barrier {f : WireFrame UInt32} (hkey : f.key = .barrier) :
    ∃ payload, encodePayload f = .ok payload ∧ payload.length = 8 := by
  cases f with
  | tensor s d tag packet => cases hkey
  | control s d tag packet => cases hkey
  | barrierArrive s d g => exact ⟨_, rfl, length_leBytes 8 _⟩
  | barrierRelease s d g => exact ⟨_, rfl, length_leBytes 8 _⟩

/-- A barrier frame between ranks that the wire format can name is always written. -/
theorem writeWire_barrier {f : WireFrame UInt32} (hkey : f.key = .barrier)
    (hmax : 64 ≤ maximum.toNat) (hsource : f.source < 2 ^ 32) (hdest : f.destination < 2 ^ 32) :
    ∃ bytes, writeWire maximum f = .ok bytes := by
  obtain ⟨payload, hpayload, hlen⟩ := length_payload_barrier hkey
  have hbody : (wireMagic ++ leBytes 2 protocolVersion ++ [f.kind, 0] ++ leBytes 4 f.source ++
      leBytes 4 f.destination ++ payload).length = 24 := by
    simp [length_leBytes, hlen, wireMagic]
  have hencode : encodeWire f maximum = .ok (wireMagic ++ leBytes 2 protocolVersion ++ [f.kind, 0] ++
      leBytes 4 f.source ++ leBytes 4 f.destination ++ payload) := by
    simp only [encodeWire, toU32, if_pos hsource, if_pos hdest, hpayload]
    show (if _ then _ else _) = _
    rw [if_neg (by rw [hbody]; omega)]
  exact ⟨_, writeWire_ok hencode⟩

/-- A rank that the wire format cannot name cannot arrive. -/
theorem writeWire_refused {f : WireFrame UInt32} {e : CollectivesError} (hkey : f.key = .barrier)
    (hmax : 64 ≤ maximum.toNat) (hdest : f.destination < 2 ^ 32)
    (h : writeWire maximum f = .error e) :
    2 ^ 32 ≤ f.source ∧ e = .protocol "source rank does not fit u32" := by
  by_cases hsource : f.source < 2 ^ 32
  · obtain ⟨bytes, hbytes⟩ := writeWire_barrier hkey hmax hsource hdest
    cases hbytes.symm.trans h
  · refine ⟨by omega, ?_⟩
    simp only [writeWire, encodeWire, toU32, if_neg hsource] at h
    exact (Except.error.inj h).symm

/-- What the result of a barrier call can be while no deadline passes. -/
inductive Outcome (r : Rank world) : Except CollectivesError (Answer UInt32) → Prop
  | done : Outcome r (.ok .done)
  | overflow : Outcome r (.error overflow)
  | refused : 2 ^ 32 ≤ r.val → Outcome r (.error (.protocol "source rank does not fit u32"))

/-- The barrier protocol. -/
structure Protocol (root : Rank world) (b : Board world) (ph : Rank world → Phase world) : Prop
    where
  generation : ∀ r, b.generation r = min (b.round r) lastGeneration
  passes : ∀ r, b.generation r = (b.results r).countP Except.isOk
  running : ∀ r, b.running r = (ph r).code root r (b.generation r)
  of : ∀ r, (ph r).Of root r
  ties : Ties root b.round ph b.sent b.taken
  results : ∀ r, ∀ x ∈ b.results r, Outcome r x

theorem Board.round_close (b : Board world) (i : Rank world) (r) :
    (b.close i r).round = Function.update b.round i
      (b.round i + if completed (r.map Prod.fst) then 1 else 0) := by
  funext x
  by_cases hx : x = i
  · subst hx
    simp [Board.round, Board.close, List.countP_singleton]
  · simp [Board.round, Board.close, Function.update_of_ne hx]

namespace Protocol

variable {root i : Rank world} {b b' : Board world} {ph : Rank world → Phase world} {p : Phase world}

theorem idle_of_running (h : Protocol root b ph) (hidle : b.running i = none) :
    ph i = .idle := by
  have hrunning := h.running i
  rw [hidle] at hrunning
  cases hph : ph i with
  | idle => rfl
  | _ =>
    rw [hph] at hrunning
    cases hrunning

/-- A rank goes on in its barrier call. -/
theorem advance (h : Protocol root b ph) (hgeneration : b'.generation = b.generation)
    (hresults : b'.results = b.results)
    (hrunning : b'.running = Function.update b.running i (p.code root i (b.generation i)))
    (hof : p.Of root i)
    (hties : Ties root b.round (Function.update ph i p) b'.sent b'.taken) :
    Protocol root b' (Function.update ph i p) where
  generation := by
    intro r
    rw [hgeneration, h.generation, Board.round, Board.round, hresults]
  passes := by
    intro r
    rw [hgeneration, h.passes, hresults]
  running := by
    intro r
    rw [hrunning, hgeneration]
    by_cases hr : r = i
    · subst hr
      rw [Function.update_self, Function.update_self]
    · rw [Function.update_of_ne hr, Function.update_of_ne hr, h.running]
  of := by
    intro r
    by_cases hr : r = i
    · subst hr
      rw [Function.update_self]
      exact hof
    · rw [Function.update_of_ne hr]
      exact h.of r
  ties := by
    have hround : b'.round = b.round := by
      funext r
      rw [Board.round, Board.round, hresults]
    rw [hround]
    exact hties
  results := by
    rw [hresults]
    exact h.results

/-- A barrier call comes back. -/
theorem leave (h : Protocol root b ph)
    {r : Except CollectivesError (Answer UInt32 × Nat)}
    (hgeneration : (b.close i r).generation i = min ((b.close i r).round i) lastGeneration)
    (hpasses : (b.close i r).generation i = b.generation i + if r.isOk then 1 else 0)
    (hties : Ties root (b.close i r).round (Function.update ph i .idle) b.sent b.taken)
    (hresult : Outcome i (r.map Prod.fst)) :
    Protocol root (b.close i r) (Function.update ph i .idle) := by
  have hother : ∀ x, x ≠ i → (b.close i r).generation x = b.generation x := by
    intro x hx
    cases r with
    | ok result => simp [Board.close, Function.update_of_ne hx]
    | error e => rfl
  constructor
  · intro x
    by_cases hx : x = i
    · subst hx
      exact hgeneration
    · rw [hother x hx, h.generation, Board.round_close, Function.update_of_ne hx]
  · intro x
    by_cases hx : x = i
    · subst hx
      have hok : (r.map Prod.fst).isOk = r.isOk := by cases r <;> rfl
      rw [hpasses, h.passes]
      simp [Board.close, List.countP_singleton, hok]
    · rw [hother x hx, h.passes]
      simp [Board.close, Function.update_of_ne hx]
  · intro x
    by_cases hx : x = i
    · subst hx
      rw [Function.update_self]
      simp [Board.close, Phase.code]
    · rw [hother x hx, Function.update_of_ne hx, ← h.running]
      simp [Board.close, Function.update_of_ne hx]
  · intro x
    by_cases hx : x = i
    · subst hx
      rw [Function.update_self]
      trivial
    · rw [Function.update_of_ne hx]
      exact h.of x
  · exact hties
  · intro x y hy
    by_cases hx : x = i
    · subst hx
      simp only [Board.close, Function.update_self, List.mem_append, List.mem_singleton] at hy
      rcases hy with hy | rfl
      · exact h.results x y hy
      · exact hresult
    · simp only [Board.close, Function.update_of_ne hx] at hy
      exact h.results x y hy

/-- A rank returns from its barrier after all frames were exchanged. -/
theorem finish (h : Protocol root b ph) (hph : ph i = .finishing) :
    Protocol root (b.close i (passed (b.generation i))) (Function.update ph i .idle) := by
  have hround : ∀ {r : Except CollectivesError (Answer UInt32 × Nat)},
      completed (r.map Prod.fst) = true →
      (b.close i r).round = Function.update b.round i (b.round i + 1) := by
    intro r hr
    rw [Board.round_close, if_pos hr]
  have hties := h.ties.finish hph
  rw [h.generation i]
  rcases passed_cases (b.round i) with ⟨hpassed, hnext⟩ | ⟨hpassed, hlast⟩
  · rw [hpassed]
    apply h.leave
    · rw [hround rfl]
      simp [Board.close]
    · rw [h.generation i]
      simp [Board.close, Except.isOk, Except.toBool, hnext]
    · rw [hround rfl]
      exact hties
    · exact .done
  · rw [hpassed]
    apply h.leave
    · rw [hround rfl, Function.update_self, hlast]
      exact h.generation i
    · rfl
    · rw [hround rfl]
      exact hties
    · exact .overflow

/-- A phase may be called by another name. -/
theorem rename (h : Protocol root b ph)
    (hcode : p.code root i (b.generation i) = (ph i).code root i (b.generation i))
    (hof : p.Of root i) (hties : Ties root b.round (Function.update ph i p) b.sent b.taken) :
    Protocol root b (Function.update ph i p) := by
  apply h.advance rfl rfl
  · rw [hcode, ← h.running, Function.update_eq_self]
  · exact hof
  · exact hties

/-- When all have arrived the root starts to release them. -/
theorem rename_collecting (h : Protocol root b ph) (hroot : root.val = 0)
    (hph : ph root = .collecting []) :
    Protocol root b (Function.update ph root (.releasing (members world))) := by
  apply h.rename
  · rw [hph]
    rfl
  · exact ⟨rfl, List.suffix_refl _⟩
  · apply h.ties.same_root
    · rw [hph]
      intro r _
      simp [Phase.collected]
    · rw [hph]
      intro r hr
      have hmem : r ∈ members world := by
        rw [mem_members, ← hroot]
        exact fun heq => hr (Fin.ext heq)
      simp [Phase.released, hmem]

/-- When all are released the root is done. -/
theorem rename_releasing (h : Protocol root b ph) (hph : ph root = .releasing []) :
    Protocol root b (Function.update ph root .finishing) := by
  apply h.rename
  · rw [hph]
    rfl
  · trivial
  · apply h.ties.same_root
    · rw [hph]
      exact fun _ _ => rfl
    · rw [hph]
      intro r _
      simp [Phase.released]

theorem settle_releasing (h : Protocol root b ph) {rest : List (Rank world)}
    (hph : ph root = .releasing rest) {r} (hrunning : b.running root = some (.ret r)) :
    ∃ ph', Protocol root (b.close root r) ph' := by
  have hcode := h.running root
  rw [hrunning, hph] at hcode
  cases rest with
  | nil =>
    obtain rfl := Proc.ret.inj (Option.some.inj hcode)
    exact ⟨_, (h.rename_releasing hph).finish (Function.update_self _ _ _)⟩
  | cons d rest => cases hcode

/-- A call that has nothing left to do returns at once. -/
theorem settle (hzero : root.val = 0) {q : BarrierCode world}
    (h : Protocol root (b.proceed i q) ph) : ∃ ph', Protocol root (b.resume i q) ph' := by
  cases q with
  | send dst m k => exact ⟨ph, h⟩
  | recv src sel k => exact ⟨ph, h⟩
  | exchange dst m src sel k => exact ⟨ph, h⟩
  | emit o k => exact ⟨ph, h⟩
  | ret r =>
    have hrunning := h.running i
    have hof := h.of i
    rw [Board.proceed_running] at hrunning
    show ∃ ph', Protocol root (b.close i r) ph'
    rw [← b.close_proceed i (.ret r)]
    cases hph : ph i with
    | idle =>
      rw [hph] at hrunning
      cases hrunning
    | arriving =>
      rw [hph] at hrunning
      cases hrunning
    | awaiting =>
      rw [hph] at hrunning
      cases hrunning
    | collecting rest =>
      rw [hph] at hrunning hof
      obtain ⟨rfl, -⟩ := hof
      cases rest with
      | nil =>
        apply (h.rename_collecting hzero hph).settle_releasing
        · exact Function.update_self _ _ _
        · exact Board.proceed_running _ _ _
      | cons s rest => cases hrunning
    | releasing rest =>
      rw [hph] at hof
      obtain ⟨rfl, -⟩ := hof
      exact h.settle_releasing hph (Board.proceed_running _ _ _)
    | finishing =>
      rw [hph] at hrunning
      have hpassed := Proc.ret.inj (Option.some.inj hrunning)
      have hfinish := h.finish hph
      rw [← hpassed] at hfinish
      exact ⟨_, hfinish⟩

/-- The frame that the root takes from a rank is the arrival it waits for. -/
theorem barrierFrame_arrive {s : Rank world} {n : Nat} (hroot : root.val = 0) :
    barrierFrame root s true (min n lastGeneration) (arriveFrame s n) = .ok () := by
  simp [barrierFrame, arriveFrame, Backend.misaddressed, WireFrame.source, WireFrame.destination,
    hroot]

/-- The frame that another rank takes from the root is the release it waits for. -/
theorem barrierFrame_release {r : Rank world} {n : Nat} (hroot : root.val = 0) :
    barrierFrame r root false (min n lastGeneration) (releaseFrame r n) = .ok () := by
  simp [barrierFrame, releaseFrame, Backend.misaddressed, WireFrame.source, WireFrame.destination,
    hroot]

theorem start_root (h : Protocol root b ph) (hzero : root.val = 0)
    (hidle : b.running root = none) : ∃ ph', Protocol root
      (b.resume root ((endpoints world maximum).code root (b.generation root) (.other ())))
      ph' := by
  have hph := h.idle_of_running hidle
  rw [code_root hzero]
  have hnext : Protocol root (b.proceed root (collecting root (b.generation root) (members world)))
      (Function.update ph root (.collecting (members world))) := by
    apply h.advance
    · rfl
    · rfl
    · rfl
    · exact ⟨rfl, List.suffix_refl _⟩
    · apply h.ties.same_root
      · rw [hph]
        intro r hr
        have hmem : r ∈ members world := by
          rw [mem_members, ← hzero]
          exact fun heq => hr (Fin.ext heq)
        simp [Phase.collected, hmem]
      · rw [hph]
        exact fun _ _ => rfl
  exact settle hzero hnext

theorem start_member (h : Protocol root b ph) (hzero : root.val = 0) (hi : i ≠ root)
    (hidle : b.running i = none) : ∃ ph', Protocol root
      (b.resume i ((endpoints world maximum).code i (b.generation i) (.other ()))) ph' := by
  have hph := h.idle_of_running hidle
  have hval : i.val ≠ 0 := by
    rw [← hzero]
    exact fun heq => hi (Fin.ext heq)
  rw [code_member hval hzero]
  refine ⟨Function.update ph i .arriving, ?_⟩
  apply h.advance
  · rfl
  · rfl
  · rfl
  · exact hi
  · apply h.ties.same_member hi
    · rw [hph]
      rfl
    · rw [hph]
      rfl

/-- A rank other than the root sends its arrival. -/
theorem send_arriving (h : Protocol root b ph) (hi : i ≠ root) (hph : ph i = .arriving)
    (hbound : i.val < 2 ^ 32) : Protocol root
      ((b.addSent i root (.barrierArrive i.val 0 (.ofNat (b.generation i)))).proceed i
        (awaiting i root (b.generation i))) (Function.update ph i .awaiting) := by
  apply h.advance
  · rfl
  · rfl
  · rfl
  · exact hi
  · have hties := h.ties.arrive hi hph hbound
    rw [arriveFrame, ← h.generation] at hties
    exact hties

/-- The root sends the next release. -/
theorem send_releasing (h : Protocol root b ph) (hzero : root.val = 0) {d : Rank world}
    {rest : List (Rank world)} (hph : ph root = .releasing (d :: rest)) : ∃ ph', Protocol root
      ((b.addSent root d (.barrierRelease 0 d.val (.ofNat (b.generation root)))).resume root
        (releasing root (b.generation root) rest)) ph' := by
  have hof := h.of root
  rw [hph] at hof
  have hnodup := nodup_members.sublist hof.2.sublist
  have hd : d ≠ root := by
    rintro rfl
    exact mem_members.mp (hof.2.subset List.mem_cons_self) hzero
  have hnext : Protocol root
      ((b.addSent root d (.barrierRelease 0 d.val (.ofNat (b.generation root)))).proceed root
        (releasing root (b.generation root) rest))
      (Function.update ph root (.releasing rest)) := by
    apply h.advance
    · rfl
    · rfl
    · rfl
    · exact ⟨rfl, (List.suffix_cons d rest).trans hof.2⟩
    · have hties := h.ties.release hd (List.nodup_cons.mp hnodup).1 hph
      rw [releaseFrame, ← h.generation] at hties
      exact hties
  exact settle hzero hnext

/-- The root can always send the next release: the rank has arrived. -/
theorem releasing_written (h : Protocol root b ph) (hzero : root.val = 0)
    (hmax : 64 ≤ maximum.toNat) {d : Rank world} {rest : List (Rank world)}
    (hph : ph root = .releasing (d :: rest)) (g : UInt64) :
    ∃ bytes, writeWire maximum (.barrierRelease 0 d.val g) = .ok bytes := by
  have hof := h.of root
  rw [hph] at hof
  have hd : d ≠ root := by
    rintro rfl
    exact mem_members.mp (hof.2.subset List.mem_cons_self) hzero
  have hcollected := h.ties.collected d hd
  rw [hph] at hcollected
  have hsent : b.sent d root ≠ [] := by
    intro hnil
    have hle := (h.ties.order d root).length_le
    rw [hnil, hcollected] at hle
    simp [Phase.collected] at hle
  apply writeWire_barrier rfl hmax
  · exact Nat.two_pow_pos 32
  · exact h.ties.written d hd hsent

/-- The root takes the next arrival. -/
theorem take_collecting (h : Protocol root b ph) (hzero : root.val = 0) {s : Rank world}
    {rest : List (Rank world)} (hph : ph root = .collecting (s :: rest)) {m : WireFrame UInt32}
    (hm : b.taken s root ++ [m] <+: b.sent s root) :
    barrierFrame root s true (b.generation root) m = .ok () ∧ ∃ ph', Protocol root
      ((b.addTaken s root m).resume root (collecting root (b.generation root) rest)) ph' := by
  have hof := h.of root
  rw [hph] at hof
  have hnodup := nodup_members.sublist hof.2.sublist
  have hs : s ≠ root := by
    rintro rfl
    exact mem_members.mp (hof.2.subset List.mem_cons_self) hzero
  have hlen := h.ties.collected s hs
  rw [hph] at hlen
  simp only [Phase.collected, List.mem_cons_self, if_true] at hlen
  obtain ⟨rfl, -⟩ := (h.ties.arrived s hs).2.next hm
  refine ⟨?_, ?_⟩
  · rw [hlen, h.generation]
    exact barrierFrame_arrive hzero
  · have hnext : Protocol root
        ((b.addTaken s root (arriveFrame s (b.taken s root).length)).proceed root
          (collecting root (b.generation root) rest))
        (Function.update ph root (.collecting rest)) := by
      apply h.advance
      · rfl
      · rfl
      · rfl
      · exact ⟨rfl, (List.suffix_cons s rest).trans hof.2⟩
      · exact h.ties.collect hs (List.nodup_cons.mp hnodup).1 hph hm
    exact settle hzero hnext

/-- Another rank takes its release and returns. -/
theorem take_awaiting (h : Protocol root b ph) (hzero : root.val = 0) (hi : i ≠ root)
    (hph : ph i = .awaiting) {m : WireFrame UInt32} (hm : b.taken root i ++ [m] <+: b.sent root i) :
    barrierFrame i root false (b.generation i) m = .ok () ∧ ∃ ph', Protocol root
      ((b.addTaken root i m).resume i (.ret (passed (b.generation i)))) ph' := by
  have hlen := h.ties.freed i hi
  rw [hph] at hlen
  simp only [Phase.freed, Nat.add_zero] at hlen
  obtain ⟨rfl, -⟩ := (h.ties.released i hi).2.next hm
  refine ⟨?_, ?_⟩
  · rw [hlen, h.generation]
    exact barrierFrame_release hzero
  · have hnext : Protocol root
        ((b.addTaken root i (releaseFrame i (b.taken root i).length)).proceed i
          (.ret (passed (b.generation i)))) (Function.update ph i .finishing) := by
      apply h.advance
      · rfl
      · rfl
      · rfl
      · trivial
      · exact h.ties.free hi hph hm
    exact settle hzero hnext

/-- A rank other than the root that is in a barrier call arrives or waits for its release. -/
theorem phase_member (h : Protocol root b ph) (hi : i ≠ root) {q : BarrierCode world}
    (hrunning : b.running i = some q) (hq : ∀ r, q ≠ .ret r) :
    ph i = .arriving ∨ ph i = .awaiting := by
  have hcode := h.running i
  have hof := h.of i
  rw [hrunning] at hcode
  cases hph : ph i with
  | idle =>
    rw [hph] at hcode
    cases hcode
  | arriving => exact .inl rfl
  | awaiting => exact .inr rfl
  | collecting rest =>
    rw [hph] at hof
    exact absurd hof.1 hi
  | releasing rest =>
    rw [hph] at hof
    exact absurd hof.1 hi
  | finishing =>
    rw [hph] at hcode
    exact absurd (Option.some.inj hcode) (hq _)

/-- Where a rank can be that is in a barrier call and has something to do. -/
theorem phase_of_running (h : Protocol root b ph) (hzero : root.val = 0)
    {q : BarrierCode world} (hrunning : b.running i = some q) (hq : ∀ r, q ≠ .ret r) :
    ∃ ph', Protocol root b ph' ∧
      ((i ≠ root ∧ (ph' i = .arriving ∨ ph' i = .awaiting)) ∨
        (i = root ∧ ((∃ s rest, ph' root = .collecting (s :: rest)) ∨
          ∃ d rest, ph' root = .releasing (d :: rest)))) := by
  have hcode := h.running i
  have hof := h.of i
  rw [hrunning] at hcode
  cases hph : ph i with
  | idle =>
    rw [hph] at hcode
    cases hcode
  | arriving =>
    rw [hph] at hof
    exact ⟨ph, h, .inl ⟨hof, .inl hph⟩⟩
  | awaiting =>
    rw [hph] at hof
    exact ⟨ph, h, .inl ⟨hof, .inr hph⟩⟩
  | collecting rest =>
    rw [hph] at hof hcode
    obtain ⟨rfl, -⟩ := hof
    cases rest with
    | nil =>
      refine ⟨_, h.rename_collecting hzero hph, .inr ⟨rfl, .inr ?_⟩⟩
      cases hmembers : members world with
      | nil =>
        have hret := Option.some.inj hcode
        rw [collecting, hmembers] at hret
        exact absurd hret (hq _)
      | cons d rest => exact ⟨d, rest, Function.update_self _ _ _⟩
    | cons s rest => exact ⟨ph, h, .inr ⟨rfl, .inl ⟨s, rest, hph⟩⟩⟩
  | releasing rest =>
    rw [hph] at hof hcode
    obtain ⟨rfl, -⟩ := hof
    cases rest with
    | nil => exact absurd (Option.some.inj hcode) (hq _)
    | cons d rest => exact ⟨ph, h, .inr ⟨rfl, .inr ⟨d, rest, hph⟩⟩⟩
  | finishing =>
    rw [hph] at hcode
    exact absurd (Option.some.inj hcode) (hq _)

/-- A rank that waits in a barrier: the root for an arrival, another rank for its release. -/
theorem phase_of_recv (h : Protocol root b ph) (hzero : root.val = 0) {j : Rank world} {sel k}
    (hrunning : b.running i = some (.recv j sel k)) : ∃ ph', Protocol root b ph' ∧
      ((i ≠ root ∧ j = root ∧ ph' i = .awaiting ∧
          awaiting i root (b.generation i) = .recv j sel k) ∨
        (i = root ∧ ∃ rest, ph' root = .collecting (j :: rest) ∧
          collecting root (b.generation root) (j :: rest) = .recv j sel k)) := by
  obtain ⟨ph', h', hcases⟩ := h.phase_of_running hzero hrunning (by simp)
  have hcode := h'.running i
  rw [hrunning] at hcode
  refine ⟨ph', h', ?_⟩
  rcases hcases with ⟨hi, hph | hph⟩ | ⟨rfl, ⟨s, rest, hph⟩ | ⟨d, rest, hph⟩⟩
  · rw [hph] at hcode
    cases hcode
  · rw [hph] at hcode
    have heq := Option.some.inj hcode
    exact .inl ⟨hi, (Proc.recv.inj heq).1, hph, heq.symm⟩
  · rw [hph] at hcode
    have heq := Option.some.inj hcode
    obtain rfl : j = s := (Proc.recv.inj heq).1
    exact .inr ⟨rfl, rest, hph, heq.symm⟩
  · rw [hph] at hcode
    cases hcode

/-- A rank that sends in a barrier: the root a release, another rank its arrival. -/
theorem phase_of_send (h : Protocol root b ph) (hzero : root.val = 0) {j : Rank world} {m k}
    (hrunning : b.running i = some (.send j m k)) : ∃ ph', Protocol root b ph' ∧
      ((i ≠ root ∧ ph' i = .arriving ∧ j = root ∧
          m = .barrierArrive i.val 0 (.ofNat (b.generation i)) ∧
          k = awaiting i root (b.generation i)) ∨
        (i = root ∧ ∃ rest, ph' root = .releasing (j :: rest) ∧
          m = .barrierRelease 0 j.val (.ofNat (b.generation root)) ∧
          k = releasing root (b.generation root) rest)) := by
  obtain ⟨ph', h', hcases⟩ := h.phase_of_running hzero hrunning (by simp)
  have hcode := h'.running i
  rw [hrunning] at hcode
  refine ⟨ph', h', ?_⟩
  rcases hcases with ⟨hi, hph | hph⟩ | ⟨rfl, ⟨s, rest, hph⟩ | ⟨d, rest, hph⟩⟩
  · rw [hph] at hcode
    obtain ⟨hj, hm, hk⟩ := Proc.send.inj (Option.some.inj hcode)
    exact .inl ⟨hi, hph, hj, hm, hk⟩
  · rw [hph] at hcode
    cases hcode
  · rw [hph] at hcode
    cases hcode
  · rw [hph] at hcode
    obtain ⟨rfl, hm, hk⟩ := Proc.send.inj (Option.some.inj hcode)
    exact .inr ⟨rfl, rest, hph, hm, hk⟩

/-- A rank that the wire format cannot name returns with an error. -/
theorem refused (h : Protocol root b ph) (hi : i ≠ root) (hph : ph i = .arriving)
    (hbound : 2 ^ 32 ≤ i.val) : Protocol root
      (b.close i (.error (.protocol "source rank does not fit u32")))
      (Function.update ph i .idle) := by
  have hround : (b.close i (.error (.protocol "source rank does not fit u32"))).round = b.round := by
    rw [Board.round_close, if_neg (by decide)]
    exact Function.update_eq_self i b.round
  apply h.leave
  · rw [hround]
    exact h.generation i
  · rfl
  · rw [hround]
    apply h.ties.same_member hi
    · rw [hph]
      rfl
    · rw [hph]
      rfl
  · exact .refused hbound

/-- Every turn before a deadline keeps the protocol. -/
theorem turn (h : Protocol root b ph) (hzero : root.val = 0) (hmax : 64 ≤ maximum.toNat)
    {e : Event (Rank world) (Operation UInt32 Unit)} (hturn : Board.Turn maximum e b b')
    (hpunctual : ∀ i lost, e ≠ .expire i lost) : ∃ ph', Protocol root b' ph' := by
  cases hturn with
  | @start _ i hidle =>
    by_cases hi : i = root
    · subst hi
      exact h.start_root hzero hidle
    · exact h.start_member hzero hi hidle
  | @send _ i j m k bytes hrunning hwrite =>
    obtain ⟨ph1, h1, ⟨hi, hph, rfl, rfl, rfl⟩ | ⟨rfl, rest, hph, rfl, rfl⟩⟩ :=
      h.phase_of_send hzero hrunning
    · have hbound : i.val < 2 ^ 32 := by
        obtain ⟨body, hbody, -⟩ := ok_of_bind hwrite
        obtain ⟨source, hsource, -⟩ := ok_of_bind hbody
        exact (toU32_ok hsource).2
      exact ⟨_, h1.send_arriving hi hph hbound⟩
    · exact h1.send_releasing hzero hph
  | @refused _ i j m k err hrunning hwrite =>
    obtain ⟨ph1, h1, ⟨hi, hph, rfl, rfl, rfl⟩ | ⟨rfl, rest, hph, rfl, rfl⟩⟩ :=
      h.phase_of_send hzero hrunning
    · obtain ⟨hbound, rfl⟩ := writeWire_refused (f := .barrierArrive i.val 0 _) rfl hmax
        (Nat.two_pow_pos 32) hwrite
      exact ⟨_, h1.refused hi hph hbound⟩
    · obtain ⟨bytes, hbytes⟩ := h1.releasing_written hzero hmax hph (.ofNat (b.generation i))
      cases hbytes.symm.trans hwrite
  | @take _ i j sel k m hrunning hbetween hprefix =>
    obtain ⟨ph1, h1, ⟨hi, rfl, hph, hcode⟩ | ⟨rfl, rest, hph, hcode⟩⟩ :=
      h.phase_of_recv hzero hrunning
    · obtain ⟨hframe, h'⟩ := h1.take_awaiting hzero hi hph hprefix
      obtain ⟨-, -, rfl⟩ := Proc.recv.inj hcode
      simp only [hframe]
      exact h'
    · obtain ⟨hframe, h'⟩ := h1.take_collecting hzero hph hprefix
      obtain ⟨-, -, rfl⟩ := Proc.recv.inj hcode
      simp only [hframe]
      exact h'
  | @expire _ i j sel k lost hrunning => exact absurd rfl (hpunctual i lost)
  | @overdue _ i j m k hrunning => exact absurd rfl (hpunctual i 0)

end Protocol

end TcpTransport

end Dlir.Collectives
