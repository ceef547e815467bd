import Dlir.Collectives.BarrierRuns
import Mathlib.Algebra.Order.BigOperators.Group.Finset

namespace Dlir.Collectives

open Dlir.Framework Dlir.Math Session

namespace TcpTransport

variable {world : Nat} {maximum : UInt64} {w w' : Session (endpoints world maximum)}
  {e : Event (Rank world) (endpoints world maximum).Op} {root : Rank world}

namespace Board

variable {b b' : Board world} {i : Rank world}

/-- What a turn does not touch, and that a rank either goes on in its call or comes back. -/
structure Frame (i : Rank world) (b b' : Board world) : Prop where
  others : ∀ x, x ≠ i → b'.generation x = b.generation x ∧ b'.running x = b.running x
  own : ((b'.running i).isSome ∧ b'.generation i = b.generation i) ∨
    ∃ r, b'.running i = none ∧ b'.results i = b.results i ++ [r]

theorem frame_close (b : Board world) (i : Rank world) (r) : Frame i b (b.close i r) where
  others := by
    intro x hx
    cases r with
    | ok result => simp [close, Function.update_of_ne hx]
    | error e => simp [close, Function.update_of_ne hx]
  own := by
    right
    exact ⟨r.map Prod.fst, by simp [close], by simp [close]⟩

theorem frame_proceed (b : Board world) (i : Rank world) (p) : Frame i b (b.proceed i p) where
  others := by
    intro x hx
    simp [proceed, Function.update_of_ne hx]
  own := by
    left
    simp

theorem frame_resume (b : Board world) (i : Rank world) (p) : Frame i b (b.resume i p) := by
  cases p with
  | ret r => exact frame_close b i r
  | send dst m k => exact frame_proceed b i _
  | recv src sel k => exact frame_proceed b i _
  | exchange dst m src sel k => exact frame_proceed b i _
  | emit o k => exact frame_proceed b i _

theorem Turn.frame {e : Event (Rank world) (Operation UInt32 Unit)} (h : Turn maximum e b b')
    (he : e = .send i ∨ e = .recv i) : Frame i b b' := by
  cases h with
  | start hidle => rcases he with he | he <;> cases he
  | @send _ i' j m k bytes hrunning hwrite =>
    obtain rfl : i' = i := by rcases he with he | he <;> cases he; rfl
    have hframe := frame_resume (b.addSent i' j m) i' k
    exact ⟨hframe.others, hframe.own⟩
  | @refused _ i' j m k err hrunning hwrite =>
    obtain rfl : i' = i := by rcases he with he | he <;> cases he; rfl
    exact frame_close b i' _
  | @take _ i' j sel k m hrunning hbetween hprefix =>
    obtain rfl : i' = i := by rcases he with he | he <;> cases he; rfl
    have hframe := frame_resume (b.addTaken j i' m) i' (k m)
    exact ⟨hframe.others, hframe.own⟩
  | expire hrunning => rcases he with he | he <;> cases he
  | overdue hrunning => rcases he with he | he <;> cases he

/-- Every rank has entered the barrier of a generation. -/
def Entered (b : Board world) (g : Nat) : Prop :=
  ∀ r, g < b.generation r ∨ (b.generation r = g ∧ (b.running r).isSome)

end Board

/-- A rank that comes back from the barrier of a generation before the last has the next one. -/
theorem Protocol.generation_next {b b' : Board world} {ph ph'} (h : Protocol root b ph)
    (h' : Protocol root b' ph') (hworld : world ≤ 2 ^ 32) {i : Rank world} {g : Nat}
    (hg : b.generation i = g) (hlast : g < lastGeneration) {r}
    (hresults : b'.results i = b.results i ++ [r]) : b'.generation i = g + 1 := by
  have hpasses' := h'.passes i
  have hgeneration' := h'.generation i
  have hgeneration := h.generation i
  have hpasses := h.passes i
  have hround : b'.round i = b.round i + if completed r then 1 else 0 := by
    rw [Board.round, Board.round, hresults, List.countP_append, List.countP_singleton]
  rw [hresults, List.countP_append, List.countP_singleton, ← hpasses, hg] at hpasses'
  have houtcome := h'.results i r (by rw [hresults]; simp)
  cases houtcome with
  | done => exact hpasses'
  | overflow =>
    -- the round counts, so the generation would have to grow
    rw [if_pos (by rfl)] at hround
    rw [if_neg (by simp [Except.isOk, Except.toBool])] at hpasses'
    omega
  | refused hbound =>
    have hlt := i.isLt
    omega

theorem Protocol.entered_step {b b' : Board world} {ph ph'} (h : Protocol root b ph)
    (h' : Protocol root b' ph') (hworld : world ≤ 2 ^ 32) {i : Rank world} {g : Nat}
    (hentered : b.Entered g) (hlast : g < lastGeneration) (hframe : Board.Frame i b b') :
    b'.Entered g := by
  intro r
  by_cases hr : r = i
  · subst hr
    rcases hframe.own with ⟨hrunning, hgeneration⟩ | ⟨x, -, hresults⟩
    · rw [hgeneration]
      rcases hentered r with hlt | ⟨heq, -⟩
      · exact .inl hlt
      · exact .inr ⟨heq, hrunning⟩
    · left
      rcases hentered r with hlt | ⟨heq, -⟩
      · have hpasses := h.passes r
        have hpasses' := h'.passes r
        rw [hresults, List.countP_append] at hpasses'
        omega
      · rw [h.generation_next h' hworld heq hlast hresults]
        exact Nat.lt_succ_self g
  · obtain ⟨hgeneration, hrunning⟩ := hframe.others r hr
    rw [hgeneration, hrunning]
    exact hentered r

/-- A step of a barrier call. -/
structure BarrierStep (w : Session (endpoints world maximum))
    (e : Event (Rank world) (endpoints world maximum).Op) : Prop where
  undisturbed : Undisturbed w e
  own : ∃ i p, (e = .send i ∨ e = .recv i) ∧ w.call i = some (.other (), p)

theorem BarrierStep.punctual (he : BarrierStep w e) : ∀ i lost, e ≠ .expire i lost := by
  rintro i lost rfl
  obtain ⟨i', p, he' | he', -⟩ := he.own <;> cases he'

/-- On the connections of the root no control frame is under way. -/
def Drained (root : Rank world) (w : Session (endpoints world maximum)) : Prop :=
  ∀ i j, (i = root ∨ j = root) → ∃ read unread,
    (w.flow (Backend.tcp.contents world UInt32) i j).Balanced WireFrame.key read unread ∧
      ∀ f ∈ unread, ∀ tag, f.key ≠ .control tag

/-- What holds while the ranks finish the barrier of a generation that all have entered. -/
structure Finishing (root : Rank world) (g : Nat) (w : Session (endpoints world maximum)) :
    Prop where
  barriers : Barriers root w
  drained : Drained root w
  entered : (board w).Entered g

theorem Drained.step (h : Drained root w) (hb : Barriers root w) (hord : w.Orderly e)
    (he : BarrierStep w e) (hfire : Fire e w w') : Drained root w' := by
  intro x y hroot
  obtain ⟨read, unread, hbal, hclear⟩ := h x y hroot
  obtain ⟨read', unread', hbal', hunread⟩ :=
    hb.tracked.accounted.balanced_step (fun _ _ _ hf => hf.1) hord hfire hbal
  refine ⟨read', unread', hbal', ?_⟩
  intro f hf tag hkey
  rcases hunread f hf with hold | hnew
  · exact hclear f hold tag hkey
  · -- the frame was sent by a barrier
    rcases hfire.sent_cases x y with hsame | ⟨op, m, k, c, he', hcall, -, hmore⟩
    · rw [hsame] at hnew
      simp at hnew
    · rw [hmore] at hnew
      obtain rfl : m = f := by simpa using hnew
      obtain ⟨i, p, hi | hi, hcall'⟩ := he.own
      · rw [he'] at hi
        obtain rfl := Event.send.inj hi
        rw [hcall] at hcall'
        obtain ⟨rfl, -⟩ := Prod.mk.inj (Option.some.inj hcall')
        have hbarrier := (hb.tracked.calls x _ _ hcall).1.2
        rw [hkey] at hbarrier
        cases hbarrier
      · rw [he'] at hi
        cases hi

theorem Finishing.step {g : Nat} (h : Finishing root g w) (hzero : root.val = 0)
    (hmax : 64 ≤ maximum.toNat) (hworld : world ≤ 2 ^ 32) (hlast : g < lastGeneration)
    (he : BarrierStep w e) (hfire : Fire e w w') : Finishing root g w' := by
  have hord := h.barriers.orderly hzero he.undisturbed
  have hb' := h.barriers.step hzero hmax he.undisturbed he.punctual hfire
  refine ⟨hb', h.drained.step h.barriers hord he hfire, ?_⟩
  rcases turn_of_fire h.barriers.tracked hord hfire with hsame | hturn
  · rw [hsame]
    exact h.entered
  · obtain ⟨ph, hprotocol⟩ := h.barriers.protocol
    obtain ⟨ph', hprotocol'⟩ := hb'.protocol
    obtain ⟨i, p, hi, -⟩ := he.own
    exact hprotocol.entered_step hprotocol' hworld h.entered hlast (hturn.frame hi)

theorem Finishing.reached {g : Nat} (h : Finishing root g w) (hzero : root.val = 0)
    (hmax : 64 ≤ maximum.toNat) (hworld : world ≤ 2 ^ 32) (hlast : g < lastGeneration)
    (hrun : Reaches BarrierStep w w') : Finishing root g w' := by
  induction hrun with
  | refl => exact h
  | tail _ hstep ih =>
    obtain ⟨e, he, hfire⟩ := hstep
    exact ih.step hzero hmax hworld hlast he hfire

/-- How many frames of the barrier are still to be sent or taken. -/
def Board.left (b : Board world) (g : Nat) : Nat :=
  ∑ p : Rank world × Rank world,
    ((g + 1 - (b.sent p.1 p.2).length) + (g + 1 - (b.taken p.1 p.2).length))

theorem Board.left_lt_sent {b b' : Board world} {g : Nat} {i j : Rank world} {m : WireFrame UInt32}
    (hlen : (b.sent i j).length ≤ g) (hsent : b'.sent = set₂ b.sent i j (b.sent i j ++ [m]))
    (htaken : b'.taken = b.taken) : b'.left g < b.left g := by
  apply Finset.sum_lt_sum
  · intro p _
    rw [hsent, htaken, set₂_apply]
    split_ifs with hp
    · obtain ⟨h1, h2⟩ := hp
      rw [h1, h2, List.length_append]
      omega
    · exact le_refl _
  · refine ⟨(i, j), Finset.mem_univ _, ?_⟩
    rw [hsent, htaken, set₂_apply, if_pos ⟨rfl, rfl⟩, List.length_append, List.length_singleton]
    dsimp only
    omega

theorem Board.left_lt_taken {b b' : Board world} {g : Nat} {i j : Rank world} {m : WireFrame UInt32}
    (hlen : (b.taken i j).length ≤ g) (hsent : b'.sent = b.sent)
    (htaken : b'.taken = set₂ b.taken i j (b.taken i j ++ [m])) : b'.left g < b.left g := by
  apply Finset.sum_lt_sum
  · intro p _
    rw [hsent, htaken, set₂_apply]
    split_ifs with hp
    · obtain ⟨h1, h2⟩ := hp
      rw [h1, h2, List.length_append]
      omega
    · exact le_refl _
  · refine ⟨(i, j), Finset.mem_univ _, ?_⟩
    rw [hsent, htaken, set₂_apply, if_pos ⟨rfl, rfl⟩, List.length_append, List.length_singleton]
    dsimp only
    omega

theorem dimensions_barrier {m : WireFrame UInt32} (hm : m.key = .barrier) : m.dimensions ≤ 64 := by
  cases m with
  | tensor s d tag packet => cases hm
  | control s d tag packet => cases hm
  | barrierArrive s d g => exact Nat.zero_le _
  | barrierRelease s d g => exact Nat.zero_le _

/-- A barrier sends its next frame. -/
theorem Finishing.send {g : Nat} (h : Finishing root g w) {i j : Rank world} {m k}
    (hrunning : (board w).running i = some (.send j m k)) {bytes : List UInt8}
    (hwrite : writeWire maximum m = .ok bytes) (hlen : ((board w).sent i j).length ≤ g) :
    ∃ w', Reaches BarrierStep w w' ∧ (board w').left g < (board w).left g := by
  have hcall := running_board.mp hrunning
  have hkey := (h.barriers.tracked.calls i _ _ hcall).1.2
  have hpush : (endpoints world maximum).link.push (w.chan i j) m =
      .ok ((show List UInt8 from w.chan i j) ++ bytes) := by
    show (writeWire maximum m).map _ = _
    rw [hwrite]
    rfl
  have hstep : BarrierStep w (.send i) :=
    ⟨undisturbed_send hcall (dimensions_barrier hkey), i, _, .inl rfl, hcall⟩
  obtain ⟨w1, hlocals, hcalls, hhistory, hsent, htaken, hfire⟩ : ∃ w1, Session.locals w1 = w.locals ∧
      w1.call = w.call ∧ w1.history = w.history ∧
      w1.sent = set₂ w.sent i j (w.sent i j ++ [m]) ∧ w1.taken = w.taken ∧
      Fire (.send i) w (w1.resume i (.other ()) k) := by
    refine ⟨_, ?_, ?_, ?_, ?_, ?_, .send hcall hpush⟩
    all_goals rfl
  refine ⟨_, .single ⟨.send i, hstep, hfire⟩, ?_⟩
  rw [board_resume_other, board_addSent hkey hlocals hcalls hhistory hsent htaken]
  apply Board.left_lt_sent hlen
  · rw [Board.resume_sent]
    rfl
  · rw [Board.resume_taken]
    rfl

/-- A barrier takes its next frame. -/
theorem Finishing.take {g : Nat} (h : Finishing root g w) (hzero : root.val = 0)
    {i j : Rank world} {sel k}
    (hrunning : (board w).running i = some (.recv j sel k)) (hroot : j = root ∨ i = root)
    (hlen : ((board w).taken j i).length ≤ g)
    (hthere : ((board w).taken j i).length < ((board w).sent j i).length) :
    ∃ w', Reaches BarrierStep w w' ∧ (board w').left g < (board w).left g := by
  have hcall := running_board.mp hrunning
  obtain rfl := h.barriers.selector hzero hcall
  obtain ⟨read, unread, hbal, hclear⟩ := h.drained j i hroot
  have hbetween := h.barriers.tracked.between hbal
  have hnext : ∃ f ∈ (Backend.tcp.contents world UInt32).of (w.mail i) j ++ unread,
      (barrierSelector i j).stored f = true := by
    by_contra hnone
    push Not at hnone
    have hempty : ((Backend.tcp.contents world UInt32).of (w.mail i) j ++ unread).filter
        (·.key = .barrier) = [] := by
      rw [List.filter_eq_nil_iff]
      intro f hf
      rw [← stored_barrierSelector i j]
      exact hnone f hf
    have hsent : w.sent j i = read ++ unread := hbal.sent_eq
    have horder := hbal.order Key.barrier
    have htotal : (board w).sent j i = (board w).taken j i := by
      show (w.sent j i).filter (·.key = .barrier) = (w.taken j i).filter (·.key = .barrier)
      rw [hsent, List.filter_append, horder, List.append_assoc]
      show _ ++ (((Backend.tcp.contents world UInt32).of (w.mail i) j).filter _ ++ _) = _
      rw [← List.filter_append, hempty, List.append_nil]
      rfl
    rw [htotal] at hthere
    exact absurd hthere (Nat.lt_irrefl _)
  have hfresh : ∀ f ∈ unread, (barrierSelector i j).fresh f = (barrierSelector i j).stored f := by
    intro f hf
    have hplain : Backend.tcp.misaddressed i j f = false :=
      Backend.misaddressed_between (hbetween f (List.mem_append_right _ hf))
    rw [stored_barrierSelector]
    cases f with
    | tensor s d tag packet => simp [barrierSelector, hplain, WireFrame.isAnyTensor, WireFrame.key]
    | control s d tag packet => exact absurd rfl (hclear _ hf tag)
    | barrierArrive s d n => simp [barrierSelector, WireFrame.isAnyTensor, WireFrame.key]
    | barrierRelease s d n => simp [barrierSelector, WireFrame.isAnyTensor, WireFrame.key]
  have hok : ∀ (w1 : Session (endpoints world maximum)) read1 unread1, w1.call = w.call →
      unread1 <:+ unread →
      (w1.flow (Backend.tcp.contents world UInt32) j i).Balanced WireFrame.key read1 unread1 →
      BarrierStep w1 (.recv i) := by
    intro w1 read1 unread1 hcalls hsuffix hbal1
    refine ⟨⟨?_, ?_, ?_⟩, i, _, .inr rfl, by rw [hcalls, hcall]⟩
    · intro i' op j' m k' he
      cases he
    · intro i' j' sel' k' m c tag he hcall' _ hpop
      obtain rfl := Event.recv.inj he
      rw [hcalls, hcall] at hcall'
      obtain ⟨-, hproc⟩ := Prod.mk.inj (Option.some.inj hcall')
      obtain ⟨rfl, -, -⟩ := Proc.recv.inj hproc
      obtain ⟨rest, rfl, -⟩ := hbal1.pop hpop
      exact hclear m (hsuffix.subset List.mem_cons_self) tag
    · intro i' lost he
      cases he
  obtain ⟨front, m, back, w1, -, -, hwant, hcalls, hlocals, hhistory, hsent, htaken, hrun⟩ :=
    receive_completes BarrierStep hcall hbal
      (fun f hf => (hbetween f (List.mem_append_right _ hf)).1) hfresh hok hnext
  rw [stored_barrierSelector, decide_eq_true_iff] at hwant
  refine ⟨_, hrun, ?_⟩
  rw [board_resume_other, board_addTaken hwant hlocals hcalls hhistory hsent htaken]
  apply Board.left_lt_taken hlen
  · rw [Board.resume_sent]
    rfl
  · rw [Board.resume_taken]
    rfl

/-- While the root is in the barrier it can go on, or the rank it waits for can. -/
theorem Finishing.progress_root {g : Nat} (h : Finishing root g w) (hzero : root.val = 0)
    (hmax : 64 ≤ maximum.toNat) (hworld : world ≤ 2 ^ 32) (hlast : g < lastGeneration)
    (hgeneration : (board w).generation root = g) (hbusy : ((board w).running root).isSome) :
    ∃ w', Reaches BarrierStep w w' ∧ (board w').left g < (board w).left g := by
  obtain ⟨ph, hprotocol⟩ := h.barriers.protocol
  have hlive : ∀ {i q}, (board w).running i = some q → ∀ r, q ≠ .ret r := by
    rintro i q hrunning r rfl
    exact h.barriers.live i _ r (running_board.mp hrunning)
  have hround := hprotocol.generation root
  obtain ⟨q, hq⟩ := Option.isSome_iff_exists.mp hbusy
  obtain ⟨ph', h', ⟨hne, -⟩ | ⟨-, ⟨s, rest, hph⟩ | ⟨d, rest, hph⟩⟩⟩ :=
    hprotocol.phase_of_running hzero hq (hlive hq)
  · exact absurd rfl hne
  · have hof := h'.of root
    have hcode := h'.running root
    rw [hph] at hof hcode
    have hs : s ≠ root := by
      rintro rfl
      exact mem_members.mp (hof.2.subset List.mem_cons_self) hzero
    have hmember := h'.ties.round_member hs
    have hcollected := h'.ties.collected s hs
    have harrived := (h'.ties.arrived s hs).1
    have hround' := h'.generation s
    simp only [hph, Phase.released, Phase.collected, List.mem_cons_self, if_true] at hmember hcollected
    have hcurrent : (board w).generation s = g ∧ ((board w).running s).isSome := by
      apply (h.entered s).resolve_left
      omega
    obtain ⟨qs, hqs⟩ := Option.isSome_iff_exists.mp hcurrent.2
    rcases h'.phase_member hs hqs (hlive hqs) with hphs | hphs
    · have hcode' := h'.running s
      rw [hphs] at hcode'
      obtain ⟨bytes, hbytes⟩ : ∃ bytes, writeWire maximum
          (.barrierArrive s.val 0 (.ofNat ((board w).generation s))) = .ok bytes :=
        writeWire_barrier rfl hmax (Nat.lt_of_lt_of_le s.isLt hworld) (Nat.two_pow_pos 32)
      apply h.send hcode' hbytes
      rw [harrived, hphs]
      simp only [Phase.arrived]
      omega
    · rw [hphs] at harrived
      simp only [Phase.arrived] at harrived
      apply h.take hzero hcode (.inr rfl)
      · omega
      · omega
  · have hcode := h'.running root
    have hof := h'.of root
    rw [hph] at hcode hof
    have hd : d ≠ root := by
      rintro rfl
      exact mem_members.mp (hof.2.subset List.mem_cons_self) hzero
    obtain ⟨bytes, hbytes⟩ := h'.releasing_written hzero hmax hph (.ofNat ((board w).generation root))
    apply h.send hcode hbytes
    rw [(h'.ties.released d hd).1, hph]
    simp only [Phase.released, List.mem_cons_self, if_true]
    omega

/-- As long as a rank has not returned from the barrier, some rank can go on. -/
theorem Finishing.progress {g : Nat} (h : Finishing root g w) (hzero : root.val = 0)
    (hmax : 64 ≤ maximum.toNat) (hworld : world ≤ 2 ^ 32) (hlast : g < lastGeneration)
    {r : Rank world} (hr : ¬ g < (board w).generation r) :
    ∃ w', Reaches BarrierStep w w' ∧ (board w').left g < (board w).left g := by
  rcases h.entered root with hpassed | ⟨hcurrent, hbusy⟩
  · obtain ⟨ph, hprotocol⟩ := h.barriers.protocol
    obtain ⟨hcurrent, hbusy⟩ := (h.entered r).resolve_left hr
    have hne : r ≠ root := by
      rintro rfl
      exact hr hpassed
    have hround := hprotocol.generation root
    have hround' := hprotocol.generation r
    have hroot := hprotocol.ties.round_root hne
    obtain ⟨q, hq⟩ := Option.isSome_iff_exists.mp hbusy
    have hlive : ∀ x, q ≠ .ret x := by
      rintro x rfl
      exact h.barriers.live r _ x (running_board.mp hq)
    rcases hprotocol.phase_member hne hq hlive with hph | hph
    · rw [hph] at hroot
      simp only [Phase.arrived] at hroot
      omega
    · have hcode := hprotocol.running r
      have hfreed := hprotocol.ties.freed r hne
      have hreleased := (hprotocol.ties.released r hne).1
      rw [hph] at hcode hfreed
      simp only [Phase.freed] at hfreed
      apply h.take hzero hcode (.inl rfl)
      · omega
      · omega
  · exact h.progress_root hzero hmax hworld hlast hcurrent hbusy

/-- A barrier that all ranks have entered can be finished by steps of its own. -/
theorem Finishing.completes {g : Nat} (h : Finishing root g w) (hzero : root.val = 0)
    (hmax : 64 ≤ maximum.toNat) (hworld : world ≤ 2 ^ 32) (hlast : g < lastGeneration) :
    ∃ w', Reaches BarrierStep w w' ∧ ∀ r, g < (board w').generation r := by
  generalize hn : (board w).left g = n
  induction n using Nat.strong_induction_on generalizing w with
  | _ n ih =>
    by_cases hall : ∀ r, g < (board w).generation r
    · exact ⟨w, .refl, hall⟩
    · push Not at hall
      obtain ⟨r, hr⟩ := hall
      obtain ⟨w1, hrun, hless⟩ := h.progress hzero hmax hworld hlast (r := r) (by omega)
      have h1 := h.reached hzero hmax hworld hlast hrun
      obtain ⟨w2, hrun', hdone⟩ := ih _ (hn ▸ hless) h1 rfl
      exact ⟨w2, hrun.trans hrun', hdone⟩

theorem BarrierStep.transcript_eq (he : BarrierStep w e) (hfire : Fire e w w') (r : Rank world) :
    transcript (w'.history r) = transcript (w.history r) := by
  obtain ⟨i, p, hi, hcall⟩ := he.own
  have hresume : ∀ (w1 : Session (endpoints world maximum)) q, w1.history = w.history →
      transcript ((w1.resume i (.other ()) q).history r) = transcript (w.history r) := by
    intro w1 q hhistory
    rcases resume_history_cases w1 i (.other ()) q with hsame | ⟨x, hmore⟩
    · rw [hsame, hhistory]
    · rw [hmore, hhistory]
      by_cases hr : r = i
      · subst hr
        rw [Function.update_self, transcript_append]
        exact List.append_nil _
      · rw [Function.update_of_ne hr]
  cases hfire with
  | call hidle => rcases hi with hi | hi <;> cases hi
  | send hcall' hpush =>
    rcases hi with hi | hi <;> cases hi
    rw [hcall] at hcall'
    obtain ⟨rfl, -⟩ := Prod.mk.inj (Option.some.inj hcall')
    exact hresume _ _ rfl
  | refused hcall' hpush =>
    rcases hi with hi | hi <;> cases hi
    rw [hcall] at hcall'
    obtain ⟨rfl, -⟩ := Prod.mk.inj (Option.some.inj hcall')
    exact hresume w (.ret (.error _)) rfl
  | stored hcall' htake =>
    rcases hi with hi | hi <;> cases hi
    rw [hcall] at hcall'
    obtain ⟨rfl, -⟩ := Prod.mk.inj (Option.some.inj hcall')
    exact hresume _ _ rfl
  | fresh hcall' htake hpop hfresh =>
    rcases hi with hi | hi <;> cases hi
    rw [hcall] at hcall'
    obtain ⟨rfl, -⟩ := Prod.mk.inj (Option.some.inj hcall')
    exact hresume _ _ rfl
  | parked hcall' htake hpop hfresh => rfl
  | garbled hcall' htake hpop =>
    rcases hi with hi | hi <;> cases hi
    rw [hcall] at hcall'
    obtain ⟨rfl, -⟩ := Prod.mk.inj (Option.some.inj hcall')
    exact hresume _ (.ret (.error _)) rfl
  | expire hcall' htake he' => rcases hi with hi | hi <;> cases hi
  | overdue hcall' hpush he' => rcases hi with hi | hi <;> cases hi

theorem transcript_of_run (hrun : Reaches BarrierStep w w') (r : Rank world) :
    transcript (w'.history r) = transcript (w.history r) := by
  induction hrun with
  | refl => rfl
  | tail _ hstep ih =>
    obtain ⟨e, he, hfire⟩ := hstep
    rw [he.transcript_eq hfire r, ih]

/-- Every control packet sent on a connection of rank 0 has been received or is pending. -/
def Clear (w : Session (endpoints world maximum)) : Prop :=
  ∀ (i j : Rank world) tag, (i.val = 0 ∨ j.val = 0) →
    (sentBy i j (.control tag) (transcript (w.history i))).length =
      (returnedTo i (.control tag) (transcript (w.history j))).length +
      (((Backend.tcp.contents world UInt32).of (w.mail j) i).filter (·.key = .control tag)).length

theorem Clear.drained (h : Clear w) (ht : Tracked w) (hzero : root.val = 0) : Drained root w := by
  intro i j hroot
  obtain ⟨read, unread, hbal⟩ := ht.accounted.balanced i j
  refine ⟨read, unread, hbal, ?_⟩
  intro f hf tag hkey
  have hclear := h i j tag (by rcases hroot with rfl | rfl <;> simp [hzero])
  have hdelivered := congrArg List.length
    (ht.delivered hbal (show Key.control tag ≠ .barrier from nofun))
  have hmem : f ∈ unread.filter (·.key = .control tag) := by simp [hf, hkey]
  have hpos := List.length_pos_of_mem hmem
  simp only [List.length_map, List.length_append] at hdelivered
  omega

/-- A barrier reports an overflow only at the last generation. -/
theorem Protocol.last_of_overflow {b : Board world} {ph} (h : Protocol root b ph)
    {r : Rank world} (hmem : .error overflow ∈ b.results r) :
    b.generation r = lastGeneration := by
  have hgeneration := h.generation r
  have hpasses := h.passes r
  have hless : (b.results r).countP Except.isOk < b.round r := by
    obtain ⟨front, back, heq⟩ := List.append_of_mem hmem
    have hle : ∀ l : List (Except CollectivesError (Answer UInt32)),
        l.countP Except.isOk ≤ l.countP completed := by
      intro l
      apply List.countP_mono_left
      intro x _ hx
      cases x with
      | ok answer => rfl
      | error e => cases hx
    have hfront := hle front
    have hback := hle back
    have hfails : Except.isOk (.error overflow : Except CollectivesError (Answer UInt32)) = false :=
      rfl
    have hcounts : completed (.error overflow) = true := rfl
    rw [Board.round, heq]
    simp only [List.countP_append, List.countP_cons, hfails, hcounts, Bool.false_eq_true, if_false,
      if_true]
    omega
  omega

/-- What barriers leave to the packets around them: a barrier fails only when its generation
overflows, packets of both kinds are delivered exactly, and a barrier that all ranks have
entered can be finished by steps of its own, which touch no message call. -/
structure Transparent (w : Session (endpoints world maximum)) : Prop where
  results : ∀ (r : Rank world) x, (.other (), x) ∈ w.history r →
    x = .ok .done ∨ x = .error overflow ∧ w.locals r = lastGeneration
  exact : Exact w
  completes : ∀ g, g < lastGeneration →
    (∀ r, g < w.locals r ∨ (w.locals r = g ∧ ∃ p, w.call r = some (.other (), p))) → Clear w →
    ∃ w', Reaches BarrierStep w w' ∧ (∀ r, g < w'.locals r) ∧
      (∀ r, transcript (w'.history r) = transcript (w.history r)) ∧ Exact w'

theorem Barriers.transparent (h : Barriers root w) (hzero : root.val = 0)
    (hmax : 64 ≤ maximum.toNat) (hworld : world ≤ 2 ^ 32) : Transparent w where
  results := by
    intro r x hx
    obtain ⟨ph, hprotocol⟩ := h.protocol
    have hmem := mem_results_board.mpr hx
    have houtcome := hprotocol.results r x hmem
    cases houtcome with
    | done => exact .inl rfl
    | overflow => exact .inr ⟨rfl, hprotocol.last_of_overflow hmem⟩
    | refused hbound =>
      have hlt := r.isLt
      omega
  exact := h.tracked.exact
  completes := by
    intro g hlast hentered hclear
    have hfinishing : Finishing root g w := by
      refine ⟨h, hclear.drained h.tracked hzero, ?_⟩
      intro r
      rcases hentered r with hlt | ⟨heq, p, hcall⟩
      · exact .inl hlt
      · right
        rw [running_board.mpr hcall]
        exact ⟨heq, rfl⟩
    obtain ⟨w', hrun, hdone⟩ := hfinishing.completes hzero hmax hworld hlast
    exact ⟨w', hrun, hdone, transcript_of_run hrun,
      (hfinishing.reached hzero hmax hworld hlast hrun).barriers.tracked.exact⟩

/-- Barriers do not disturb packets in runs in which no barrier meets a control frame or a tensor
of more than 64 dimensions and no wait expires. -/
theorem barrier_transparent (hworld : 0 < world) (hbound : world ≤ 2 ^ 32)
    (hmax : 64 ≤ maximum.toNat)
    (h : Reaches (fun w e => Undisturbed w e ∧ ∀ i lost, e ≠ .expire i lost)
      (Session.initial (endpoints world maximum)) w) : Transparent w := by
  have hbarriers : Barriers ⟨0, hworld⟩ w := by
    induction h with
    | refl => exact .initial _
    | tail _ hstep ih =>
      obtain ⟨e, ⟨he, hpunctual⟩, hfire⟩ := hstep
      exact ih.step rfl hmax he hpunctual hfire
  exact hbarriers.transparent rfl hmax hbound

theorem unitPacket_count : elementCount [1] = .ok ([0] : List UInt32).length := by decide +kernel

/-- A tensor with one value. -/
def unitPacket : TensorPacket UInt32 := ⟨[1], [0], unitPacket_count⟩

/-- Rank 1 sends a tensor before it enters the barrier. The barrier can be finished on both ranks
and the tensor is there afterwards. -/
theorem barrier_transparent_pair : ∃ w w' : Session (endpoints 2 64),
    Reaches (fun w e => Undisturbed w e ∧ ∀ i lost, e ≠ .expire i lost) (Session.initial _) w ∧
    w.history 1 = [(.message (.send 0 ⟨7⟩ unitPacket), .ok .done)] ∧
    Reaches BarrierStep w w' ∧ (∀ r, 0 < w'.locals r) ∧ Exact w' := by
  have h1 : Reaches (fun w e => Undisturbed w e ∧ ∀ i lost, e ≠ .expire i lost)
      (Session.initial (endpoints 2 64)) _ :=
    .single ⟨.call 1 (.message (.send 0 ⟨7⟩ unitPacket)), ⟨undisturbed_call _ _, nofun⟩, .call rfl⟩
  have h2 := h1.tail ⟨.send 1, ⟨undisturbed_send rfl (by decide), nofun⟩, .send rfl rfl⟩
  have h3 := h2.tail ⟨.call 1 (.other ()), ⟨undisturbed_call _ _, nofun⟩,
    fire_barrier rfl (@code_member 2 64 1 0 (by decide) rfl 0)⟩
  have h4 := h3.tail ⟨.send 1, ⟨undisturbed_send rfl (by decide), nofun⟩, .send rfl rfl⟩
  have h5 := h4.tail ⟨.call 0 (.other ()), ⟨undisturbed_call _ _, nofun⟩,
    fire_barrier rfl (@code_root 2 64 0 rfl 0)⟩
  obtain ⟨w', hrun, hdone, -, hexact⟩ :=
    (barrier_transparent (by decide) (by decide) (by decide) h5).completes 0 (by decide)
      (Fin.forall_fin_two.mpr ⟨.inr ⟨rfl, _, rfl⟩, .inr ⟨rfl, _, rfl⟩⟩)
      (Fin.forall_fin_two.mpr ⟨Fin.forall_fin_two.mpr ⟨fun _ _ => rfl, fun _ _ => rfl⟩,
        Fin.forall_fin_two.mpr ⟨fun _ _ => rfl, fun _ _ => rfl⟩⟩)
  exact ⟨_, w', h5, rfl, hrun, hdone, hexact⟩

/-- Rank 1 sends a control packet before it enters the barrier. -/
def crossingCall : MessageCall UInt32 := .sendControl 0 ⟨9⟩ ⟨[0x7b, 0x7d], note_bounded⟩

/-- Rank 0 reads the control packet while it waits for the arrival of rank 1, and fails. -/
theorem barrier_rejects_control : ∃ w : Session (endpoints 2 64),
    Reaches (fun w e => Shallow w e ∧ ∀ i lost, e ≠ .expire i lost) (Session.initial _) w ∧
    w.history 1 = [(.message crossingCall, .ok .done)] ∧
    (∃ p, w.call 1 = some (.other (), p)) ∧
    w.history 0 = [(.other (), .error (.protocol
      "unexpected barrier frame Control, expected generation 0"))] ∧ ¬ Transparent w := by
  have h1 : Reaches (fun w e => Shallow w e ∧ ∀ i lost, e ≠ .expire i lost)
      (Session.initial (endpoints 2 64)) _ :=
    .single ⟨.call 1 (.message crossingCall), ⟨nofun, nofun⟩, .call rfl⟩
  have h2 := h1.tail ⟨.send 1, ⟨(undisturbed_send rfl (by decide)).shallow, nofun⟩,
    .send rfl rfl⟩
  have h3 := h2.tail ⟨.call 1 (.other ()), ⟨nofun, nofun⟩,
    fire_barrier rfl (@code_member 2 64 1 0 (by decide) rfl 0)⟩
  have h4 := h3.tail ⟨.send 1, ⟨(undisturbed_send rfl (by decide)).shallow, nofun⟩,
    .send rfl rfl⟩
  have h5 := h4.tail ⟨.call 0 (.other ()), ⟨nofun, nofun⟩,
    fire_barrier rfl (@code_root 2 64 0 rfl 0)⟩
  have h6 := h5.tail ⟨.recv 0, ⟨nofun, nofun⟩, .fresh rfl rfl rfl rfl⟩
  refine ⟨_, h6, rfl, ⟨_, rfl⟩, rfl, ?_⟩
  intro htransparent
  rcases htransparent.results 0 (.error (.protocol
    "unexpected barrier frame Control, expected generation 0")) (List.mem_singleton.mpr rfl) with
    heq | ⟨heq, -⟩
  · cases heq
  · have hmessage := CollectivesError.protocol.inj (Except.error.inj heq)
    revert hmessage
    decide

end TcpTransport

end Dlir.Collectives
