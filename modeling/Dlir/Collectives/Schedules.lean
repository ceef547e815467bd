import Dlir.Collectives.Program

namespace Dlir.Collectives

open Dlir.Framework Dlir.Math Relation

variable {world : Nat} {α ω : Type}

namespace Group

/-- All ranks about to run their side of a program of collectives. -/
def programWorld [Add α] (g : Group world ω) (program : Program world α) :
    World (g.backend.mailbox world α) ω (List (Endpoint.Outcome α) × NativeCollectives) :=
  g.initial fun r => (g.endpoint r).runProgram (program.onRank r) .new

variable [NeZero world]

theorem programWorld_settles [Add α] (g : Group world ω) (hcap : world ≤ 257)
    (program : Program world α) (hshape : program.Aligned)
    (hdel : ∀ p ∈ program, p.1.Deliverable p.2) :
    ∃ (last : Rank world → NativeCollectives) (log : Rank world → List ω), ∀ cap : ℕ∞,
      Settles (Step cap) (g.programWorld program)
        (g.final (fun r => (program.outcomes Call.result 0 r, last r)) log) := by
  obtain ⟨log, last, hrun⟩ := runProgram_together (g := g) hcap program hshape hdel
    fun _ => (rfl : NativeCollectives.new.nextSequence = 0)
  exact ⟨last, log, fun cap => Together.settles hrun _ cap⟩

end Group

/-- Programs of collectives are independent of the schedule: every execution ends with the
reference outcome of every call on every rank, equal counters, and nothing left in flight. -/
theorem program_schedule_independent [NeZero world] [AddCommSemigroup α] (g : Group world ω)
    (hcap : world ≤ 257) (program : Program world α) (hshape : program.Aligned)
    (hdel : ∀ p ∈ program, p.1.Deliverable p.2) :
    (∃ (last : Rank world → NativeCollectives) (log : Rank world → List ω),
      Settles (Step ⊤) (g.programWorld program)
        (g.final (fun r => (program.outcomes Call.reference 0 r, last r)) log)) ∧
    ∀ r r', (program.outcomes Call.reference 0 r).map (·.nextSequence) =
      (program.outcomes Call.reference 0 r').map (·.nextSequence) := by
  obtain ⟨last, log, hsettles⟩ := g.programWorld_settles hcap program hshape hdel
  simp only [Program.outcomes_result hshape] at hsettles
  exact ⟨⟨last, log, hsettles ⊤⟩, Program.counters_eq Call.reference program 0⟩

/-- Whatever the channels hold, a world with an unfinished rank can go on. -/
theorem program_no_deadlock [NeZero world] [Add α] (g : Group world ω) (hcap : world ≤ 257)
    (program : Program world α) (hshape : program.Aligned)
    (hdel : ∀ p ∈ program, p.1.Deliverable p.2) (cap : ℕ∞)
    {w : World (g.backend.mailbox world α) ω (List (Endpoint.Outcome α) × NativeCollectives)}
    (hreach : ReflTransGen (Step cap) (g.programWorld program) w)
    (hunfinished : ∃ r, ∀ v, w.proc r ≠ .ret v) : ∃ w', Step cap w w' := by
  obtain ⟨last, log, hsettles⟩ := g.programWorld_settles hcap program hshape hdel
  refine (hsettles cap).progress hreach ?_
  rintro rfl
  obtain ⟨r, hr⟩ := hunfinished
  exact hr _ rfl

section Overflow

/-! A gather whose result overflows is noticed by rank 0 alone, after its peers have sent. -/

variable [NeZero world] [Add α] {g : Group world ω} {x : Rank world → Tensor α} {shape : List Nat}
  {axis : Nat} {d : CollectiveDescriptor} {following : Nat} {gathered : Tensor α}
  {e : CollectivesError}

omit [NeZero world] [Add α] in
theorem fromTensor_error {t : Tensor α} (h : elementCount t.shape = .error e) :
    TensorPacket.fromTensor t = .error e := by
  unfold TensorPacket.fromTensor TensorPacket.new
  split
  · rename_i e' he
    exact congrArg _ (Except.error.inj (he.symm.trans h))
  · rename_i n hn
    cases hn.symm.trans h

omit [NeZero world] [Add α] in
theorem send_error (self : Endpoint world ω) (peer : Nat) (tag : MessageTag) {t : Tensor α}
    (h : elementCount t.shape = .error e) : PlaysError [] (self.send peer tag t) [] e := by
  simp only [Endpoint.send, Communicator.sendTensor, fromTensor_error h]
  exact .done _

omit [NeZero world] [Add α] in
/-- The first send of an oversized tensor ends the loop. -/
theorem sendLoop_error (self : Endpoint world ω) (tag : MessageTag) (hworld : 1 < world)
    (h : elementCount gathered.shape = .error e) :
    PlaysError [] ((List.range' 1 (world - 1)).foldlM (self.sendEach tag fun _ => .ok gathered) 0 :
      Comm world α ω Nat) [] e := by
  obtain ⟨n, hn⟩ : ∃ n, world - 1 = n + 1 := ⟨world - 2, by omega⟩
  rw [hn, List.range'_succ, List.foldlM_cons]
  exact ((send_error self 1 tag h).bind _).bind _

omit [NeZero world] in
/-- A program that consists of one accepted gather. -/
theorem runProgram_allGather (r : Rank world)
    (h : Plan.accept ⟨.allGather, .centralized, some 0, some axis⟩ world 0 (x r).shape =
      (.ok d, following)) :
    ∃ k : Except CollectivesError (Tensor α × Nat × Nat) →
        Proc (Rank world) (WireFrame α) ω (List (Endpoint.Outcome α) × NativeCollectives),
      (g.endpoint r).runProgram [(.allGather axis, x r)] .new =
        .emit (g.observer r (.started d))
          (((g.endpoint r).gatherShards (x r) axis d).run.bind k) ∧
      ∀ e, k (.error e) = .ret ([⟨.error e, following⟩], ⟨following, []⟩) := by
  have hbegin := Endpoint.begin_run (g.endpoint r) (x r) .new
    ⟨.allGather, .centralized, some 0, some axis⟩
  rw [show NativeCollectives.new.nextSequence = 0 from rfl, h] at hbegin
  simp only [Endpoint.runProgram, Endpoint.perform, Endpoint.allGather, map_eq_pure_bind,
    TogetherSt.run_bind, hbegin, Proc.emit_bind, Proc.ret_bind, Native.run_liftComm,
    Proc.bind_assoc]
  exact ⟨_, rfl, fun e => rfl⟩

section Stuck

variable (hx : ∀ r, (x r).shape = shape) (hworld : 1 < world)
  (h : Plan.accept ⟨.allGather, .centralized, some 0, some axis⟩ world 0 shape =
    (.ok d, following))

include hx h

omit [Add α] in
theorem gatherShards_root (hworld : 1 < world)
    (hcat : Tensor.cat ((List.finRange world).map x) axis = .ok gathered)
    (hover : elementCount gathered.shape = .error e) :
    PlaysError ((others (0 : Rank world)).map fun s =>
        .get s (tensorFrame s 0 (tagOf d.sequence d.kind 1 0) (x s)))
      ((g.endpoint 0).gatherShards (x 0) axis d) [] e := by
  obtain ⟨hcount, hseq, -, -, -, hd⟩ := Plan.accept_ok h
  have hs : ∀ r, (x r).Sendable := fun r =>
    (Tensor.sendable_iff _).mpr (by rw [hx r]; exact hcount)
  have hlt : d.sequence < 2 ^ 44 := by rw [hd]; exact hseq
  have htag : ∀ phase, phase ≤ 15 → collectiveTag d.sequence d.kind phase 0 =
      .ok (tagOf d.sequence d.kind phase 0) := fun phase hp =>
    collectiveTag_ok hlt hp (by omega)
  refine (playsOk_liftExcept (htag 1 (by omega))).andError ?_
  refine (playsOk_liftExcept (htag 2 (by omega))).andError ?_
  simp only [Group.endpoint_rank, Rank.globalRank_eq_zero, if_true]
  rw [foldlM_peers]
  refine (Group.collectLoop_plays hx axis hs).lastError ?_
  refine (playsOk_liftExcept hcat).andError ?_
  exact (sendLoop_error (g.endpoint 0) _ hworld hover).bind _

omit [Add α] in
/-- A peer has sent its shard and waits for the result. -/
theorem gatherShards_peer {i : Rank world} (hi : i ≠ 0) :
    ∃ sel k, Plays [.put 0 (tensorFrame i 0 (tagOf d.sequence d.kind 1 0) (x i))]
      ((g.endpoint i).gatherShards (x i) axis d).run [] (.recv 0 sel k) := by
  obtain ⟨hcount, hseq, -, -, -, hd⟩ := Plan.accept_ok h
  have hs : (x i).Sendable := (Tensor.sendable_iff _).mpr (by rw [hx i]; exact hcount)
  have hlt : d.sequence < 2 ^ 44 := by rw [hd]; exact hseq
  have hpeer : (g.endpoint i).rank.validatePeer 0 = .ok 0 :=
    Endpoint.validatePeer_peer (g.endpoint i) (Ne.symm hi)
  have hwait : ∀ f : Nat → Tensor α × Nat → Comm world α ω (Tensor α × Nat × Nat), ∃ sel k,
      Plays [.put 0 (tensorFrame i 0 (tagOf d.sequence d.kind 1 0) (x i))]
        ((g.endpoint i).send 0 (tagOf d.sequence d.kind 1 0) (x i) >>= fun sent =>
          (g.endpoint i).recv 0 (tagOf d.sequence d.kind 2 0) >>= f sent).run []
        (.recv 0 sel k) := by
    intro f
    have hrecv : ∃ sel k,
        ((g.endpoint i).recv 0 (tagOf d.sequence d.kind 2 0) >>= f (x i).bytes).run =
          .recv 0 sel k := by
      simp only [Endpoint.recv, Communicator.recvTensor, Transport.recv, hpeer]
      exact ⟨_, _, rfl⟩
    obtain ⟨sel, k, hk⟩ := hrecv
    refine ⟨sel, k, ?_⟩
    rw [← hk]
    exact Plays.bind (Endpoint.send_plays (g.endpoint i) (Ne.symm hi) hs) _
  simp only [Endpoint.gatherShards, collectiveTag_ok hlt (by omega : 1 ≤ 15) (by omega : 0 ≤ 255),
    collectiveTag_ok hlt (by omega : 2 ≤ 15) (by omega : 0 ≤ 255), Group.endpoint_rank,
    Rank.globalRank_eq_zero, if_neg hi]
  exact hwait fun sent p => pure (p.1, sent, p.2)

/-- If the result of a gather overflows, rank 0 fails and its peers wait for ever. -/
theorem allGather_overflow_stuck (hworld : 1 < world)
    (hcat : Tensor.cat ((List.finRange world).map x) axis = .ok gathered)
    (hover : elementCount gathered.shape = .error e) (cap : ℕ∞) :
    ∃ w, ReflTransGen (Step cap) (g.programWorld [(.allGather axis, x)]) w ∧
      Terminal (Step cap) w ∧
      w.proc 0 = .ret ([⟨.error e, following⟩], ⟨following, []⟩) ∧
      ∀ r, r ≠ 0 → ∀ v, w.proc r ≠ .ret v := by
  have hk : ∀ r, ∃ q, Plays (project r (gatherTrace 0 (others (0 : Rank world)) fun s =>
        tensorFrame s 0 (tagOf d.sequence d.kind 1 0) (x s)))
      ((g.endpoint r).runProgram [(.allGather axis, x r)] .new) [g.observer r (.started d)] q ∧
      ((r = 0 ∧ q = .ret ([⟨.error e, following⟩], ⟨following, []⟩)) ∨
        (r ≠ 0 ∧ ∃ sel k, q = .recv 0 sel k)) := by
    intro r
    obtain ⟨k, hrun, herr⟩ := runProgram_allGather (g := g) r (by rw [hx r]; exact h)
    rw [hrun]
    by_cases hr : r = 0
    · subst hr
      refine ⟨_, ?_, .inl ⟨rfl, herr e⟩⟩
      rw [project_gather_root _ (by simp)]
      exact .emit (Plays.bind (gatherShards_root hx h hworld hcat hover) k)
    · obtain ⟨sel, k', hplay⟩ := gatherShards_peer (g := g) hx h hr
      refine ⟨.recv 0 sel fun m => (k' m).bind k, ?_, .inr ⟨hr, sel, _, rfl⟩⟩
      rw [project_gather_peer _ (nodup_others 0) (mem_others.mpr hr) hr]
      exact .emit (hplay.bind k)
  choose q hplay hq using hk
  have hne : ∀ y ∈ gatherTrace 0 (others (0 : Rank world)) fun s =>
      tensorFrame s 0 (tagOf d.sequence d.kind 1 0) (x s), y.1 ≠ y.2.1 := by
    intro y hy
    obtain ⟨s, hs, rfl⟩ := List.mem_map.mp hy
    exact mem_others.mp hs
  have hmeets := meets_choreography (s := ⟨fun r =>
    (g.endpoint r).runProgram [(.allGather axis, x r)] .new, fun _ => []⟩) _ q _ hne hplay
  refine ⟨_, hmeets.steps (g.backend.mailbox world α) cap, ?_, ?_, ?_⟩
  · refine Snapshot.terminal fun r => ?_
    rcases hq r with ⟨-, hret⟩ | ⟨-, sel, k, hwait⟩
    · exact .inl ⟨_, hret⟩
    · exact .inr ⟨0, sel, k, hwait⟩
  · rcases hq 0 with ⟨-, hret⟩ | ⟨hne0, -⟩
    · exact hret
    · exact absurd rfl hne0
  · intro r hr v hv
    rcases hq r with ⟨h0, -⟩ | ⟨-, sel, k, hwait⟩
    · exact hr h0
    · cases hwait.symm.trans hv

end Stuck

end Overflow

/-- Two ranks, each with a tensor of shape `[8, 2^60, 0]`. -/
def emptyShard (_ : Rank 2) : Tensor Nat :=
  ⟨[8, 2 ^ 60, 0], [], by simp, by simp, by simp⟩

theorem accept_emptyShard :
    Plan.accept ⟨.allGather, .centralized, some 0, some 0⟩ 2 0 [8, 2 ^ 60, 0] =
      (.ok ⟨0, .allGather, .centralized, some 0, some 0, [8, 2 ^ 60, 0], 0⟩, 1) := by
  decide +kernel

theorem cat_emptyShard : ∃ gathered,
    Tensor.cat ((List.finRange 2).map emptyShard) 0 = .ok gathered ∧
      elementCount gathered.shape = .error (.shapeOverflow [16, 2 ^ 60, 0]) := by
  obtain ⟨gathered, hcat, hshape, -⟩ := Tensor.cat_ok (l := (List.finRange 2).map emptyShard)
    (d := 8) 0 (by simp) (fun u hu => by obtain ⟨r, -, rfl⟩ := List.mem_map.mp hu; rfl) rfl
    (by simp) (by simp [Tensor.outer, Tensor.inner])
  have hover : elementCount [16, 2 ^ 60, 0] = .error (.shapeOverflow [16, 2 ^ 60, 0]) := by
    decide +kernel
  refine ⟨gathered, hcat, ?_⟩
  rw [hshape]
  exact hover

/-- The condition on gathers cannot be dropped: here one call fails on rank 0 only, and rank 1
is left waiting in a state without successor. -/
theorem program_outcome_lost : ∃ w, ReflTransGen (Step ⊤)
      ((⟨.inMemory, fun _ => id⟩ : Group 2 CollectiveEvent).programWorld
        [(.allGather 0, emptyShard)]) w ∧
    Terminal (Step ⊤) w ∧
    w.proc 0 = .ret ([⟨.error (.shapeOverflow [16, 2 ^ 60, 0]), 1⟩], ⟨1, []⟩) ∧
    ∀ v, w.proc 1 ≠ .ret v := by
  obtain ⟨gathered, hcat, hover⟩ := cat_emptyShard
  obtain ⟨w, hreach, hterm, h0, h1⟩ := allGather_overflow_stuck
    (g := (⟨.inMemory, fun _ => id⟩ : Group 2 CollectiveEvent)) (x := emptyShard) (fun _ => rfl)
    accept_emptyShard (by decide) hcat hover ⊤
  exact ⟨w, hreach, hterm, h0, h1 1 (by decide)⟩

/-- For the same reason a world with an unfinished rank may have no step. -/
theorem program_deadlock_example : ∃ w, ReflTransGen (Step 0)
      ((⟨.tcp, fun _ => id⟩ : Group 2 CollectiveEvent).programWorld
        [(.allGather 0, emptyShard)]) w ∧
    (∃ r, ∀ v, w.proc r ≠ .ret v) ∧ ¬ ∃ w', Step 0 w w' := by
  obtain ⟨gathered, hcat, hover⟩ := cat_emptyShard
  obtain ⟨w, hreach, hterm, -, h1⟩ := allGather_overflow_stuck
    (g := (⟨.tcp, fun _ => id⟩ : Group 2 CollectiveEvent)) (x := emptyShard) (fun _ => rfl)
    accept_emptyShard (by decide) hcat hover 0
  exact ⟨w, hreach, ⟨1, h1 1 (by decide)⟩, fun ⟨w', hw⟩ => hterm w' hw⟩

/-- Two ranks with two numbers each. -/
def pairShard (r : Rank 2) : Tensor Nat := ⟨[2], [r.val, r.val + 1], rfl, by simp, by simp⟩

theorem deliverable_pairShard : (Call.allGather 0).Deliverable pairShard := by
  intro _ _
  obtain ⟨gathered, hcat, hshape, -⟩ := Tensor.cat_ok (l := (List.finRange 2).map pairShard)
    (d := 2) 0 (by simp) (fun u hu => by obtain ⟨r, -, rfl⟩ := List.mem_map.mp hu; rfl) rfl
    (by simp) (by simp [Tensor.outer, Tensor.inner])
  exact ⟨gathered, hcat, Tensor.sendable_vector hshape⟩

theorem program_schedule_independent_pair :
    (∃ (last : Rank 2 → NativeCollectives) (log : Rank 2 → List CollectiveEvent),
      Settles (Step ⊤)
        ((⟨.inMemory, fun _ => id⟩ : Group 2 CollectiveEvent).programWorld
          [(.allReduce .ring, pairShard), (.broadcast 7, pairShard), (.allGather 0, pairShard)])
        ((⟨.inMemory, fun _ => id⟩ : Group 2 CollectiveEvent).final (fun r =>
          (Program.outcomes Call.reference [(.allReduce .ring, pairShard),
            (.broadcast 7, pairShard), (.allGather 0, pairShard)] 0 r, last r)) log)) ∧
    ∀ r r' : Rank 2, (Program.outcomes Call.reference [(.allReduce .ring, pairShard),
        (.broadcast 7, pairShard), (.allGather 0, pairShard)] 0 r).map (·.nextSequence) =
      (Program.outcomes Call.reference [(.allReduce .ring, pairShard),
        (.broadcast 7, pairShard), (.allGather 0, pairShard)] 0 r').map (·.nextSequence) := by
  refine program_schedule_independent (⟨.inMemory, fun _ => id⟩ : Group 2 CollectiveEvent)
    (by decide) _ (fun p hp r r' => ?_) fun p hp => ?_
  · simp only [List.mem_cons, List.not_mem_nil, or_false] at hp
    rcases hp with rfl | rfl | rfl <;> rfl
  · simp only [List.mem_cons, List.not_mem_nil, or_false] at hp
    rcases hp with rfl | rfl | rfl
    · trivial
    · trivial
    · exact deliverable_pairShard

theorem accept_pairShard : Plan.accept ⟨.allGather, .centralized, some 0, some 0⟩ 2 0 [2] =
    (.ok ⟨0, .allGather, .centralized, some 0, some 0, [2], 8⟩, 1) := by
  decide +kernel

theorem program_no_deadlock_pair : ∃ w', Step 0
    ((⟨.tcp, fun _ => id⟩ : Group 2 CollectiveEvent).programWorld [(.allGather 0, pairShard)]) w' := by
  refine program_no_deadlock (⟨.tcp, fun _ => id⟩ : Group 2 CollectiveEvent) (by decide)
    [(.allGather 0, pairShard)] (fun p hp r r' => ?_) (fun p hp => ?_) 0 .refl ⟨0, fun v hv => ?_⟩
  · obtain rfl := List.mem_singleton.mp hp
    rfl
  · obtain rfl := List.mem_singleton.mp hp
    exact deliverable_pairShard
  · obtain ⟨k, hrun, -⟩ := runProgram_allGather
      (g := (⟨.tcp, fun _ => id⟩ : Group 2 CollectiveEvent)) (x := pairShard) 0 accept_pairShard
    cases hrun.symm.trans hv

end Dlir.Collectives
