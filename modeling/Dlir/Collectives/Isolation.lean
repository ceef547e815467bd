import Dlir.Collectives.Endpoint
import Dlir.Collectives.Program
import Dlir.Framework.Rounds
import Dlir.Pipeline.Protocol

namespace Dlir.Collectives

open Dlir.Framework Dlir.Math

section Tags

variable {sequence phase step : Nat} {kind : CollectiveKind} {tag : MessageTag}

/-- What a tag that is given out says about its arguments. -/
theorem collectiveTag_eq_ok (h : collectiveTag sequence kind phase step = .ok tag) :
    sequence < 2 ^ 44 ∧ phase ≤ 15 ∧ step ≤ 255 ∧
      tag.value.toNat = tagNumber sequence kind phase step := by
  by_cases hguard : phase > 15 ∨ step > 255
  · rw [collectiveTag, if_pos hguard] at h
    cases h
  push Not at hguard
  by_cases hs : sequence < 2 ^ 44
  · rw [collectiveTag_ok hs hguard.1 hguard.2] at h
    obtain rfl := Except.ok.inj h
    have hk := kind.tagId_le
    have hbase := collectiveTagBase_eq
    have hlt : tagNumber sequence kind phase step < 2 ^ 64 := by
      unfold tagNumber
      omega
    exact ⟨hs, hguard.1, hguard.2, by simpa [tagOf] using hlt⟩
  · rw [collectiveTag_overflow (by omega) hguard.1 hguard.2] at h
    cases h

theorem CollectiveKind.tagId_injective : Function.Injective CollectiveKind.tagId := by
  intro kind kind' h
  cases kind <;> cases kind' <;> first | rfl | cases h

/-- The four fields of a tag do not run into each other. -/
theorem collectiveTag_injective {sequence' phase' step' : Nat} {kind' : CollectiveKind}
    (h : collectiveTag sequence kind phase step = .ok tag)
    (h' : collectiveTag sequence' kind' phase' step' = .ok tag) :
    sequence = sequence' ∧ kind = kind' ∧ phase = phase' ∧ step = step' := by
  obtain ⟨-, hp, hs, hv⟩ := collectiveTag_eq_ok h
  obtain ⟨-, hp', hs', hv'⟩ := collectiveTag_eq_ok h'
  have hk := kind.tagId_le
  have hk' := kind'.tagId_le
  have hnumber := hv.symm.trans hv'
  unfold tagNumber at hnumber
  have hkind : kind.tagId = kind'.tagId := by omega
  exact ⟨by omega, CollectiveKind.tagId_injective hkind, by omega, by omega⟩

theorem collectiveTag_range (h : collectiveTag sequence kind phase step = .ok tag) :
    4 * 2 ^ 60 ≤ tag.value.toNat ∧ tag.value.toNat < 5 * 2 ^ 60 := by
  obtain ⟨hseq, hp, hs, hv⟩ := collectiveTag_eq_ok h
  have hk := kind.tagId_le
  have hbase := collectiveTagBase_eq
  unfold tagNumber at hv
  omega

/-- Pipeline and tensor-parallel messages have tags of their own. -/
theorem collectiveTag_ne (h : collectiveTag sequence kind phase step = .ok tag) (n : Nat) :
    Pipeline.activationTag n ≠ .ok tag ∧ Pipeline.tokenTag n ≠ .ok tag ∧
      Pipeline.decisionTag n ≠ .ok tag ∧ (n < 2 ^ 60 → Pipeline.tensorDecisionTag n ≠ tag) := by
  obtain ⟨hlow, -⟩ := collectiveTag_range h
  refine ⟨?_, ?_, ?_, ?_⟩
  · intro hn
    obtain ⟨hstep, hv⟩ := Pipeline.stepTag_ok hn
    simp only [Pipeline.activationBase] at hv
    omega
  · intro hn
    obtain ⟨hstep, hv⟩ := Pipeline.stepTag_ok hn
    simp only [Pipeline.tokenBase] at hv
    omega
  · intro hn
    obtain ⟨hstep, hv⟩ := Pipeline.stepTag_ok hn
    simp only [Pipeline.decisionBase] at hv
    omega
  · rintro hn rfl
    simp only [Pipeline.tensorDecisionTag, Pipeline.decisionBase, UInt64.toNat_ofNat'] at hlow
    omega

/-- When `begin` lets a call pass, all its tags are in range. -/
theorem collectiveTag_of_begin (h : collectiveTag sequence kind 0 0 = .ok tag) (hp : phase ≤ 15)
    (hs : step ≤ 255) : ∃ tag', collectiveTag sequence kind phase step = .ok tag' :=
  ⟨_, collectiveTag_ok (sequence_lt_of_tag h) hp hs⟩

end Tags

section Code

variable {world : Nat} {α ω β γ : Type}

/-- The frame carries a tensor with a tag of this sequence number. -/
def SendsIn (sequence : Nat) (i j : Rank world) (f : WireFrame α) : Prop :=
  ∃ kind phase step tag packet, collectiveTag sequence kind phase step = .ok tag ∧
    f = .tensor i.val j.val tag packet

/-- The receive asks for a tag of this sequence number. -/
def ReceivesIn (backend : Backend) (sequence : Nat) (i j : Rank world)
    (sel : Selector (WireFrame α)) : Prop :=
  ∃ kind phase step tag, collectiveTag sequence kind phase step = .ok tag ∧
    sel = backend.selector i j (·.isTensor tag)

/-- Code whose messages all have tags of this sequence number. -/
def Endpoint.Tagged (self : Endpoint world ω) (sequence : Nat) (c : Comm world α ω β) : Prop :=
  c.run.Obeys (SendsIn sequence self.rank) (ReceivesIn self.backend sequence self.rank)
    fun _ => True

/-- A tag of this sequence number. -/
def TagOf (sequence : Nat) (tag : MessageTag) : Prop :=
  ∃ kind phase step, collectiveTag sequence kind phase step = .ok tag

namespace Endpoint

variable {self : Endpoint world ω} {sequence : Nat} {tag : MessageTag}

namespace Tagged

theorem pure (b : β) : self.Tagged sequence (pure b : Comm world α ω β) := trivial

theorem throw (e : CollectivesError) : self.Tagged sequence (throw e : Comm world α ω β) := trivial

theorem liftExcept {ε : Type} (wrap : ε → CollectivesError) (x : Except ε β) :
    self.Tagged sequence (liftExcept wrap x : Comm world α ω β) := trivial

theorem bind {c : Comm world α ω β} {f : β → Comm world α ω γ} (hc : self.Tagged sequence c)
    (hf : ∀ b, self.Tagged sequence (f b)) : self.Tagged sequence (c >>= f) := by
  unfold Tagged
  rw [ExceptT.run_bind]
  apply Proc.Obeys.bind hc
  intro r _
  cases r with
  | ok b => exact hf b
  | error e => trivial

theorem withTag {kind : CollectiveKind} {phase step : Nat} {f : MessageTag → Comm world α ω β}
    (hf : ∀ tag, TagOf sequence tag → self.Tagged sequence (f tag)) :
    self.Tagged sequence
      (Dlir.Collectives.liftExcept id (collectiveTag sequence kind phase step) >>= f) := by
  cases htag : collectiveTag sequence kind phase step with
  | error e => trivial
  | ok tag => exact hf tag ⟨kind, phase, step, htag⟩

theorem foldlM {xs : List γ} {f : β → γ → Comm world α ω β}
    (hf : ∀ b x, self.Tagged sequence (f b x)) (b : β) :
    self.Tagged sequence (xs.foldlM f b) := by
  induction xs generalizing b with
  | nil => exact Tagged.pure b
  | cons x xs ih => exact (hf b x).bind ih

end Tagged

theorem tagged_send (htag : TagOf sequence tag) (destination : Nat) (tensor : Tensor α) :
    self.Tagged sequence (self.send destination tag tensor) := by
  refine Tagged.bind (Tagged.bind (Tagged.liftExcept _ _) ?_) fun _ => Tagged.liftExcept _ _
  intro packet
  obtain ⟨kind, phase, step, htag⟩ := htag
  cases hpeer : self.rank.validatePeer destination with
  | error e =>
    simp only [Transport.send, hpeer]
    trivial
  | ok peer =>
    obtain rfl := Rank.validatePeer_val hpeer
    simp only [Transport.send, hpeer]
    exact ⟨⟨kind, phase, step, tag, packet, htag, rfl⟩, trivial⟩

theorem tagged_recv (htag : TagOf sequence tag) (source : Nat) :
    self.Tagged sequence (self.recv source tag : Comm world α ω (Tensor α × Nat)) := by
  refine Tagged.bind (Tagged.bind ?_ fun _ => Tagged.liftExcept _ _) fun _ =>
    Tagged.bind (Tagged.liftExcept _ _) fun _ => Tagged.pure _
  obtain ⟨kind, phase, step, htag⟩ := htag
  cases hpeer : self.rank.validatePeer source with
  | error e =>
    simp only [Transport.recv, hpeer]
    trivial
  | ok peer =>
    simp only [Transport.recv, hpeer]
    exact ⟨⟨kind, phase, step, tag, htag, rfl⟩, fun _ => trivial⟩

theorem outbound_ok {destination : Nat} {tensor : Tensor α} {peer : Rank world}
    {frame : WireFrame α} (h : self.outbound destination tag tensor = .ok (peer, frame)) :
    ∃ packet, frame = .tensor self.rank.val peer.val tag packet := by
  unfold outbound at h
  cases hpacket : TensorPacket.fromTensor tensor with
  | error e =>
    rw [hpacket] at h
    cases h
  | ok packet =>
    cases hpeer : self.rank.validatePeer destination with
    | error e =>
      rw [hpacket, hpeer] at h
      cases h
    | ok peer' =>
      rw [hpacket, hpeer] at h
      obtain ⟨rfl, rfl⟩ := Prod.mk.inj (Except.ok.inj h)
      exact ⟨packet, by rw [Rank.validatePeer_val hpeer]⟩

theorem tagged_exchange (htag : TagOf sequence tag) (destination source : Nat)
    (tensor : Tensor α) :
    self.Tagged sequence (self.exchange destination source tag tag tensor) := by
  refine Tagged.bind (Tagged.liftExcept _ _) fun _ => Tagged.bind ?_ fun _ =>
    Tagged.bind (Tagged.liftExcept _ _) fun _ => Tagged.pure _
  obtain ⟨kind, phase, step, htag⟩ := htag
  unfold Tagged
  cases hout : self.outbound destination tag tensor with
  | error e =>
    cases hpeer : self.rank.validatePeer source with
    | error e' => trivial
    | ok src => exact ⟨⟨kind, phase, step, tag, htag, rfl⟩, fun _ => trivial⟩
  | ok out =>
    obtain ⟨peer, frame⟩ := out
    obtain ⟨packet, rfl⟩ := outbound_ok hout
    have hsend : SendsIn sequence self.rank peer
        (.tensor self.rank.val peer.val tag packet) := ⟨kind, phase, step, tag, packet, htag, rfl⟩
    cases hpeer : self.rank.validatePeer source with
    | error e => exact ⟨hsend, trivial⟩
    | ok src => exact ⟨hsend, ⟨kind, phase, step, tag, htag, rfl⟩, fun _ => trivial⟩

theorem tagged_sendEach (htag : TagOf sequence tag)
    (shard : Nat → Except CandleError (Tensor α)) (sent destination : Nat) :
    self.Tagged sequence (self.sendEach tag shard sent destination) :=
  Tagged.bind (Tagged.liftExcept _ _) fun tensor =>
    Tagged.bind (tagged_send htag destination tensor) fun _ => Tagged.pure _

theorem tagged_accumulate [Add α] (htag : TagOf sequence tag) (kind : CollectiveKind)
    (tensor : Tensor α) (acc : Tensor α × Nat) (source : Nat) :
    self.Tagged sequence (self.accumulate kind tag tensor acc source) :=
  Tagged.bind (tagged_recv htag source) fun _ => Tagged.bind (Tagged.liftExcept _ _) fun _ =>
    Tagged.bind (Tagged.liftExcept _ _) fun _ => Tagged.pure _

section Cores

variable [Add α] (tensor : Tensor α)

theorem tagged_centralizedAllReduce :
    self.Tagged sequence (self.centralizedAllReduce tensor sequence) := by
  refine Tagged.withTag fun gatherTag hgather => Tagged.withTag fun broadcastTag hbroadcast => ?_
  split_ifs
  · refine Tagged.bind (Tagged.foldlM (fun _ _ => tagged_accumulate hgather _ _ _ _) _) ?_
    intro reduced
    refine Tagged.bind (Tagged.foldlM (fun _ _ => tagged_sendEach hbroadcast _ _ _) _) ?_
    exact fun _ => Tagged.pure _
  · refine Tagged.bind (tagged_send hgather _ _) fun _ => ?_
    refine Tagged.bind (tagged_recv hbroadcast _) fun _ => ?_
    exact Tagged.bind (Tagged.liftExcept _ _) fun _ => Tagged.pure _

theorem tagged_ringReduceStep (state : RingState α) (step : Nat) :
    self.Tagged sequence (self.ringReduceStep sequence state step) := by
  refine Tagged.withTag fun tag htag => Tagged.bind (Tagged.liftExcept _ _) fun _ => ?_
  refine Tagged.bind (tagged_exchange htag _ _ _) fun _ => ?_
  refine Tagged.bind (Tagged.liftExcept _ _) fun _ => Tagged.bind (Tagged.liftExcept _ _) fun _ => ?_
  exact Tagged.bind (Tagged.liftExcept _ _) fun _ => Tagged.pure _

omit [Add α] in
theorem tagged_ringGatherStep (state : RingState α) (step : Nat) :
    self.Tagged sequence (self.ringGatherStep sequence state step) := by
  refine Tagged.withTag fun tag htag => Tagged.bind (Tagged.liftExcept _ _) fun _ => ?_
  refine Tagged.bind (tagged_exchange htag _ _ _) fun _ => ?_
  refine Tagged.bind (Tagged.liftExcept _ _) fun _ => ?_
  exact Tagged.bind (Tagged.liftExcept _ _) fun _ => Tagged.pure _

theorem tagged_ringAllReduce : self.Tagged sequence (self.ringAllReduce tensor sequence) := by
  unfold ringAllReduce
  dsimp only
  split_ifs
  · exact Tagged.pure _
  · exact Tagged.throw _
  · refine Tagged.bind (Tagged.liftExcept _ _) fun chunks => ?_
    refine Tagged.bind (Tagged.foldlM tagged_ringReduceStep _) fun state => ?_
    refine Tagged.bind (Tagged.foldlM tagged_ringGatherStep _) fun _ => ?_
    refine Tagged.bind (Tagged.liftExcept _ _) fun _ => ?_
    exact Tagged.bind (Tagged.liftExcept _ _) fun _ => Tagged.pure _

omit [Add α] in
theorem tagged_gatherShards (axis : Nat) {d : CollectiveDescriptor} (hd : d.sequence = sequence) :
    self.Tagged sequence (self.gatherShards tensor axis d) := by
  subst hd
  refine Tagged.withTag fun gatherTag hgather => Tagged.withTag fun broadcastTag hbroadcast => ?_
  split_ifs
  · refine Tagged.bind (Tagged.foldlM ?_ _) fun shards => ?_
    · exact fun acc source => Tagged.bind (tagged_recv hgather source) fun _ =>
        Tagged.bind (Tagged.liftExcept _ _) fun _ => Tagged.pure _
    · refine Tagged.bind (Tagged.liftExcept _ _) fun gathered => ?_
      refine Tagged.bind (Tagged.foldlM (fun _ _ => tagged_sendEach hbroadcast _ _ _) _) ?_
      exact fun _ => Tagged.pure _
  · refine Tagged.bind (tagged_send hgather _ _) fun _ => ?_
    exact Tagged.bind (tagged_recv hbroadcast _) fun _ => Tagged.pure _

theorem tagged_scatterReduced (axis : Nat) {d : CollectiveDescriptor} (hd : d.sequence = sequence) :
    self.Tagged sequence (self.scatterReduced tensor axis d) := by
  subst hd
  refine Tagged.withTag fun gatherTag hgather => Tagged.withTag fun scatterTag hscatter => ?_
  split_ifs
  · refine Tagged.bind (Tagged.foldlM (fun _ _ => tagged_accumulate hgather _ _ _ _) _) ?_
    intro reduced
    refine Tagged.bind (Tagged.liftExcept _ _) fun width => ?_
    refine Tagged.bind (Tagged.liftExcept _ _) fun localShard => ?_
    refine Tagged.bind (Tagged.foldlM (fun _ _ => tagged_sendEach hscatter _ _ _) _) ?_
    exact fun _ => Tagged.pure _
  · refine Tagged.bind (tagged_send hgather _ _) fun _ => ?_
    exact Tagged.bind (tagged_recv hscatter _) fun _ => Tagged.pure _

omit [Add α] in
theorem tagged_exchangeShards (axis length : Nat) {d : CollectiveDescriptor}
    (hd : d.sequence = sequence) :
    self.Tagged sequence (self.exchangeShards tensor axis length d) := by
  subst hd
  refine Tagged.bind (Tagged.liftExcept _ _) fun shards => ?_
  refine Tagged.bind (Tagged.liftExcept _ _) fun own => ?_
  refine Tagged.bind (Tagged.foldlM ?_ _) fun _ => ?_
  · intro state step
    refine Tagged.withTag fun tag htag => Tagged.bind (Tagged.liftExcept _ _) fun _ => ?_
    refine Tagged.bind (tagged_exchange htag _ _ _) fun _ => ?_
    exact Tagged.bind (Tagged.liftExcept _ _) fun _ => Tagged.pure _
  · refine Tagged.bind (Tagged.liftExcept _ _) fun _ => ?_
    exact Tagged.bind (Tagged.liftExcept _ _) fun _ => Tagged.pure _

end Cores

end Endpoint

/-- Code of the backend whose messages all have tags of this sequence number and which leaves the
counter alone. -/
def Native.Tagged (self : Endpoint world ω) (sequence following : Nat) (c : Native world α ω β) :
    Prop :=
  ∀ s : NativeCollectives, s.nextSequence = following →
    (c.run.run s).Obeys (SendsIn sequence self.rank) (ReceivesIn self.backend sequence self.rank)
      fun a => a.2.nextSequence = following

namespace Native.Tagged

variable {self : Endpoint world ω} {sequence following : Nat}

theorem pure (b : β) : Tagged self sequence following (pure b : Native world α ω β) :=
  fun _ hs => hs

theorem throw (e : CollectivesError) :
    Tagged self sequence following (throw e : Native world α ω β) :=
  fun _ hs => hs

theorem liftExcept {ε : Type} (wrap : ε → CollectivesError) (x : Except ε β) :
    Tagged self sequence following (liftExcept wrap x : Native world α ω β) :=
  fun _ hs => hs

theorem bind {c : Native world α ω β} {f : β → Native world α ω γ}
    (hc : Tagged self sequence following c) (hf : ∀ b, Tagged self sequence following (f b)) :
    Tagged self sequence following (c >>= f) := by
  intro s hs
  rw [ExceptT.run_bind, StateT.run_bind]
  apply Proc.Obeys.bind (hc s hs)
  rintro ⟨r, s'⟩ hs'
  cases r with
  | ok b => exact hf b s' hs'
  | error e => exact hs'

theorem liftComm {x : Comm world α ω β} (hx : self.Tagged sequence x) :
    Tagged self sequence following (liftComm x : Native world α ω β) := by
  intro s hs
  rw [run_liftComm]
  exact Proc.Obeys.bind hx fun _ _ => hs

theorem finish (d : CollectiveDescriptor) (output : Option (Tensor α)) (sent received : Nat) :
    Tagged self sequence following (self.finish d output sent received : Native world α ω Unit) :=
  fun _ hs => hs

end Native.Tagged

namespace Endpoint

variable {self : Endpoint world ω}

/-- What a call may send, receive and leave behind, by the counter before and after it. -/
def Isolated (self : Endpoint world ω) (key : Nat × Nat)
    (p : Proc (Rank world) (WireFrame α) ω (Except CollectivesError β × NativeCollectives)) : Prop :=
  p.Obeys (fun j f => key.2 = key.1 + 1 ∧ SendsIn key.1 self.rank j f)
    (fun j sel => key.2 = key.1 + 1 ∧ ReceivesIn self.backend key.1 self.rank j sel)
    fun a => a.2.nextSequence = key.2

/-- A call that `begin` refuses does nothing; the messages of the others carry its number. -/
theorem isolated_of_rest (plan : Plan) (tensor : Tensor α)
    {rest : CollectiveDescriptor → Native world α ω β}
    (hrest : ∀ d : CollectiveDescriptor,
      Native.Tagged self d.sequence (d.sequence + 1) (rest d)) (s : NativeCollectives) :
    self.Isolated (s.nextSequence, (plan.accept world s.nextSequence tensor.shape).2)
      ((self.begin plan.kind plan.algorithm plan.root plan.axis tensor >>= rest).run.run s) := by
  rw [ExceptT.run_bind, StateT.run_bind, begin_run]
  rcases haccept : plan.accept world s.nextSequence tensor.shape with ⟨answer, following⟩
  cases answer with
  | error e => rfl
  | ok d =>
    obtain ⟨-, -, hfollowing, -, -, hd⟩ := Plan.accept_ok haccept
    have hsequence : d.sequence = s.nextSequence := by rw [hd]
    have hobeys := hrest d { s with nextSequence := following } (by rw [hsequence, hfollowing])
    rw [hsequence, ← hfollowing] at hobeys
    refine Proc.Obeys.mono ?_ ?_ hobeys
    · exact fun j f hf => ⟨hfollowing, hf⟩
    · exact fun j sel hsel => ⟨hfollowing, hsel⟩

theorem isolated_map {key : Nat × Nat} {c : Native world α ω β} {s : NativeCollectives} (f : β → γ)
    (h : self.Isolated key (c.run.run s)) : self.Isolated key ((f <$> c).run.run s) := by
  have hrun : (f <$> c).run.run s = (c.run.run s).bind fun a => .ret (a.1.map f, a.2) := by
    rw [ExceptT.run_map, StateT.run_map]
    rfl
  rw [hrun]
  exact Proc.Obeys.bind h fun _ ha => ha

/-- The messages of a call carry its sequence number. -/
theorem isolated_perform [Add α] (tensor : Tensor α) (call : Call) (s : NativeCollectives) :
    self.Isolated (s.nextSequence, (call.plan.accept world s.nextSequence tensor.shape).2)
      ((self.perform tensor call).run.run s) := by
  cases call with
  | broadcast root =>
    refine isolated_map some (isolated_of_rest ⟨.broadcast, .direct, some root, none⟩ tensor ?_ s)
    intro d
    refine Native.Tagged.bind (Native.Tagged.liftComm (Tagged.withTag fun tag htag => ?_)) fun _ =>
      Native.Tagged.bind (Native.Tagged.finish _ _ _ _) fun _ => Native.Tagged.pure _
    split_ifs
    · refine Tagged.bind (Tagged.foldlM ?_ _) fun _ => Tagged.pure _
      intro sent destination
      split_ifs
      · exact tagged_sendEach htag _ _ _
      · exact Tagged.pure _
    · exact Tagged.bind (tagged_recv htag _) fun _ => Tagged.pure _
  | reduce root =>
    refine isolated_of_rest ⟨.reduce, .centralized, some root, none⟩ tensor ?_ s
    intro d
    refine Native.Tagged.bind (Native.Tagged.liftComm (Tagged.withTag fun tag htag => ?_)) fun _ =>
      Native.Tagged.bind (Native.Tagged.finish _ _ _ _) fun _ => Native.Tagged.pure _
    split_ifs
    · refine Tagged.bind (Tagged.foldlM ?_ _) fun _ => Tagged.pure _
      intro acc source
      split_ifs
      · exact tagged_accumulate htag _ _ _ _
      · exact Tagged.pure _
    · exact Tagged.bind (tagged_send htag _ _) fun _ => Tagged.pure _
  | allGather axis =>
    refine isolated_map some (isolated_of_rest ⟨.allGather, .centralized, some 0, some axis⟩ tensor
      ?_ s)
    intro d
    exact Native.Tagged.bind (Native.Tagged.liftComm (tagged_gatherShards tensor axis rfl)) fun _ =>
      Native.Tagged.bind (Native.Tagged.finish _ _ _ _) fun _ => Native.Tagged.pure _
  | allReduce algorithm =>
    cases algorithm with
    | centralized =>
      refine isolated_map some (isolated_of_rest ⟨.allReduce, .centralized, some 0, none⟩ tensor ?_ s)
      intro d
      exact Native.Tagged.bind (Native.Tagged.liftComm (tagged_centralizedAllReduce tensor))
        fun _ => Native.Tagged.bind (Native.Tagged.finish _ _ _ _) fun _ => Native.Tagged.pure _
    | ring =>
      refine isolated_map some (isolated_of_rest ⟨.allReduce, .ring, none, none⟩ tensor ?_ s)
      intro d
      exact Native.Tagged.bind (Native.Tagged.liftComm (tagged_ringAllReduce tensor)) fun _ =>
        Native.Tagged.bind (Native.Tagged.finish _ _ _ _) fun _ => Native.Tagged.pure _
  | reduceScatter axis =>
    refine isolated_map some (isolated_of_rest ⟨.reduceScatter, .centralized, some 0, some axis⟩
      tensor ?_ s)
    intro d
    refine Native.Tagged.bind (Native.Tagged.liftExcept _ _) fun length => ?_
    have hrest : ∀ r : Tensor α × Nat × Nat, Native.Tagged self d.sequence (d.sequence + 1)
        (self.finish d (some r.1) r.2.1 r.2.2 >>= fun _ => pure r.1 : Native world α ω (Tensor α)) :=
      fun r => Native.Tagged.bind (Native.Tagged.finish _ _ _ _) fun _ => Native.Tagged.pure _
    have hcore : Native.Tagged self d.sequence (d.sequence + 1)
        (liftComm (self.scatterReduced tensor axis d)) :=
      Native.Tagged.liftComm (tagged_scatterReduced tensor axis rfl)
    split_ifs
    · exact Native.Tagged.bind (Native.Tagged.throw _) fun _ => hcore.bind hrest
    · exact hcore.bind hrest
  | allToAll axis =>
    refine isolated_map some (isolated_of_rest ⟨.allToAll, .pairwise, none, some axis⟩ tensor ?_ s)
    intro d
    refine Native.Tagged.bind (Native.Tagged.liftExcept _ _) fun length => ?_
    have hrest : ∀ r : Tensor α × Nat × Nat, Native.Tagged self d.sequence (d.sequence + 1)
        (self.finish d (some r.1) r.2.1 r.2.2 >>= fun _ => pure r.1 : Native world α ω (Tensor α)) :=
      fun r => Native.Tagged.bind (Native.Tagged.finish _ _ _ _) fun _ => Native.Tagged.pure _
    have hcore : Native.Tagged self d.sequence (d.sequence + 1)
        (liftComm (self.exchangeShards tensor axis length d)) :=
      Native.Tagged.liftComm (tagged_exchangeShards tensor axis length rfl)
    split_ifs
    · exact Native.Tagged.bind (Native.Tagged.throw _) fun _ => hcore.bind hrest
    · exact hcore.bind hrest

end Endpoint

end Code

section Runs

variable {world : Nat} {α ω : Type} [Add α]

namespace Group

/-- A rank makes a collective call, with whatever tensor. A round is known by the sequence counter
before and after `begin`. -/
def Enters (g : Group world ω) (i : Rank world) (s : NativeCollectives) (key : Nat × Nat)
    (p : Proc (Rank world) (WireFrame α) ω
      (Except CollectivesError (Option (Tensor α)) × NativeCollectives)) : Prop :=
  ∃ (call : Call) (tensor : Tensor α),
    key = (s.nextSequence, (call.plan.accept world s.nextSequence tensor.shape).2) ∧
    p = ((g.endpoint i).perform tensor call).run.run s

/-- The backend after a call that was given up: `begin` has moved the counter. -/
def giveUp (key : Nat × Nat) (s : NativeCollectives) : NativeCollectives :=
  { s with nextSequence := key.2 }

/-- All ranks with the calls they made. -/
abbrev Calls (g : Group world ω) (α : Type) : Type :=
  Rounds (g.backend.mailbox world α) ω
    (Except CollectivesError (Option (Tensor α)) × NativeCollectives) NativeCollectives (Nat × Nat)

/-- Ranks make calls, one after the other, each of which can fail or be given up at any point. -/
def Runs (g : Group world ω) (w : g.Calls α) : Prop :=
  Relation.ReflTransGen (Rounds.Step g.Enters Prod.snd giveUp)
    (Rounds.initial _ fun _ => NativeCollectives.new) w

end Group

omit [Add α] in
/-- `begin` moves the counter by one or not at all. -/
theorem Plan.accept_le (plan : Plan) (next : Nat) (shape : List Nat) :
    next ≤ (plan.accept world next shape).2 := by
  unfold Plan.accept
  split
  · exact le_refl _
  · split
    · exact le_refl _
    · rename_i following hfollowing
      rw [checkedAdd] at hfollowing
      split_ifs at hfollowing
      have := Option.some.inj hfollowing
      dsimp only
      omega

/-- A call starts with the counter that the one before it has left. -/
def Follows (key key' : Nat × Nat) : Prop := key.2 = key'.1 ∧ key'.1 ≤ key'.2

/-- The counters of a rank along its calls. -/
structure Counted {g : Group world ω} (w : g.Calls α) : Prop where
  traced : Rounds.Traced (g.backend.contents world α)
    (fun key i j f => key.2 = key.1 + 1 ∧ SendsIn key.1 i j f)
    (fun key i j sel => key.2 = key.1 + 1 ∧ ReceivesIn g.backend key.1 i j sel)
    (fun key a => a.2.nextSequence = key.2) w
  chain : ∀ i, (w.rounds i).IsChain Follows
  counter : ∀ i, w.code i = none → ∀ key ∈ (w.rounds i).getLast?, (w.state i).nextSequence = key.2

variable {g : Group world ω} {w w' : g.Calls α}

theorem Counted.step (h : Counted w) (hstep : Rounds.Step g.Enters Prod.snd Group.giveUp w w') :
    Counted w' := by
  have hcode : ∀ (i : Rank world) s key p, g.Enters (α := α) i s key p →
      (g.endpoint i).Isolated key p := by
    rintro i s key p ⟨call, tensor, rfl, rfl⟩
    exact Endpoint.isolated_perform tensor call s
  have htraced := h.traced.step hcode (fun key i j f hf => by
    obtain ⟨-, kind, phase, step, tag, packet, -, rfl⟩ := hf
    rfl) hstep
  refine ⟨htraced, ?_, ?_⟩
  · cases hstep with
    | @enter i key p hidle henter =>
      intro x
      by_cases hx : x = i
      · subst hx
        obtain ⟨call, tensor, rfl, -⟩ := henter
        simp only [Function.update_self]
        rw [List.isChain_append]
        refine ⟨h.chain x, List.isChain_singleton _, ?_⟩
        intro key hkey key' hkey'
        obtain rfl := Option.some.inj hkey'
        exact ⟨(h.counter x hidle key hkey).symm, Plan.accept_le _ _ _⟩
      · simpa [Function.update_of_ne hx] using h.chain x
    | leave hret => exact h.chain
    | giveUp hp hk => exact h.chain
    | emit hp => exact h.chain
    | send hp hout => exact h.chain
    | stored hp hin htake => exact h.chain
    | fresh hp hin htake hchan hfresh => exact h.chain
    | parked hp hin htake hchan hfresh => exact h.chain
  · have hgoOn : ∀ (i : Rank world) p x, (w.goOn i p).code x = none → w.code x = none := by
      intro i p x hx
      by_cases hxi : x = i
      · subst hxi
        simp [Rounds.goOn] at hx
      · simpa [Rounds.goOn, Function.update_of_ne hxi] using hx
    cases hstep with
    | @enter i key p hidle henter =>
      intro x hx key' hkey'
      by_cases hxi : x = i
      · subst hxi
        simp [Rounds.goOn] at hx
      · simp only [Function.update_of_ne hxi] at hkey'
        exact h.counter x (hgoOn i p x hx) key' hkey'
    | @leave i a hret =>
      intro x hx key hkey
      by_cases hxi : x = i
      · subst hxi
        obtain ⟨key', hlast, hends⟩ := h.traced.code x _ hret
        obtain rfl := Option.some.inj (hlast.symm.trans hkey)
        simp only [Function.update_self]
        exact hends
      · simp only [Function.update_of_ne hxi] at hx ⊢
        exact h.counter x hx key hkey
    | @giveUp i key' p hp hlast =>
      intro x hx key hkey
      by_cases hxi : x = i
      · subst hxi
        obtain rfl := Option.some.inj (hlast.symm.trans hkey)
        simp only [Function.update_self]
        rfl
      · simp only [Function.update_of_ne hxi] at hx ⊢
        exact h.counter x hx key hkey
    | emit hp => exact fun x hx => h.counter x (hgoOn _ _ x hx)
    | send hp hout => exact fun x hx => h.counter x (hgoOn _ _ x hx)
    | stored hp hin htake => exact fun x hx => h.counter x (hgoOn _ _ x hx)
    | fresh hp hin htake hchan hfresh => exact fun x hx => h.counter x (hgoOn _ _ x hx)
    | parked hp hin htake hchan hfresh => exact h.counter

theorem Counted.reached (h : g.Runs w) : Counted w := by
  induction h with
  | refl => exact ⟨.initial _, fun _ => .nil, fun _ _ _ hkey => by cases hkey⟩
  | tail _ hstep ih => exact ih.step hstep

omit [Add α] in
/-- An earlier call has left a counter that a later one does not start below. -/
theorem Counted.le_of_lt (h : Counted w) {i : Rank world} {n n' : Nat} {key key' : Nat × Nat}
    (hkey : (w.rounds i)[n]? = some key) (hkey' : (w.rounds i)[n']? = some key') (hlt : n < n') :
    key.2 ≤ key'.1 := by
  let R : Nat × Nat → Nat × Nat → Prop := fun k k' => k.2 ≤ k'.1 ∧ k'.1 ≤ k'.2
  have htrans : Trans R R R := ⟨fun {a b c} hab hbc =>
    ⟨hab.1.trans (hab.2.trans hbc.1), hbc.2⟩⟩
  have hchain : (w.rounds i).IsChain R := (h.chain i).imp fun _ _ hk => ⟨hk.1.le, hk.2⟩
  have hpair := List.isChain_iff_pairwise.mp hchain
  obtain ⟨hn, rfl⟩ := List.getElem?_eq_some_iff.mp hkey
  obtain ⟨hn', rfl⟩ := List.getElem?_eq_some_iff.mp hkey'
  exact (List.pairwise_iff_getElem.mp hpair n n' hn hn' hlt).1

omit [Add α] in
/-- A frame with a tag of one sequence number is not taken for another. -/
theorem sequence_of_match {backend : Backend} {sequence sequence' : Nat} {i j : Rank world}
    {sel : Selector (WireFrame α)} {f : WireFrame α} (hsel : ReceivesIn backend sequence i j sel)
    (hf : SendsIn sequence' j i f) (hmatch : sel.stored f = true ∨ sel.fresh f = true) :
    sequence = sequence' := by
  obtain ⟨kind, phase, step, tag, htag, rfl⟩ := hsel
  obtain ⟨kind', phase', step', tag', packet, htag', rfl⟩ := hf
  have hwant : tag' = tag := by
    cases backend <;>
      simpa [Backend.selector, Backend.misaddressed, WireFrame.source, WireFrame.destination,
        WireFrame.isTensor] using hmatch
  subst hwant
  exact (collectiveTag_injective htag htag').1

/-- What rank 0 of two broadcasts. -/
def sevenInput : Tensor Nat := ⟨[1], [7], rfl, by decide, by decide⟩

/-- Two ranks with in-memory transports. -/
def pairGroup : Group 2 CollectiveEvent := ⟨.inMemory, fun _ => id⟩

/-- The backend after one call. -/
def afterCall : NativeCollectives := ⟨1, []⟩

unseal checkedAdd checkedMul in
theorem perform_broadcast_pair : ∃ o stale p o' q u frame p' u' sel k,
    ((pairGroup.endpoint 0).perform sevenInput (.broadcast 0)).run.run NativeCollectives.new =
      .emit o (.send 1 stale p) ∧
    ((pairGroup.endpoint 1).perform sevenInput (.broadcast 0)).run.run NativeCollectives.new =
      .emit o' q ∧
    ((pairGroup.endpoint 0).perform sevenInput (.broadcast 0)).run.run afterCall =
      .emit u (.send 1 frame p') ∧
    ((pairGroup.endpoint 1).perform sevenInput (.broadcast 0)).run.run afterCall =
      .emit u' (.recv 0 sel k) ∧
    sel.stored stale = false ∧ sel.fresh stale = false ∧ sel.fresh frame = true :=
  ⟨_, _, _, _, _, _, _, _, _, _, _, rfl, rfl, rfl, rfl, rfl, rfl, rfl⟩

unseal checkedAdd checkedMul in
theorem accept_sevenInput (n : Nat) (hn : n < 2) :
    (Plan.accept ⟨.broadcast, .direct, some 0, none⟩ 2 n [1]).2 = n + 1 := by
  match n, hn with
  | 0, _ => rfl
  | 1, _ => rfl

/-- Rank 0 broadcasts, rank 1 gives up its call before it gets the tensor. In their next call the
message of the first one comes first, and rank 1 puts it aside. -/
theorem runs_broadcast_pair : ∃ (w : pairGroup.Calls Nat) (stale frame : WireFrame Nat),
    pairGroup.Runs w ∧ w.sent = [⟨0, 0, 1, stale⟩, ⟨0, 1, 1, frame⟩] ∧
    w.got = [⟨1, 1, 0, frame⟩] ∧ ∀ i, w.rounds i = [(0, 1), (1, 2)] := by
  obtain ⟨o, stale, p, o', q, u, frame, p', u', sel, k, hroot, hpeer, hroot', hpeer', hstored, hstale,
    hfresh⟩ := perform_broadcast_pair
  have hstart : pairGroup.Runs (α := Nat) (Rounds.initial _ fun _ => NativeCollectives.new) := .refl
  have hsend := ((hstart.tail (Rounds.Step.enter (i := (0 : Rank 2)) (k := (0, 1)) rfl
    ⟨.broadcast 0, sevenInput, Prod.ext rfl (accept_sevenInput 0 (by decide)).symm, hroot.symm⟩)).tail
    (.emit (i := (0 : Rank 2)) rfl)).tail (.send (i := (0 : Rank 2)) rfl rfl)
  have hgiveUp := hsend.tail (.giveUp (i := (0 : Rank 2)) rfl rfl)
  have hgiveUp' := (hgiveUp.tail (Rounds.Step.enter (i := (1 : Rank 2)) (k := (0, 1)) rfl
    ⟨.broadcast 0, sevenInput, Prod.ext rfl (accept_sevenInput 0 (by decide)).symm, hpeer.symm⟩)).tail
    (.giveUp (i := (1 : Rank 2)) rfl rfl)
  have hsend' := ((hgiveUp'.tail (Rounds.Step.enter (i := (0 : Rank 2)) (k := (1, 2)) rfl
    ⟨.broadcast 0, sevenInput, Prod.ext rfl (accept_sevenInput 1 (by decide)).symm, hroot'.symm⟩)).tail
    (.emit (i := (0 : Rank 2)) rfl)).tail (.send (i := (0 : Rank 2)) rfl rfl)
  have hwait := (hsend'.tail (Rounds.Step.enter (i := (1 : Rank 2)) (k := (1, 2)) rfl
    ⟨.broadcast 0, sevenInput, Prod.ext rfl (accept_sevenInput 1 (by decide)).symm, hpeer'.symm⟩)).tail
    (.emit (i := (1 : Rank 2)) rfl)
  have hparked := hwait.tail (.parked (i := (1 : Rank 2)) rfl rfl rfl rfl hstale)
  have hnone : takeFirst (fun f => f.source == 0 && sel.stored f) [stale] = none := by
    simp [takeFirst, hstored]
  have hgot := hparked.tail (.fresh (i := (1 : Rank 2)) rfl rfl hnone rfl hfresh)
  exact ⟨_, stale, frame, hgot, rfl, rfl, Fin.forall_fin_two.mpr ⟨rfl, rfl⟩⟩

/-- The tags of collectives are told apart in all four fields and lie apart from those of pipeline
and tensor-parallel messages, a call that `begin` lets pass has all its tags, and so no receive is
ever satisfied by a message of another call: in every run, in which calls may fail or be given up
and leave messages behind, as long as the counters of the ranks agree call by call. -/
theorem collective_tags_isolate (g : Group world ω) :
    (∀ sequence kind phase step sequence' kind' phase' step' tag,
      collectiveTag sequence kind phase step = .ok tag →
      collectiveTag sequence' kind' phase' step' = .ok tag →
      sequence = sequence' ∧ kind = kind' ∧ phase = phase' ∧ step = step') ∧
    (∀ sequence kind phase step tag, collectiveTag sequence kind phase step = .ok tag →
      (4 * 2 ^ 60 ≤ tag.value.toNat ∧ tag.value.toNat < 5 * 2 ^ 60) ∧
      ∀ n, Pipeline.activationTag n ≠ .ok tag ∧ Pipeline.tokenTag n ≠ .ok tag ∧
        Pipeline.decisionTag n ≠ .ok tag ∧ (n < 2 ^ 60 → Pipeline.tensorDecisionTag n ≠ tag)) ∧
    (∀ sequence kind tag, collectiveTag sequence kind 0 0 = .ok tag →
      ∀ phase step, phase ≤ 15 → step ≤ 255 →
        ∃ tag', collectiveTag sequence kind phase step = .ok tag') ∧
    ∀ w : g.Calls α, g.Runs w →
      (∀ (r r' : Rank world) (n : Nat) (key key' : Nat × Nat), (w.rounds r)[n]? = some key →
        (w.rounds r')[n]? = some key' → key = key') →
      ∀ e ∈ w.got, ⟨e.peer, e.round, e.owner, e.message⟩ ∈ w.sent ∧
        ∀ n, ⟨e.peer, n, e.owner, e.message⟩ ∈ w.sent → n = e.round := by
  refine ⟨fun _ _ _ _ _ _ _ _ _ h h' => collectiveTag_injective h h', fun _ _ _ _ _ h =>
    ⟨collectiveTag_range h, collectiveTag_ne h⟩, fun _ _ _ h _ _ hp hs =>
    collectiveTag_of_begin h hp hs, ?_⟩
  intro w hw hequal e he
  have hcounted := Counted.reached hw
  obtain ⟨⟨key, sel, hkey, ⟨hnext, hsel⟩, hmatch⟩, n, hsent⟩ := hcounted.traced.got e he
  -- the call in which the message was sent has the number of the one that got it
  have hsame : ∀ n, ⟨e.peer, n, e.owner, e.message⟩ ∈ w.sent → n = e.round := by
    intro n hn
    obtain ⟨key', hkey', hnext', hsends⟩ := hcounted.traced.sent _ hn
    have hsequence : key.1 = key'.1 := sequence_of_match hsel hsends hmatch
    rcases Nat.lt_trichotomy n e.round with hlt | heq | hgt
    · obtain ⟨hr, -⟩ := List.getElem?_eq_some_iff.mp hkey
      have hthere := List.getElem?_eq_getElem (hlt.trans hr)
      have hle := hcounted.le_of_lt hthere hkey hlt
      rw [hequal _ _ _ _ _ hthere hkey'] at hle
      omega
    · exact heq
    · obtain ⟨hr, -⟩ := List.getElem?_eq_some_iff.mp hkey'
      have hthere := List.getElem?_eq_getElem (hgt.trans hr)
      have hle := hcounted.le_of_lt hthere hkey' hgt
      rw [hequal _ _ _ _ _ hthere hkey] at hle
      omega
  obtain rfl := hsame n hsent
  exact ⟨hsent, hsame⟩

theorem collective_tags_isolate_pair :
    ∃ (w : pairGroup.Calls Nat) (stale frame : WireFrame Nat), pairGroup.Runs w ∧
      w.sent = [⟨0, 0, 1, stale⟩, ⟨0, 1, 1, frame⟩] ∧ w.got = [⟨1, 1, 0, frame⟩] ∧
      ∀ n, ⟨0, n, 1, frame⟩ ∈ w.sent → n = 1 := by
  obtain ⟨w, stale, frame, hrun, hsent, hgot, hrounds⟩ := runs_broadcast_pair
  have he : (⟨1, 1, 0, frame⟩ : Entry (Rank 2) (WireFrame Nat)) ∈ w.got := by simp [hgot]
  refine ⟨w, stale, frame, hrun, hsent, hgot,
    ((collective_tags_isolate pairGroup).2.2.2 w hrun ?_ _ he).2⟩
  intro r r' n key key' hkey hkey'
  rw [hrounds] at hkey hkey'
  exact Option.some.inj (hkey.symm.trans hkey')

end Runs

end Dlir.Collectives
