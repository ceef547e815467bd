import Dlir.Collectives.Operations
import Dlir.Collectives.TcpBarrier
import Dlir.Framework.Reports

namespace Dlir.Collectives

open Dlir.Framework Dlir.Math

variable {world : Nat} {α β ω : Type}

theorem liftExcept_silent {ε : Type} {wrap : ε → CollectivesError} {x : Except ε β}
    {P : β → Prop} (h : ∀ b, x = .ok b → P b) :
    Silent (liftExcept wrap x : Comm world α ω β) P := by
  refine Silent.settled fun b hb => h b ?_
  cases x with
  | ok b' => exact congrArg _ (Except.ok.inj hb)
  | error e => cases hb

/-- Nothing is known about the result. -/
theorem settled_silent {ε : Type} {wrap : ε → CollectivesError} (x : Except ε β) :
    Silent (liftExcept wrap x : Comm world α ω β) fun _ => True :=
  liftExcept_silent fun _ _ => trivial

theorem shape_of_requireSameShape {expected actual : Tensor α} {kind : CollectiveKind} {u : Unit}
    (h : requireSameShape expected actual kind = .ok u) : actual.shape = expected.shape := by
  unfold requireSameShape at h
  split_ifs at h with hshape
  exact (not_not.mp hshape).symm

theorem add_shape [Add α] {a b t : Tensor α} (h : a.add b = .ok t) : t.shape = a.shape := by
  unfold Tensor.add at h
  split_ifs at h
  exact (Tensor.fromVec_parts h).1

theorem reshape_shape {t u : Tensor α} {shape : List Nat} (h : t.reshape shape = .ok u) :
    u.shape = shape := by
  unfold Tensor.reshape at h
  split_ifs at h
  exact (Tensor.fromVec_parts h).1

namespace Endpoint

variable (self : Endpoint world ω)

theorem send_silent (destination : Nat) (tag : MessageTag) (t : Tensor α) :
    Silent (self.send destination tag t) fun _ => True := by
  unfold send Communicator.sendTensor Transport.send
  refine Silent.bind (P := fun _ => True) ?_ fun _ _ => settled_silent _
  refine (settled_silent _).bind fun _ _ => ?_
  refine (settled_silent _).bind fun _ _ => ?_
  exact ⟨rfl, fun _ _ => trivial⟩

theorem recv_silent (source : Nat) (tag : MessageTag) :
    Silent (self.recv source tag : Comm world α ω _) fun _ => True := by
  unfold recv Communicator.recvTensor Transport.recv
  refine Silent.bind (P := fun _ => True) ?_ fun _ _ => ?_
  · refine Silent.bind (P := fun _ => True) ?_ fun _ _ => settled_silent _
    refine (settled_silent _).bind fun _ _ => ?_
    exact fun f => ⟨rfl, fun _ _ => trivial⟩
  · exact (settled_silent _).bind fun _ _ => Silent.pure trivial

theorem exchange_silent (destination source : Nat) (sendTag recvTag : MessageTag) (t : Tensor α) :
    Silent (self.exchange destination source sendTag recvTag t) fun _ => True := by
  unfold exchange
  refine (settled_silent _).bind fun _ _ => ?_
  refine Silent.bind (P := fun _ => True) ?_ fun _ _ => ?_
  · split
    · exact fun f => ⟨rfl, fun _ _ => trivial⟩
    · exact ⟨rfl, fun _ _ => trivial⟩
    · exact fun f => ⟨rfl, fun _ _ => trivial⟩
    · exact ⟨rfl, fun _ _ => trivial⟩
  · exact (settled_silent _).bind fun _ _ => Silent.pure trivial

theorem sendEach_silent (tag : MessageTag) (shard : Nat → Except CandleError (Tensor α))
    (sent destination : Nat) : Silent (self.sendEach tag shard sent destination) fun _ => True := by
  unfold sendEach
  refine (settled_silent _).bind fun t _ => ?_
  exact (self.send_silent destination tag t).bind fun _ _ => Silent.pure trivial

section Sum

variable [Add α]

theorem accumulate_silent (kind : CollectiveKind) (tag : MessageTag) (t : Tensor α)
    {acc : Tensor α × Nat} (hacc : acc.1.shape = t.shape) (source : Nat) :
    Silent (self.accumulate kind tag t acc source) fun acc' => acc'.1.shape = t.shape := by
  unfold accumulate
  refine (self.recv_silent source tag).bind fun incoming _ => ?_
  refine (settled_silent _).bind fun _ _ => ?_
  refine (liftExcept_silent fun b hb => add_shape hb).bind fun reduced hreduced => ?_
  exact Silent.pure (hreduced.trans hacc)

theorem centralizedAllReduce_silent (t : Tensor α) (sequence : Nat) :
    Silent (self.centralizedAllReduce t sequence) fun r => r.1.shape = t.shape := by
  unfold centralizedAllReduce
  refine (settled_silent _).bind fun gatherTag _ => ?_
  refine (settled_silent _).bind fun broadcastTag _ => ?_
  split_ifs
  · refine (Silent.foldlM (P := fun acc => acc.1.shape = t.shape)
      (fun acc source hacc => self.accumulate_silent .allReduce gatherTag t hacc source) _
      rfl).bind fun acc hacc => ?_
    refine (Silent.foldlM (P := fun _ => True)
      (fun sent destination _ => self.sendEach_silent broadcastTag _ sent destination) _
      trivial).bind fun sent _ => ?_
    exact Silent.pure hacc
  · refine (self.send_silent 0 gatherTag t).bind fun sent _ => ?_
    refine (self.recv_silent 0 broadcastTag).bind fun r _ => ?_
    refine (liftExcept_silent fun _ h => shape_of_requireSameShape h).bind fun _ hshape => ?_
    exact Silent.pure hshape

theorem ringReduceStep_silent (sequence : Nat) (state : RingState α) (step : Nat) :
    Silent (self.ringReduceStep sequence state step) fun _ => True := by
  unfold ringReduceStep
  refine (settled_silent _).bind fun tag _ => ?_
  refine (settled_silent _).bind fun outgoing _ => ?_
  refine (self.exchange_silent _ _ _ _ _).bind fun r _ => ?_
  refine (settled_silent _).bind fun own _ => ?_
  refine (settled_silent _).bind fun _ _ => ?_
  exact (settled_silent _).bind fun _ _ => Silent.pure trivial

omit [Add α] in
theorem ringGatherStep_silent (sequence : Nat) (state : RingState α) (step : Nat) :
    Silent (self.ringGatherStep sequence state step) fun _ => True := by
  unfold ringGatherStep
  refine (settled_silent _).bind fun tag _ => ?_
  refine (settled_silent _).bind fun outgoing _ => ?_
  refine (self.exchange_silent _ _ _ _ _).bind fun r _ => ?_
  refine (settled_silent _).bind fun own _ => ?_
  exact (settled_silent _).bind fun _ _ => Silent.pure trivial

theorem ringAllReduce_silent (t : Tensor α) (sequence : Nat) :
    Silent (self.ringAllReduce t sequence) fun r => r.1.shape = t.shape := by
  unfold ringAllReduce
  by_cases hworld : world = 1
  · rw [if_pos hworld]
    exact Silent.pure rfl
  · rw [if_neg hworld]
    dsimp only
    split_ifs
    · exact Silent.throw _
    · refine (settled_silent _).bind fun chunks _ => ?_
      refine (Silent.foldlM (P := fun _ => True)
        (fun state step _ => self.ringReduceStep_silent sequence state step) _ trivial).bind
        fun state _ => ?_
      refine (Silent.foldlM (P := fun _ => True)
        (fun state step _ => self.ringGatherStep_silent sequence state step) _ trivial).bind
        fun state _ => ?_
      refine (settled_silent _).bind fun flat _ => ?_
      exact (liftExcept_silent fun _ h => reshape_shape h).bind fun _ hshape => Silent.pure hshape

end Sum

theorem gatherShards_silent (t : Tensor α) (axis : Nat) (descriptor : CollectiveDescriptor) :
    Silent (self.gatherShards t axis descriptor) fun _ => True := by
  unfold gatherShards
  refine (settled_silent _).bind fun gatherTag _ => ?_
  refine (settled_silent _).bind fun broadcastTag _ => ?_
  split_ifs
  · refine (Silent.foldlM (P := fun _ => True) (fun acc source _ => ?_) _ trivial).bind
      fun acc _ => ?_
    · unfold collectShard
      refine (self.recv_silent source gatherTag).bind fun incoming _ => ?_
      exact (settled_silent _).bind fun _ _ => Silent.pure trivial
    refine (settled_silent _).bind fun gathered _ => ?_
    refine (Silent.foldlM (P := fun _ => True)
      (fun sent destination _ => self.sendEach_silent broadcastTag _ sent destination) _
      trivial).bind fun sent _ => ?_
    exact Silent.pure trivial
  · refine (self.send_silent 0 gatherTag t).bind fun sent _ => ?_
    exact (self.recv_silent 0 broadcastTag).bind fun _ _ => Silent.pure trivial

end Endpoint

section Control

theorem sendControl_silent (rank : Rank world) (destination : Nat) (tag : MessageTag)
    (packet : ControlPacket) :
    Silent (Transport.sendControl rank destination tag packet : Comm world α ω _) fun _ => True := by
  unfold Transport.sendControl
  refine (settled_silent _).bind fun _ _ => ?_
  exact ⟨rfl, fun _ _ => trivial⟩

theorem recvControl_silent (backend : Backend) (rank : Rank world) (source : Nat)
    (tag : MessageTag) :
    Silent (Transport.recvControl backend rank source tag : Comm world α ω _) fun _ => True := by
  unfold Transport.recvControl
  refine (settled_silent _).bind fun _ _ => ?_
  exact fun f => ⟨rfl, fun _ _ => trivial⟩

namespace TcpTransport

theorem sendFrame_silent (rank : Rank world) (destination : Nat) (frame : WireFrame α) :
    Silent (sendFrame rank destination frame : Comm world α ω _) fun _ => True := by
  unfold sendFrame
  refine (settled_silent _).bind fun _ _ => ?_
  exact ⟨rfl, fun _ _ => trivial⟩

theorem recvBarrier_silent (rank : Rank world) (source : Nat) (expectedArrive : Bool)
    (generation : Nat) :
    Silent (recvBarrier rank source expectedArrive generation : Comm world α ω _)
      fun _ => True := by
  unfold recvBarrier
  refine (settled_silent _).bind fun _ _ => ?_
  exact fun f => ⟨rfl, fun _ _ => trivial⟩

theorem barrier_silent (rank : Rank world) (generation : Nat) :
    Silent (barrier rank generation : Comm world α ω _) fun _ => True := by
  unfold barrier
  split_ifs
  · refine (Silent.forM (fun source => recvBarrier_silent rank source true generation) _).bind
      fun _ _ => ?_
    refine (Silent.forM (fun destination => sendFrame_silent rank destination _) _).bind
      fun _ _ => ?_
    cases checkedAdd generation 1 with
    | some next => exact Silent.pure trivial
    | none => exact Silent.throw _
  · refine (sendFrame_silent rank 0 _).bind fun _ _ => ?_
    refine (recvBarrier_silent rank 0 false generation).bind fun _ _ => ?_
    cases checkedAdd generation 1 with
    | some next => exact Silent.pure trivial
    | none => exact Silent.throw _

end TcpTransport

end Control

section Shapes

theorem liftComm_always {x : Comm world α ω β} {P : β → Prop} (h : Silent x P) :
    Always P (liftComm x : Native world α ω β) := by
  refine Always.of_exceptT (Always.of_stateT fun s => ?_)
  refine Always.map (P := fun r => ∀ b, r = .ok b → P b) ?_ fun r hr => hr
  exact Proc.Reports.always (h.imp fun os r hr => hr.2)

/-- Where an all-reduce succeeds, the result has the shape of the input, whatever the others send. -/
theorem Endpoint.allReduce_always [Add α] (self : Endpoint world ω) (t : Tensor α)
    (algorithm : AllReduceAlgorithm) :
    Always (fun t' => t'.shape = t.shape) (self.allReduce t algorithm) := by
  unfold allReduce
  refine (Always.trivial _).bind fun descriptor _ => ?_
  have hrest : ∀ r : Tensor α × Nat × Nat, r.1.shape = t.shape →
      Always (fun t' => t'.shape = t.shape) (do
        self.finish descriptor (some r.1) r.2.1 r.2.2
        pure r.1 : Native world α ω _) :=
    fun r hr => (Always.trivial _).bind fun _ _ => Always.pure hr
  cases algorithm with
  | centralized => exact (liftComm_always (self.centralizedAllReduce_silent t _)).bind hrest
  | ring => exact (liftComm_always (self.ringAllReduce_silent t _)).bind hrest

end Shapes

section Tallied

/-- A count over the traces grows by what is counted over the observations. -/
def Tallied (f : ω → Nat) (g : CollectiveTrace → Nat) (s : NativeCollectives) (os : List ω)
    (s' : NativeCollectives) : Prop :=
  (s'.traces.map g).sum = (s.traces.map g).sum + (os.map f).sum

theorem tallied_composable (f : ω → Nat) (g : CollectiveTrace → Nat) :
    Composable (Tallied f g) where
  refl s := rfl
  trans := by
    intro s s' s'' os os' h h'
    unfold Tallied at *
    rw [h', h, List.map_append, List.sum_append, Nat.add_assoc]

/-- An observer that shows the count of every trace. -/
structure Shows (observer : CollectiveEvent → ω) (f : ω → Nat) (g : CollectiveTrace → Nat) :
    Prop where
  started : ∀ descriptor, f (observer (.started descriptor)) = 0
  completed : ∀ trace, f (observer (.completed trace)) = g trace

namespace Endpoint

variable (self : Endpoint world ω) {f : ω → Nat} {g : CollectiveTrace → Nat}
  (hshows : Shows self.observer f g)

theorem settled_keeps {ε : Type} {wrap : ε → CollectivesError} (x : Except ε β) :
    Keeps (Tallied f g) (liftExcept wrap x : Native world α ω β).run :=
  Keeps.pure (tallied_composable f g) _

include hshows

theorem begin_keeps (kind : CollectiveKind) (algorithm : CollectiveAlgorithm)
    (root axis : Option Nat) (t : Tensor α) :
    Keeps (Tallied f g) (self.begin kind algorithm root axis t).run := by
  have hrel := tallied_composable f g
  unfold begin
  refine (settled_keeps _).bindExcept hrel fun _ => ?_
  refine Keeps.bindExcept hrel (fun s => hrel.refl s) fun state => ?_
  dsimp only
  split
  · refine Keeps.bindExcept hrel (fun s => rfl) fun _ => ?_
    refine (settled_keeps _).bindExcept hrel fun _ => ?_
    have hend : Keeps (Tallied f g) (do
        let inputBytes ← liftExcept id (tensorBytes t)
        let descriptor : CollectiveDescriptor :=
          ⟨state.nextSequence, kind, algorithm, root, axis, t.shape, inputBytes⟩
        observe (self.observer (.started descriptor))
        pure descriptor : Native world α ω _).run := by
      refine (settled_keeps _).bindExcept hrel fun _ => ?_
      refine Keeps.bindExcept hrel (fun s => ?_) fun _ => Keeps.pure hrel _
      show Tallied f g s [_] s
      simp [Tallied, hshows.started]
    cases root <;> cases axis
    · exact hend
    · exact (settled_keeps _).bindExcept hrel fun _ => hend
    · exact (settled_keeps _).bindExcept hrel fun _ => hend
    · refine (settled_keeps _).bindExcept hrel fun _ => ?_
      exact (settled_keeps _).bindExcept hrel fun _ => hend
  · exact Keeps.pure hrel _

theorem finish_keeps (descriptor : CollectiveDescriptor) (output : Option (Tensor α))
    (sentBytes receivedBytes : Nat) :
    Keeps (Tallied f g) (self.finish descriptor output sentBytes receivedBytes).run := by
  intro s
  show Tallied f g s [self.observer (.completed
    ⟨descriptor, output.map Tensor.shape, sentBytes, receivedBytes⟩)] ⟨s.nextSequence, s.traces ++
      [⟨descriptor, output.map Tensor.shape, sentBytes, receivedBytes⟩]⟩
  simp [Tallied, hshows.completed]

theorem allGather_keeps (t : Tensor α) (axis : Nat) :
    Keeps (Tallied f g) (self.allGather t axis).run := by
  have hrel := tallied_composable f g
  unfold allGather
  refine (self.begin_keeps hshows _ _ _ _ t).bindExcept hrel fun descriptor => ?_
  refine Keeps.bindExcept hrel (Keeps.lift_silent hrel (self.gatherShards_silent t axis descriptor))
    fun r => ?_
  exact (self.finish_keeps hshows _ _ _ _).bindExcept hrel fun _ => Keeps.pure hrel _

theorem allReduce_keeps [Add α] (t : Tensor α) (algorithm : AllReduceAlgorithm) :
    Keeps (Tallied f g) (self.allReduce t algorithm).run := by
  have hrel := tallied_composable f g
  unfold allReduce
  refine (self.begin_keeps hshows _ _ _ _ t).bindExcept hrel fun descriptor => ?_
  have hrest : ∀ r : Tensor α × Nat × Nat, Keeps (Tallied f g) (do
      self.finish descriptor (some r.1) r.2.1 r.2.2
      pure r.1 : Native world α ω _).run := fun r =>
    (self.finish_keeps hshows _ _ _ _).bindExcept hrel fun _ => Keeps.pure hrel _
  cases algorithm with
  | centralized =>
    exact Keeps.bindExcept hrel (Keeps.lift_silent hrel (self.centralizedAllReduce_silent t _)) hrest
  | ring => exact Keeps.bindExcept hrel (Keeps.lift_silent hrel (self.ringAllReduce_silent t _)) hrest

end Endpoint

end Tallied

end Dlir.Collectives
