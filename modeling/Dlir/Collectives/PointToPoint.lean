import Dlir.Collectives.Native
import Dlir.Framework.Fallible

namespace Dlir.Collectives

open Dlir.Framework Dlir.Math

variable {world : Nat} {α ω β : Type}

@[simp] theorem liftExcept_run {ε ε' : Type} {m : Type → Type} [Monad m] (wrap : ε → ε')
    (x : Except ε β) : (liftExcept wrap x : ExceptT ε' m β).run = pure (x.mapError wrap) := rfl

theorem playsOk_liftExcept {ε ε' : Type} {wrap : ε → ε'} {x : Except ε β} {b : β}
    (h : x = .ok b) :
    PlaysOk [] (liftExcept wrap x : ExceptT ε' (Proc (Rank world) (WireFrame α) ω) β) [] b := by
  subst h
  exact .done _

theorem togetherOk_liftExcept {ε ε' : Type} {wrap : ε → ε'} {x : Rank world → Except ε β}
    {b : Rank world → β} (h : ∀ r, x r = .ok (b r)) :
    TogetherOk (fun r => (liftExcept wrap (x r) :
      ExceptT ε' (Proc (Rank world) (WireFrame α) ω) β)) (fun _ => []) b := by
  have hx : x = fun r => .ok (b r) := funext h
  subst hx
  exact Together.ret _

namespace Tensor

/-- Logical F32 payload bytes. -/
def bytes (t : Tensor α) : Nat := t.elemCount * 4

end Tensor

theorem tensorBytes_eq (t : Tensor α) : tensorBytes t = .ok t.bytes := by
  have hf := t.fits
  have h : t.elemCount * 4 < 2 ^ 64 := by
    unfold Tensor.elemCount
    omega
  rw [tensorBytes, checkedMul_some h]
  rfl

/-- The frame that carries a tensor; a tensor that cannot be sent has none. -/
def tensorFrame (source destination : Rank world) (tag : MessageTag) (t : Tensor α) :
    WireFrame α :=
  match TensorPacket.fromTensor t with
  | .ok packet => .tensor source.val destination.val tag packet
  | .error _ => .barrierArrive source.val destination.val 0

theorem tensorFrame_eq {source destination : Rank world} {tag : MessageTag} {t : Tensor α}
    (h : t.Sendable) : tensorFrame source destination tag t =
      .tensor source.val destination.val tag (.ofTensor t h) := by
  simp [tensorFrame, TensorPacket.fromTensor_ok h]

theorem received_tensorFrame (backend : Backend) (source destination : Rank world)
    (tag : MessageTag) {t : Tensor α} (h : t.Sendable) :
    Transport.received backend destination source (tensorFrame source destination tag t) =
      .ok (.ofTensor t h) := by
  rw [tensorFrame_eq h]
  cases backend <;>
    simp [Transport.received, Backend.misaddressed, WireFrame.source, WireFrame.destination]

theorem fresh_tensorFrame (backend : Backend) (source destination : Rank world)
    (tag : MessageTag) {t : Tensor α} (h : t.Sendable) :
    (backend.selector destination source (·.isTensor tag)).fresh
      (tensorFrame source destination tag t) = true := by
  rw [tensorFrame_eq h]
  simp [Backend.selector, WireFrame.isTensor]

namespace Endpoint

variable (self : Endpoint world ω) {peer : Rank world} {tag : MessageTag} {t : Tensor α}

theorem validatePeer_peer (hne : peer ≠ self.rank) :
    self.rank.validatePeer peer.val = .ok peer :=
  Rank.validatePeer_ok peer.isLt fun he => hne (Fin.ext he)

theorem send_plays (hne : peer ≠ self.rank) (h : t.Sendable) :
    PlaysOk [.put peer (tensorFrame self.rank peer tag t)] (self.send peer.val tag t) [] t.bytes := by
  have hrun : (self.send peer.val tag t).run =
      .send peer (tensorFrame self.rank peer tag t) (.ret (.ok t.bytes)) := by
    simp only [send, Communicator.sendTensor, Transport.send, TensorPacket.fromTensor_ok h,
      validatePeer_peer self hne, tensorBytes_eq, tensorFrame_eq h]
    rfl
  rw [PlaysOk, hrun]
  exact .put rfl (.done _)

theorem recv_plays (hne : peer ≠ self.rank) (h : t.Sendable) :
    PlaysOk [.get peer (tensorFrame peer self.rank tag t)] (self.recv peer.val tag) []
      (t, t.bytes) := by
  simp only [PlaysOk, recv, Communicator.recvTensor, Transport.recv, validatePeer_peer self hne]
  refine .get rfl (fresh_tensorFrame self.backend peer self.rank tag h) ?_
  simp only [received_tensorFrame self.backend peer self.rank tag h]
  have hrest : PlaysOk [] (do
      let tensor ← (liftExcept id (TensorPacket.ofTensor t h).toTensor : Comm world α ω (Tensor α))
      let bytes ← liftExcept id (tensorBytes tensor)
      pure (tensor, bytes)) [] (t, t.bytes) := by
    simp only [TensorPacket.toTensor_ofTensor, tensorBytes_eq]
    exact .done _
  exact hrest

end Endpoint

/-- The native backends of a whole world. -/
structure Group (world : Nat) (ω : Type) where
  backend : Backend
  observer : Rank world → CollectiveEvent → ω

def Group.endpoint (g : Group world ω) (rank : Rank world) : Endpoint world ω :=
  ⟨g.backend, rank, g.observer rank⟩

namespace Group

/-- The world in which every rank is about to run its program. -/
def initial (g : Group world ω) (program : Rank world → Proc (Rank world) (WireFrame α) ω β) :
    World (g.backend.mailbox world α) ω β :=
  Snapshot.world ⟨program, fun _ => []⟩ _

/-- The world in which every rank has returned and no message is left in a channel or in a
pending queue. -/
def final (g : Group world ω) (result : Rank world → β) (observed : Rank world → List ω) :
    World (g.backend.mailbox world α) ω β :=
  Snapshot.world ⟨fun r => .ret (result r), observed⟩ _

variable {g : Group world ω}

@[simp] theorem endpoint_rank (r : Rank world) : (g.endpoint r).rank = r := rfl

@[simp] theorem endpoint_backend (r : Rank world) : (g.endpoint r).backend = g.backend := rfl

/-- Every rank hands its tensor to `next` while it takes the one of `prev`. -/
theorem exchange_together {next prev : Rank world → Rank world} {tag : MessageTag}
    {t : Rank world → Tensor α} (hnp : ∀ r, prev (next r) = r) (hpn : ∀ r, next (prev r) = r)
    (hne : ∀ r, next r ≠ r) (hs : ∀ r, (t r).Sendable) :
    TogetherOk (fun r => (g.endpoint r).exchange (next r).val (prev r).val tag tag (t r))
      (fun _ => []) fun r => (t (prev r), (t r).bytes, (t (prev r)).bytes) := by
  have hprev : ∀ r, prev r ≠ r := fun r h => hne r (by rw [← h, hpn, h])
  have hsrc : ∀ r, (g.endpoint r).rank.validatePeer (prev r).val = .ok (prev r) :=
    fun r => Endpoint.validatePeer_peer (g.endpoint r) (hprev r)
  have hout : ∀ r, (g.endpoint r).outbound (next r).val tag (t r) =
      .ok (next r, tensorFrame r (next r) tag (t r)) := by
    intro r
    rw [Endpoint.outbound, TensorPacket.fromTensor_ok (hs r),
      Endpoint.validatePeer_peer (g.endpoint r) (hne r), tensorFrame_eq (hs r)]
    rfl
  have hrun : ∀ r, ((g.endpoint r).exchange (next r).val (prev r).val tag tag (t r)).run =
      .exchange (next r) (tensorFrame r (next r) tag (t r)) (prev r)
        (g.backend.selector r (prev r) (·.isTensor tag)) fun f =>
        (ExceptT.mk (.ret ((Transport.received g.backend r (prev r) f).bind (·.toTensor))) >>=
          fun result => do
            let receivedBytes ← liftExcept id (tensorBytes result)
            pure (result, (t r).bytes, receivedBytes) : Comm world α ω _).run := by
    intro r
    simp only [Endpoint.exchange, hout, hsrc, tensorBytes_eq]
    rfl
  unfold TogetherOk
  simp only [hrun]
  refine Together.exchange hnp hpn hne (fun r => ?_) fun r => ?_
  · have hf := fresh_tensorFrame g.backend r (next r) tag (hs r)
    rwa [hnp]
  · have hr := received_tensorFrame g.backend (prev r) r tag (hs (prev r))
    rw [hpn, hr]
    simp only [Except.bind, TensorPacket.toTensor_ofTensor]
    have hrest : (do
        let receivedBytes ← liftExcept id (tensorBytes (t (prev r)))
        pure (t (prev r), (t r).bytes, receivedBytes) : Comm world α ω _).run =
          .ret (.ok (t (prev r), (t r).bytes, (t (prev r)).bytes)) := by
      simp only [tensorBytes_eq]
      rfl
    exact hrest

end Group

end Dlir.Collectives
