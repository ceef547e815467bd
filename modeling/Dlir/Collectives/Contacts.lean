import Dlir.Collectives.Conversation
import Dlir.Framework.Dealings

namespace Dlir.Collectives

open Dlir.Framework Dlir.Math

variable {world : Nat} {α ω β : Type} {rank : Rank world} {tag : MessageTag}

/-- The streams of a rank, whatever comes over them. -/
def TcpTransport.streams (world : Nat) (α : Type) :
    (Backend.tcp.mailbox world α).Contents fun _ _ => True :=
  { TcpTransport.contents world α with of_park := fun _ _ _ _ => rfl }

theorem conveys_liftExcept {ε γ : Type} {wrap : ε → CollectivesError} {x : Except ε β}
    {f : β → Comm world α ω γ} {R : Dealings (Rank world) (WireFrame α) ω → γ → Prop}
    (hf : ∀ b, x = .ok b → Conveys (f b) R) : Conveys (liftExcept wrap x >>= f) R := by
  cases x with
  | ok b => exact hf b rfl
  | error e =>
    intro b hb
    cases hb

/-- What can be read has been written by `fromTensor`. -/
theorem TensorPacket.toTensor_eq_ok {p : TensorPacket α} {t : Tensor α} (h : p.toTensor = .ok t) :
    ∃ hs : t.Sendable, p = .ofTensor t hs := by
  simp only [toTensor, bind_eq_ok] at h
  obtain ⟨expected, hcount, h⟩ := h
  split_ifs at h with hlength
  obtain ⟨hshape, hdata⟩ := Tensor.fromVec_parts (mapError_eq_ok.mp h)
  obtain ⟨shape, values, hp⟩ := p
  obtain rfl : t.shape = shape := hshape
  obtain rfl : t.data = values := hdata
  exact ⟨hp, rfl⟩

theorem sendTensor_conveys (destination : Nat) (t : Tensor α) :
    Conveys (Communicator.sendTensor rank destination tag t : Comm world α ω Unit) fun d _ =>
      ∃ peer : Rank world, peer.val = destination ∧ t.Sendable ∧
        d = ⟨[(peer, tensorFrame rank peer tag t)], [], []⟩ := by
  unfold Communicator.sendTensor Transport.send
  refine conveys_liftExcept fun packet hpacket => conveys_liftExcept fun peer hpeer => ?_
  obtain rfl := Rank.validatePeer_val hpeer
  obtain ⟨hs, rfl⟩ := TensorPacket.toTensor_eq_ok (TensorPacket.toTensor_fromTensor hpacket)
  intro b _
  exact ⟨peer, rfl, hs, by rw [tensorFrame_eq hs]; rfl⟩

/-- Only frames that name the ends of their stream are taken. -/
theorem addressed_tcp {peer : Rank world} {f : WireFrame α}
    (h : ¬ Backend.tcp.misaddressed rank peer f = true) :
    f.source = peer.val ∧ f.destination = rank.val := by
  simpa [Backend.misaddressed] using h

theorem recvTensor_conveys (source : Nat) :
    Conveys (Communicator.recvTensor .tcp rank source tag : Comm world α ω (Tensor α)) fun d t =>
      ∃ peer : Rank world, peer.val = source ∧ t.Sendable ∧
        d = ⟨[], [(peer, tensorFrame peer rank tag t)], []⟩ := by
  unfold Communicator.recvTensor Transport.recv
  refine Conveys.bind (Q := fun d packet => ∃ peer : Rank world, peer.val = source ∧
    d = ⟨[], [(peer, .tensor peer.val rank.val tag packet)], []⟩) ?_ fun d packet h => ?_
  · refine conveys_liftExcept fun peer hpeer => ?_
    obtain rfl := Rank.validatePeer_val hpeer
    intro f haccepts packet hpacket
    unfold Transport.received at hpacket
    split_ifs at hpacket with hnamed
    obtain ⟨hsource, hdestination⟩ := addressed_tcp hnamed
    cases f with
    | tensor s d t p =>
      obtain rfl := Except.ok.inj hpacket
      obtain rfl : s = peer.val := hsource
      obtain rfl : d = rank.val := hdestination
      have htag : t = tag := by
        rcases haccepts with hstored | hfresh
        · simpa [Backend.selector, WireFrame.isTensor] using hstored
        · simpa [Backend.selector, hnamed, WireFrame.isTensor] using hfresh
      exact ⟨peer, rfl, by rw [htag]; rfl⟩
    | control s d t p => cases hpacket
    | barrierArrive s d g => cases hpacket
    | barrierRelease s d g => cases hpacket
  · obtain ⟨peer, hpeer, rfl⟩ := h
    refine Conveys.settled (x := packet.toTensor.mapError id) fun t ht => ?_
    obtain ⟨hs, rfl⟩ := TensorPacket.toTensor_eq_ok (mapError_eq_ok.mp ht)
    exact ⟨peer, hpeer, hs, by rw [tensorFrame_eq hs]; rfl⟩

theorem sendControl_conveys (destination : Nat) (packet : ControlPacket) :
    Conveys (Transport.sendControl rank destination tag packet : Comm world α ω Unit) fun d _ =>
      ∃ peer : Rank world, peer.val = destination ∧
        d = ⟨[(peer, controlFrame tag packet rank peer)], [], []⟩ := by
  unfold Transport.sendControl
  refine conveys_liftExcept fun peer hpeer => ?_
  obtain rfl := Rank.validatePeer_val hpeer
  intro b _
  exact ⟨peer, rfl, rfl⟩

theorem recvControl_conveys (source : Nat) :
    Conveys (Transport.recvControl .tcp rank source tag : Comm world α ω ControlPacket) fun d packet =>
      ∃ peer : Rank world, peer.val = source ∧
        d = ⟨[], [(peer, controlFrame tag packet peer rank)], []⟩ := by
  unfold Transport.recvControl
  refine conveys_liftExcept fun peer hpeer => ?_
  obtain rfl := Rank.validatePeer_val hpeer
  intro f haccepts packet hpacket
  unfold Transport.receivedControl at hpacket
  split_ifs at hpacket with hnamed
  obtain ⟨hsource, hdestination⟩ := addressed_tcp hnamed
  cases f with
  | control s d t p =>
    obtain rfl := Except.ok.inj hpacket
    obtain rfl : s = peer.val := hsource
    obtain rfl : d = rank.val := hdestination
    have htag : t = tag := by
      rcases haccepts with hstored | hfresh
      · simpa [Backend.selector, WireFrame.isControl] using hstored
      · simpa [Backend.selector, hnamed, WireFrame.isControl] using hfresh
    exact ⟨peer, rfl, by rw [htag]; rfl⟩
  | tensor s d t p => cases hpacket
  | barrierArrive s d g => cases hpacket
  | barrierRelease s d g => cases hpacket

namespace TcpTransport

/-- Nothing but frames of barriers, and nothing to be seen. -/
structure OnlyBarriers (d : Dealings (Rank world) (WireFrame α) ω) : Prop where
  sent : ∀ x ∈ d.sent, x.2.isBarrier = true
  taken : ∀ x ∈ d.taken, x.2.isBarrier = true
  seen : d.seen = []

theorem OnlyBarriers.none : OnlyBarriers (.none : Dealings (Rank world) (WireFrame α) ω) where
  sent := fun x hx => by cases hx
  taken := fun x hx => by cases hx
  seen := rfl

theorem OnlyBarriers.append {d e : Dealings (Rank world) (WireFrame α) ω} (hd : OnlyBarriers d)
    (he : OnlyBarriers e) : OnlyBarriers (d ++ e) where
  sent x hx := (List.mem_append.mp hx).elim (hd.sent x) (he.sent x)
  taken x hx := (List.mem_append.mp hx).elim (hd.taken x) (he.taken x)
  seen := by rw [Dealings.seen_append, hd.seen, he.seen]; rfl

theorem sendFrame_conveys (destination : Nat) {frame : WireFrame α} (hframe : frame.isBarrier = true) :
    Conveys (sendFrame rank destination frame : Comm world α ω Unit) fun d _ => OnlyBarriers d := by
  unfold sendFrame
  refine conveys_liftExcept fun peer _ b _ => ⟨fun x hx => ?_, fun x hx => (by cases hx), rfl⟩
  obtain rfl := List.mem_singleton.mp hx
  exact hframe

theorem recvBarrier_conveys (source : Nat) (arrive : Bool) (generation : Nat) :
    Conveys (recvBarrier rank source arrive generation : Comm world α ω Unit)
      fun d _ => OnlyBarriers d := by
  unfold recvBarrier
  refine conveys_liftExcept fun peer _ f _ b hb => ⟨fun x hx => (by cases hx), fun x hx => ?_, rfl⟩
  obtain rfl := List.mem_singleton.mp hx
  unfold barrierFrame at hb
  dsimp only at hb
  split_ifs at hb
  cases f with
  | barrierArrive s d g => rfl
  | barrierRelease s d g => rfl
  | tensor s d t p => cases hb
  | control s d t p => cases hb

theorem barrier_conveys (generation : Nat) :
    Conveys (barrier rank generation : Comm world α ω Nat) fun d _ => OnlyBarriers d := by
  have hloop : ∀ {f : Nat → Comm world α ω Unit}, (∀ x, Conveys (f x) fun d _ => OnlyBarriers d) →
      ∀ l : List Nat, Conveys (l.forM f) fun d _ => OnlyBarriers d :=
    fun h l => Conveys.forM .none (fun _ _ => OnlyBarriers.append) h l
  unfold barrier
  split_ifs
  · refine (hloop (fun source => recvBarrier_conveys source true generation) _).bind fun d _ hd => ?_
    refine (hloop (fun destination => sendFrame_conveys destination rfl) _).bind fun e _ he => ?_
    cases checkedAdd generation 1 with
    | some next => exact .pure (hd.append (he.append .none))
    | none => exact .throw
  · refine (sendFrame_conveys 0 rfl).bind fun d _ hd => ?_
    refine (recvBarrier_conveys 0 false generation).bind fun e _ he => ?_
    cases checkedAdd generation 1 with
    | some next => exact .pure (hd.append (he.append .none))
    | none => exact .throw

end TcpTransport

end Dlir.Collectives
