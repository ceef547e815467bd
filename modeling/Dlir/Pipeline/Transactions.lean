import Dlir.Collectives.Contacts
import Dlir.Pipeline.Run

namespace Dlir.Pipeline

open Dlir.Collectives Dlir.Framework Dlir.Math Dlir.Runtime Dlir.Runtime.Model

namespace PipelineRank

theorem stepTag_eq_ok {base step : Nat} {tag : MessageTag} (h : stepTag base step = .ok tag) :
    step < 2 ^ 60 ∧ tag = ⟨.ofNat (base + step)⟩ := by
  unfold stepTag at h
  split at h
  · rename_i value hvalue
    obtain ⟨hsum, hlt⟩ := Option.filter_eq_some_iff.mp hvalue
    obtain ⟨-, rfl⟩ := checkedAdd_eq_some.mp hsum
    rw [decide_eq_true_eq, Nat.shiftLeft_eq] at hlt
    exact ⟨by omega, (Except.ok.inj h).symm⟩
  · cases h

section Messages

variable {world : Nat} {α : Type} (rank : Rank world) (codec : Codec PipelineControl)

theorem sendActivation_transacts (destination : Nat) (t : Tensor α) (step : Nat)
    (s : CommunicationReport) :
    Transacts (sendActivation rank destination t step) s fun d _ _ =>
      step < 2 ^ 60 ∧ ∃ peer : Rank world, peer.val = destination ∧ t.Sendable ∧
        d = ⟨[(peer, tensorFrame rank peer (activationTagAt step) t)], [],
          [.tensorSent destination .activation (phaseOf step) step t.shape (t.data.length * 4) 0]⟩ := by
  unfold sendActivation
  refine .settled fun bytes hbytes => .settled fun tag htag => ?_
  obtain ⟨hstep, rfl⟩ := stepTag_eq_ok htag
  refine .talked (sendTensor_conveys destination t) fun d _ h => ?_
  obtain ⟨peer, hpeer, hs, rfl⟩ := h
  obtain rfl := Except.ok.inj (hbytes.symm.trans (tensorBytes_sendable hs))
  exact .amended (.tell ⟨hstep, peer, hpeer, hs, rfl⟩)

theorem recvActivation_transacts (source step : Nat) (s : CommunicationReport) :
    Transacts (recvActivation rank source step : PipelineRankCode world α (Tensor α)) s fun d t _ =>
      step < 2 ^ 60 ∧ ∃ peer : Rank world, peer.val = source ∧ t.Sendable ∧
        d = ⟨[], [(peer, tensorFrame peer rank (activationTagAt step) t)],
          [.tensorReceived source .activation (phaseOf step) step t.shape (t.data.length * 4) 0]⟩ := by
  unfold recvActivation
  refine .settled fun tag htag => ?_
  obtain ⟨hstep, rfl⟩ := stepTag_eq_ok htag
  refine .talked (recvTensor_conveys source) fun d t h => ?_
  obtain ⟨peer, hpeer, hs, rfl⟩ := h
  refine .settled fun bytes hbytes => .amended (.published (.pure ?_))
  obtain rfl := Except.ok.inj (hbytes.symm.trans (tensorBytes_sendable hs))
  exact ⟨hstep, peer, hpeer, hs, rfl⟩

variable {codec} in
/-- A message that is written is written as the codec writes it. -/
theorem controlPacket_eq {control : PipelineControl} {packet : ControlPacket}
    (h : codec.toVec control = .ok packet.bytes) : packet = controlPacket codec control := by
  have hencoded : encoded codec control = packet.bytes := by
    rw [encoded, h]
    rfl
  have hbounded := packet.bounded
  rw [← hencoded] at hbounded
  refine ControlPacket.ext ?_
  rw [controlPacket, dif_pos hbounded]
  exact hencoded.symm

theorem sendControl_transacts (destination : Nat) (tag : MessageTag) (control : PipelineControl)
    (purpose : ControlPurpose) (step : Nat) (s : CommunicationReport) :
    Transacts (sendControl rank codec destination tag control purpose step :
        PipelineRankCode world α Unit) s fun d _ _ =>
      codec.toVec control = .ok (controlPacket codec control).bytes ∧
        ∃ peer : Rank world, peer.val = destination ∧
          d = ⟨[(peer, controlFrame tag (controlPacket codec control) rank peer)], [],
            [.controlSent destination purpose (phaseOf step) step
              (controlPacket codec control).bytes.length 0]⟩ := by
  unfold sendControl
  refine .settled fun bytes hbytes => .settled fun packet hpacket => ?_
  have hsame : packet.bytes = bytes := by
    unfold ControlPacket.new at hpacket
    split_ifs at hpacket
    obtain rfl := Except.ok.inj hpacket
    rfl
  rw [← hsame] at hbytes ⊢
  obtain rfl := controlPacket_eq hbytes
  refine .talked (sendControl_conveys destination _) fun d _ h => ?_
  obtain ⟨peer, hpeer, rfl⟩ := h
  exact .amended (.tell ⟨hbytes, peer, hpeer, rfl⟩)

theorem recvControl_transacts (source : Nat) (tag : MessageTag) (purpose : ControlPurpose) (step : Nat)
    (s : CommunicationReport) :
    Transacts (recvControl rank codec source tag purpose step :
        PipelineRankCode world α PipelineControl) s fun d control _ =>
      ∃ (peer : Rank world) (packet : ControlPacket), peer.val = source ∧
        codec.fromSlice packet.bytes = .ok control ∧
        d = ⟨[], [(peer, controlFrame tag packet peer rank)],
          [.controlReceived source purpose (phaseOf step) step packet.bytes.length 0]⟩ := by
  unfold recvControl
  refine .talked (recvControl_conveys source) fun d packet h => ?_
  obtain ⟨peer, hpeer, rfl⟩ := h
  refine .amended (.settled fun control hcontrol => .published (.pure ?_))
  exact ⟨peer, packet, hpeer, hcontrol, rfl⟩

theorem observedBarrier_transacts (shown generation : Nat) (s : CommunicationReport) :
    Transacts (observedBarrier rank shown generation : PipelineRankCode world α Nat) s fun d _ _ =>
      (∀ x ∈ d.sent ++ d.taken, x.2.isBarrier = true) ∧ d.seen = barrierEvents shown := by
  unfold observedBarrier
  refine .published (.talked (TcpTransport.barrier_conveys generation) fun d next h => ?_)
  refine .published (.pure ⟨fun x hx => ?_, ?_⟩)
  · simp only [Dealings.none, Dealings.sent_append, Dealings.taken_append, List.append_nil,
      List.nil_append] at hx
    exact (List.mem_append.mp hx).elim (h.sent x) (h.taken x)
  · simp only [Dealings.none, Dealings.seen_append, h.seen]
    rfl

theorem layerNotes_deals (step : Nat) (layers : List Nat) (s : CommunicationReport) :
    ((layerNotes world α step layers).run s).Deals fun d r =>
      d = ⟨[], [], layerEvents step layers⟩ ∧ r = ((), s) := by
  induction layers with
  | nil => exact ⟨rfl, rfl⟩
  | cons layer layers ih =>
    show ((layerNotes world α step layers).run s).Deals _
    refine ih.imp fun d r h => ?_
    obtain ⟨rfl, rfl⟩ := h
    exact ⟨rfl, rfl⟩

/-- A pass of which the result is known shows the layers that it comes to. -/
theorem overCache_transacts {pass : Forward (StateT CommunicationReport
      (Proc (Rank world) (WireFrame α) RunEventKind)) α (Tensor α)} {kv : Model.KvCache α} {step : Nat}
    {layers : List Nat} {notes : StateT CommunicationReport
      (Proc (Rank world) (WireFrame α) RunEventKind) Unit}
    {result : Except DlirError (Tensor α) × Model.KvCache α} (h : Ends pass kv notes result)
    (hnotes : ∀ y, result.1 = .ok y → notes = layerNotes world α step layers) (s : CommunicationReport) :
    Transacts (overCache pass kv) s fun d r _ =>
      result = (.ok r.1, r.2) ∧ d = ⟨[], [], layerEvents step layers⟩ := by
  obtain ⟨result, kv'⟩ := result
  unfold Transacts overCache
  rw [show pass.run.run kv = _ from h, ExceptT.run_mk, bind_assoc, StateT.run_bind]
  cases result with
  | ok hidden =>
    rw [hnotes hidden rfl]
    refine Proc.Deals.bind (layerNotes_deals step layers s) fun d r hr => ?_
    obtain ⟨rfl, rfl⟩ := hr
    intro b hb
    obtain rfl := Except.ok.inj hb
    exact ⟨rfl, Dealings.append_none _⟩
  | error e =>
    refine Proc.Deals.bind (Q := fun _ _ => True) (.of_forall _ fun _ _ => trivial) fun d r _ b hb => ?_
    cases hb

end Messages

end PipelineRank

end Dlir.Pipeline
