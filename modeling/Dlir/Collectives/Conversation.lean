import Dlir.Collectives.PointToPoint
import Dlir.Collectives.TcpBarrier
import Dlir.Framework.Scripts
import Mathlib.Tactic.Ring

namespace Dlir.Collectives

open Dlir.Framework Dlir.Math

variable {world : Nat} {α ω : Type} {rank peer : Rank world} {tag : MessageTag}

/-- The first of some ranks. -/
abbrev rankZero {n : Nat} : Rank (n + 1) := 0

theorem validatePeer_ne (hne : peer ≠ rank) : rank.validatePeer peer.val = .ok peer :=
  Rank.validatePeer_ok peer.isLt fun he => hne (Fin.ext he)

theorem sendTensor_plays {t : Tensor α} (hne : peer ≠ rank) (ht : t.Sendable) :
    PlaysOk [.put peer (tensorFrame rank peer tag t)]
      (Communicator.sendTensor rank peer.val tag t) ([] : List ω) () := by
  have hrun : (Communicator.sendTensor rank peer.val tag t : Comm world α ω Unit).run =
      .send peer (tensorFrame rank peer tag t) (.ret (.ok ())) := by
    simp only [Communicator.sendTensor, Transport.send, TensorPacket.fromTensor_ok ht,
      validatePeer_ne hne, tensorFrame_eq ht]
    rfl
  rw [PlaysOk, hrun]
  exact .put rfl (.done _)

theorem recvTensor_plays {t : Tensor α} (hne : peer ≠ rank) (ht : t.Sendable) :
    PlaysOk [.get peer (tensorFrame peer rank tag t)]
      (Communicator.recvTensor .tcp rank peer.val tag) ([] : List ω) t := by
  simp only [PlaysOk, Communicator.recvTensor, Transport.recv, validatePeer_ne hne]
  refine .get rfl (fresh_tensorFrame .tcp peer rank tag ht) ?_
  simp only [received_tensorFrame .tcp peer rank tag ht]
  have hrest : PlaysOk [] (liftExcept id (TensorPacket.ofTensor t ht).toTensor : Comm world α ω (Tensor α))
      [] t := playsOk_liftExcept (TensorPacket.toTensor_ofTensor ht)
  exact hrest

/-- The frame that carries a control payload. -/
def controlFrame (tag : MessageTag) (packet : ControlPacket) (source destination : Rank world) :
    WireFrame α := .control source.val destination.val tag packet

theorem sendControl_plays {packet : ControlPacket} (hne : peer ≠ rank) :
    PlaysOk [.put peer (controlFrame tag packet rank peer)]
      (Transport.sendControl rank peer.val tag packet : Comm world α ω Unit) ([] : List ω) () := by
  have hrun : (Transport.sendControl rank peer.val tag packet : Comm world α ω Unit).run =
      .send peer (controlFrame tag packet rank peer) (.ret (.ok ())) := by
    simp only [Transport.sendControl, validatePeer_ne hne]
    rfl
  rw [PlaysOk, hrun]
  exact .put rfl (.done _)

theorem misaddressed_controlFrame (tag : MessageTag) (packet : ControlPacket) :
    Backend.tcp.misaddressed rank peer (controlFrame tag packet peer rank : WireFrame α) = false := by
  simp [Backend.misaddressed, controlFrame, WireFrame.source, WireFrame.destination]

theorem recvControl_plays {packet : ControlPacket} (hne : peer ≠ rank) :
    PlaysOk [.get peer (controlFrame tag packet peer rank)]
      (Transport.recvControl .tcp rank peer.val tag : Comm world α ω ControlPacket) ([] : List ω)
      packet := by
  have hnamed : Backend.tcp.misaddressed rank peer (controlFrame tag packet peer rank : WireFrame α) =
      false := misaddressed_controlFrame tag packet
  have hfresh : (Backend.tcp.selector rank peer (·.isControl tag)).fresh
      (controlFrame tag packet peer rank : WireFrame α) = true := by
    simp [Backend.selector, controlFrame, WireFrame.isControl]
  have hreceived : Transport.receivedControl .tcp rank peer
      (controlFrame tag packet peer rank : WireFrame α) = .ok packet := by
    unfold Transport.receivedControl
    rw [hnamed]
    rfl
  simp only [PlaysOk, Transport.recvControl, validatePeer_ne hne]
  refine .get rfl hfresh ?_
  rw [hreceived]
  exact .done _

namespace TcpTransport

variable {n : Nat}

def arrivalOf (generation : Nat) (rank : Rank (n + 1)) : WireFrame α :=
  .barrierArrive rank.val 0 (.ofNat generation)

def releaseOf (generation : Nat) (rank : Rank (n + 1)) : WireFrame α :=
  .barrierRelease 0 rank.val (.ofNat generation)

/-- The frames of a barrier: all ranks arrive at rank 0, which then releases them. -/
def barrierTrace (n : Nat) (α : Type) (generation : Nat) :
    List (Rank (n + 1) × Rank (n + 1) × WireFrame α) :=
  gatherTrace rankZero (others rankZero) (arrivalOf generation) ++
    scatterTrace rankZero (others rankZero) (releaseOf generation)

theorem barrierTrace_ne (generation : Nat) : ∀ x ∈ barrierTrace n α generation, x.1 ≠ x.2.1 := by
  intro x hx
  rcases List.mem_append.mp hx with hup | hdown
  · obtain ⟨i, hi, rfl⟩ := List.mem_map.mp hup
    exact mem_others.mp hi
  · obtain ⟨i, hi, rfl⟩ := List.mem_map.mp hdown
    exact (mem_others.mp hi).symm

theorem sendFrame_plays {rank peer : Rank world} {frame : WireFrame α} (hne : peer ≠ rank) :
    PlaysOk [.put peer frame] (sendFrame rank peer.val frame : Comm world α ω Unit) ([] : List ω) () := by
  have hrun : (sendFrame rank peer.val frame : Comm world α ω Unit).run =
      .send peer frame (.ret (.ok ())) := by
    simp only [sendFrame, validatePeer_ne hne]
    rfl
  rw [PlaysOk, hrun]
  exact .put rfl (.done _)

theorem recvBarrier_plays {rank peer : Rank world} {frame : WireFrame α} {arrive : Bool}
    {generation : Nat} (hne : peer ≠ rank) (hkind : frame.isAnyTensor = false)
    (hframe : barrierFrame rank peer arrive generation frame = .ok ()) :
    PlaysOk [.get peer frame] (recvBarrier rank peer.val arrive generation : Comm world α ω Unit)
      ([] : List ω) () := by
  have hfresh : (barrierSelector rank peer).fresh frame = true := by
    simp [barrierSelector, hkind]
  simp only [PlaysOk, recvBarrier, validatePeer_ne hne]
  refine .get rfl hfresh ?_
  rw [hframe]
  exact .done _

theorem barrierFrame_arrive (generation : Nat) (rank : Rank (n + 1)) :
    barrierFrame 0 rank true generation (arrivalOf generation rank : WireFrame α) = .ok () := by
  simp [barrierFrame, arrivalOf, Backend.misaddressed, WireFrame.source, WireFrame.destination]

theorem barrierFrame_release (generation : Nat) (rank : Rank (n + 1)) :
    barrierFrame rank 0 false generation (releaseOf generation rank : WireFrame α) = .ok () := by
  simp [barrierFrame, releaseOf, Backend.misaddressed, WireFrame.source, WireFrame.destination]

/-- Each rank plays its part in a barrier. -/
theorem barrier_plays {generation : Nat} (hfits : generation + 1 < 2 ^ 64) (rank : Rank (n + 1)) :
    PlaysOk (project rank (barrierTrace n α generation))
      (barrier rank generation : Comm (n + 1) α ω Nat) ([] : List ω) (generation + 1) := by
  have hnext : PlaysOk [] (pure (generation + 1) : Comm (n + 1) α ω Nat) ([] : List ω) (generation + 1) :=
    .pure _
  unfold barrier barrierTrace
  rw [project_append, checkedAdd_some hfits]
  by_cases hrank : rank = 0
  · have hroot : rank.val = 0 := by rw [hrank]; rfl
    rw [if_pos hroot, hrank, project_gather_root _ fun h => mem_others.mp h rfl,
      project_scatter_root, ← map_val_others_zero]
    have harrive : PlaysOk ((others (0 : Rank (n + 1))).map fun s => .get s (arrivalOf generation s))
        (((others (0 : Rank (n + 1))).map Fin.val).forM fun source =>
          recvBarrier 0 source true generation : Comm (n + 1) α ω Unit) ([] : List ω) () :=
      PlaysOk.forM_map fun s hs => recvBarrier_plays (mem_others.mp hs) rfl (barrierFrame_arrive generation s)
    have hrelease : PlaysOk
        ((others (0 : Rank (n + 1))).map fun d => .put d (releaseOf generation d))
        (((others (0 : Rank (n + 1))).map Fin.val).forM fun destination =>
          sendFrame 0 destination (.barrierRelease 0 destination (.ofNat generation)) :
            Comm (n + 1) α ω Unit) ([] : List ω) () :=
      PlaysOk.forM_map fun d hd => sendFrame_plays (mem_others.mp hd)
    rw [← List.append_nil (_ ++ _), List.append_assoc]
    exact harrive.append (hrelease.append hnext)
  · have hmember : rank.val ≠ 0 := fun h => hrank (Fin.ext h)
    rw [if_neg hmember, project_gather_peer _ (nodup_others 0) (mem_others.mpr hrank) hrank,
      project_scatter_peer _ (nodup_others 0) (mem_others.mpr hrank) hrank]
    have harrive : PlaysOk [.put 0 (arrivalOf generation rank)]
        (sendFrame rank 0 (.barrierArrive rank.val 0 (.ofNat generation)) : Comm (n + 1) α ω Unit)
        ([] : List ω) () := @sendFrame_plays _ _ _ rank 0 _ (Ne.symm hrank)
    have hrelease : PlaysOk [.get 0 (releaseOf generation rank)]
        (recvBarrier rank 0 false generation : Comm (n + 1) α ω Unit) ([] : List ω) () :=
      @recvBarrier_plays _ _ _ rank 0 _ _ _ (Ne.symm hrank) rfl (barrierFrame_release generation rank)
    exact harrive.append (hrelease.append hnext)

end TcpTransport

end Dlir.Collectives
