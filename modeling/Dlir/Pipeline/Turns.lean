import Dlir.Collectives.Conversation
import Dlir.Framework.Relay
import Dlir.Pipeline.Runner
import Dlir.Runtime.Model.Locality

namespace Dlir.Pipeline

open Dlir.Collectives Dlir.Framework Dlir.Math Dlir.Runtime Dlir.Runtime.Model

/-- A report after an event that shows a message. -/
def CommunicationReport.record (self : CommunicationReport) : RunEventKind → CommunicationReport
  | .tensorSent _ _ _ _ _ bytes _ => self.sentTensor bytes
  | .tensorReceived _ _ _ _ _ bytes _ => self.receivedTensor bytes
  | .controlSent _ _ _ _ length _ => self.sentControl length
  | .controlReceived _ _ _ _ length _ => self.receivedControl length
  | _ => self

/-- The message as the codec writes it. -/
def encoded (codec : Codec PipelineControl) (control : PipelineControl) : List UInt8 :=
  (codec.toVec control).toOption.getD []

/-- A step that has tags, and a token ID of 32 bits. -/
def PipelineControl.InRange : PipelineControl → Prop
  | token step tokenId => step < 2 ^ 60 ∧ tokenId < 2 ^ 32
  | decision step _ => step < 2 ^ 60

/-- All messages are written, and fit into a control payload. -/
def Compact (codec : Codec PipelineControl) : Prop :=
  ∀ control : PipelineControl, control.InRange → codec.toVec control = .ok (encoded codec control) ∧
    (encoded codec control).length ≤ maxControlBytes

def controlPacket (codec : Codec PipelineControl) (control : PipelineControl) : ControlPacket :=
  if h : (encoded codec control).length ≤ maxControlBytes then ⟨encoded codec control, h⟩
  else ⟨[], Nat.zero_le _⟩

theorem bytes_controlPacket {codec : Codec PipelineControl} (hcompact : Compact codec)
    {control : PipelineControl} (hrange : control.InRange) :
    (controlPacket codec control).bytes = encoded codec control := by
  rw [controlPacket, dif_pos (hcompact control hrange).2]

theorem stepTag_eq {base step : Nat} (hbase : base + 2 ^ 60 ≤ 2 ^ 64) (hstep : step < 2 ^ 60) :
    stepTag base step = .ok ⟨.ofNat (base + step)⟩ := by
  have hsome : (checkedAdd base step).filter (· < base + (1 <<< 60)) = some (base + step) := by
    rw [checkedAdd_some (by omega), Option.filter_some, if_pos]
    rw [decide_eq_true_eq, Nat.shiftLeft_eq]
    omega
  rw [stepTag, hsome]

/-- An activation has a shape that can be sent. -/
theorem sendable_activation {α : Type} {t : Tensor α} {rows hidden : Nat}
    (h : t.shape = [1, rows, hidden]) : t.Sendable := by
  have hrows : rows < 2 ^ 64 := t.usize rows (by rw [h]; simp)
  have hcount : t.data.length = rows * hidden := by
    rw [t.size, h]
    simp
  have hfits := t.fits
  rw [hcount] at hfits
  have hone : checkedMul 1 1 = some 1 := checkedMul_some (by decide)
  have htwo : checkedMul 1 rows = some rows := by
    rw [checkedMul_some (by omega), Nat.one_mul]
  have hall : checkedMul rows hidden = some (rows * hidden) := checkedMul_some (by omega)
  have hproduct : [1, rows, hidden].foldlM checkedMul 1 = some (rows * hidden) := by
    simp [hone, htwo, hall]
  rw [Tensor.Sendable, h, elementCount, hproduct, hcount]

section Performs

variable {world : Nat} {α β γ : Type}

/-- Code that makes these moves and observations and counts the messages among them. -/
def Performs (moves : List (Move (Rank world) (WireFrame α))) (c : PipelineRankCode world α β)
    (os : List RunEventKind) (b : β) : Prop :=
  ∀ s, Enacts moves c s os b (os.foldl CommunicationReport.record s)

namespace Performs

variable {moves moves' : List (Move (Rank world) (WireFrame α))} {c : PipelineRankCode world α β}
  {f : β → PipelineRankCode world α γ} {os os' : List RunEventKind} {b : β} {d : γ}

theorem pure (b : β) : Performs [] (Pure.pure b : PipelineRankCode world α β) [] b :=
  fun s => Enacts.pure b s

theorem bind (h : Performs moves c os b) (h' : Performs moves' (f b) os' d) :
    Performs (moves ++ moves') (c >>= f) (os ++ os') d := by
  intro s
  rw [List.foldl_append]
  exact (h s).bind (h' _)

/-- Parts that come first and make no moves. -/
theorem before (h : Performs [] c os b) (h' : Performs moves (f b) os' d) :
    Performs moves (c >>= f) (os ++ os') d := h.bind h'

theorem settled {ε : Type} {x : Except ε β} {wrap : ε → PipelineError} (hx : x = .ok b)
    (h : Performs moves (f b) os d) : Performs moves (settleWith wrap x >>= f) os d :=
  fun s => Enacts.settled hx (h s)

theorem settle {ε : Type} {x : Except ε β} {wrap : ε → PipelineError} (hx : x = .ok b) :
    Performs [] (settleWith wrap x : PipelineRankCode world α β) [] b :=
  fun _ => Enacts.settle hx

/-- An event that shows no message. -/
theorem published {o : RunEventKind} {f : Unit → PipelineRankCode world α γ}
    (ho : ∀ s : CommunicationReport, s.record o = s) (h : Performs moves (f ()) os d) :
    Performs moves (publish o >>= f) (o :: os) d := by
  intro s
  have hrest := Enacts.published (o := o) (h s)
  rwa [List.foldl_cons, ho s]

/-- One message, not yet counted. -/
theorem talked {ε : Type} {x : ExceptT ε (Proc (Rank world) (WireFrame α) RunEventKind) β}
    {wrap : ε → PipelineError} {move : Move (Rank world) (WireFrame α)} (hx : PlaysOk [move] x [] b)
    (h : Performs moves (f b) os d) : Performs (move :: moves) (converse wrap x >>= f) os d :=
  fun s => Enacts.talked hx (h s)

/-- A message is counted before the event that shows it. -/
theorem counted {o : RunEventKind} {g : CommunicationReport → CommunicationReport}
    {f : Unit → PipelineRankCode world α γ} (ho : ∀ s : CommunicationReport, g s = s.record o)
    (h : Performs moves (f ()) os d) :
    Performs moves (amend g >>= fun _ => publish o >>= f) (o :: os) d := by
  intro s
  have hrest := Enacts.published (o := o) (h (s.record o))
  rw [← ho s] at hrest
  rw [List.foldl_cons, ← ho s]
  exact Enacts.amended hrest

/-- A message at the end. -/
theorem count {o : RunEventKind} {g : CommunicationReport → CommunicationReport}
    (ho : ∀ s : CommunicationReport, g s = s.record o) :
    Performs [] (amend g >>= fun _ => publish o : PipelineRankCode world α Unit) [o] () := by
  intro s
  rw [List.foldl_cons, List.foldl_nil, ← ho s]
  exact Enacts.amended Enacts.tell

theorem forM_map {κ κ' : Type} {g : κ' → κ} {f : κ → PipelineRankCode world α Unit}
    {move : κ' → Move (Rank world) (WireFrame α)} {o : κ' → RunEventKind} {xs : List κ'}
    (h : ∀ x ∈ xs, Performs [move x] (f (g x)) [o x] ()) :
    Performs (xs.map move) ((xs.map g).forM f) (xs.map o) () := by
  intro s
  rw [List.foldl_map]
  exact Enacts.forM_map (fun x hx s => h x hx s) s

end Performs

end Performs

namespace PipelineRank

section Messages

variable {world : Nat} {α : Type} {rank peer : Rank world} {step : Nat}

def activationTagAt (step : Nat) : MessageTag := ⟨.ofNat (activationBase + step)⟩

def tokenTagAt (step : Nat) : MessageTag := ⟨.ofNat (tokenBase + step)⟩

def decisionTagAt (step : Nat) : MessageTag := ⟨.ofNat (decisionBase + step)⟩

theorem activationTag_eq (hstep : step < 2 ^ 60) : activationTag step = .ok (activationTagAt step) :=
  stepTag_eq (by decide) hstep

theorem tokenTag_eq (hstep : step < 2 ^ 60) : tokenTag step = .ok (tokenTagAt step) :=
  stepTag_eq (by decide) hstep

theorem decisionTag_eq (hstep : step < 2 ^ 60) : decisionTag step = .ok (decisionTagAt step) :=
  stepTag_eq (by decide) hstep

theorem tensorBytes_sendable {t : Tensor α} (ht : t.Sendable) : tensorBytes t = .ok (t.data.length * 4) := by
  have hcount : t.shape.foldlM checkedMul 1 = some t.data.length := by
    have hok : elementCount t.shape = .ok t.data.length := ht
    unfold elementCount at hok
    split at hok
    · rename_i n hn
      rw [hn, Except.ok.inj hok]
    · cases hok
  have hfits := t.fits
  rw [tensorBytes, hcount, Option.bind_some, checkedMul_some (by omega)]
  rfl

theorem tensorBytes_activation {t : Tensor α} {rows hidden : Nat} (h : t.shape = [1, rows, hidden]) :
    tensorBytes t = .ok (rows * hidden * 4) := by
  have hcount : t.data.length = rows * hidden := by
    rw [t.size, h]
    simp
  rw [tensorBytes_sendable (sendable_activation h), hcount]

theorem sendActivation_performs {t : Tensor α} {rows hidden : Nat} (hne : peer ≠ rank)
    (hstep : step < 2 ^ 60) (hshape : t.shape = [1, rows, hidden]) :
    Performs [.put peer (tensorFrame rank peer (activationTagAt step) t)]
      (sendActivation rank peer.val t step)
      [.tensorSent peer.val .activation (phaseOf step) step [1, rows, hidden] (rows * hidden * 4) 0]
      () := by
  unfold sendActivation
  refine .settled (tensorBytes_activation hshape) ?_
  refine .settled (activationTag_eq hstep) ?_
  refine .talked (sendTensor_plays hne (sendable_activation hshape)) ?_
  rw [hshape]
  exact .count fun _ => rfl

theorem recvActivation_performs {t : Tensor α} {rows hidden : Nat} (hne : peer ≠ rank)
    (hstep : step < 2 ^ 60) (hshape : t.shape = [1, rows, hidden]) :
    Performs [.get peer (tensorFrame peer rank (activationTagAt step) t)]
      (recvActivation rank peer.val step)
      [.tensorReceived peer.val .activation (phaseOf step) step [1, rows, hidden]
        (rows * hidden * 4) 0] t := by
  unfold recvActivation
  refine .settled (activationTag_eq hstep) ?_
  refine .talked (recvTensor_plays hne (sendable_activation hshape)) ?_
  refine .settled (tensorBytes_activation hshape) ?_
  rw [hshape]
  exact .counted (fun _ => rfl) (.pure t)

variable {codec : Codec PipelineControl} {control : PipelineControl} {purpose : ControlPurpose}
  {tag : MessageTag}

theorem sendControl_performs (hcompact : Compact codec) (hrange : control.InRange) (hne : peer ≠ rank) :
    Performs [.put peer (controlFrame tag (controlPacket codec control) rank peer)]
      (sendControl rank codec peer.val tag control purpose step : PipelineRankCode world α Unit)
      [.controlSent peer.val purpose (phaseOf step) step (encoded codec control).length 0] () := by
  have hpacket : ControlPacket.new (encoded codec control) = .ok (controlPacket codec control) := by
    rw [ControlPacket.new, controlPacket, dif_pos (hcompact control hrange).2,
      dif_pos (hcompact control hrange).2]
  unfold sendControl
  refine .settled (hcompact control hrange).1 ?_
  refine .settled hpacket ?_
  refine .talked (sendControl_plays hne) ?_
  exact .count fun _ => rfl

theorem recvControl_performs (hcodec : codec.Documented) (hcompact : Compact codec)
    (hrange : control.InRange) (hne : peer ≠ rank) :
    Performs [.get peer (controlFrame tag (controlPacket codec control) peer rank)]
      (recvControl rank codec peer.val tag purpose step : PipelineRankCode world α PipelineControl)
      [.controlReceived peer.val purpose (phaseOf step) step (encoded codec control).length 0]
      control := by
  have hread := hcodec.round_trip (hcompact control hrange).1
  rw [← bytes_controlPacket hcompact hrange] at hread
  unfold recvControl
  refine .talked (recvControl_plays hne) ?_
  intro s
  refine Enacts.amended (Enacts.settled hread ?_)
  rw [bytes_controlPacket hcompact hrange]
  exact Enacts.published (Enacts.pure control _)

/-- What a rank publishes about the layers of a step. -/
def layerEvents (step : Nat) (layers : List Nat) : List RunEventKind :=
  layers.flatMap fun layer =>
    [.layerStarted layer (phaseOf step) step, .layerCompleted layer (phaseOf step) step 0]

theorem record_layerEvents (step : Nat) (layers : List Nat) (s : CommunicationReport) :
    (layerEvents step layers).foldl CommunicationReport.record s = s := by
  induction layers with
  | nil => rfl
  | cons layer layers ih => exact ih

/-- What the observer of a step hears of some layers. -/
def layerNotes (world : Nat) (α : Type) (step : Nat) (layers : List Nat) :
    StateT CommunicationReport (Proc (Rank world) (WireFrame α) RunEventKind) Unit :=
  notify (notesOf (rankLayerObserver step).layerStarted (rankLayerObserver step).layerCompleted layers)

theorem layerNotes_plays (layers : List Nat) (s : CommunicationReport) :
    Plays [] ((layerNotes world α step layers).run s) (layerEvents step layers) (.ret ((), s)) := by
  induction layers with
  | nil => exact .done _
  | cons layer layers ih => exact .emit (.emit ih)

theorem overCache_performs {pass : Forward (StateT CommunicationReport
      (Proc (Rank world) (WireFrame α) RunEventKind)) α (Tensor α)} {kv kv' : Model.KvCache α}
    {hidden : Tensor α} {layers : List Nat}
    (h : Ends pass kv (layerNotes world α step layers) (.ok hidden, kv')) :
    Performs [] (overCache pass kv) (layerEvents step layers) (hidden, kv') := by
  intro s
  rw [record_layerEvents]
  unfold Enacts overCache
  rw [show pass.run.run kv = _ from h, ExceptT.run_mk, bind_assoc, StateT.run_bind]
  exact Plays.bind (layerNotes_plays layers s) _

end Messages

end PipelineRank

end Dlir.Pipeline
