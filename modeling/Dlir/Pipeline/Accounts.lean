import Dlir.Pipeline.Turns
import Dlir.Tensor.Accounts

namespace Dlir.Runtime

/-- A message as the events of its ends show it. -/
inductive ShownMessage
  | tensor (purpose : TensorPurpose) (phase : ExecutionPhase) (step : Nat) (shape : List Nat)
      (bytes : Nat)
  | control (purpose : ControlPurpose) (phase : ExecutionPhase) (step bytes : Nat)
  deriving DecidableEq, Repr

namespace ShownMessage

@[simp]
def tensors : ShownMessage → Nat
  | tensor _ _ _ _ _ => 1
  | control _ _ _ _ => 0

@[simp]
def tensorBytes : ShownMessage → Nat
  | tensor _ _ _ _ bytes => bytes
  | control _ _ _ _ => 0

@[simp]
def controls : ShownMessage → Nat
  | tensor _ _ _ _ _ => 0
  | control _ _ _ _ => 1

@[simp]
def controlBytes : ShownMessage → Nat
  | tensor _ _ _ _ _ => 0
  | control _ _ _ bytes => bytes

/-- The size of some messages together. -/
def total (size : ShownMessage → Nat) (messages : List (Nat × ShownMessage)) : Nat :=
  (messages.map fun message => size message.2).sum

@[simp]
theorem total_nil (size : ShownMessage → Nat) : total size [] = 0 := rfl

@[simp]
theorem total_cons (size : ShownMessage → Nat) (message : Nat × ShownMessage)
    (messages : List (Nat × ShownMessage)) :
    total size (message :: messages) = size message.2 + total size messages := by simp [total]

@[simp]
theorem total_append (size : ShownMessage → Nat) (messages messages' : List (Nat × ShownMessage)) :
    total size (messages ++ messages') = total size messages + total size messages' := by simp [total]

theorem total_add (size size' : ShownMessage → Nat) (messages : List (Nat × ShownMessage)) :
    total (fun message => size message + size' message) messages =
      total size messages + total size' messages := List.sum_map_add

theorem total_flatMap {β : Type} (size : ShownMessage → Nat) (xs : List β)
    (f : β → List (Nat × ShownMessage)) :
    total size (xs.flatMap f) = (xs.map fun x => total size (f x)).sum := by
  induction xs with
  | nil => rfl
  | cons x xs ih => simp [ih]

end ShownMessage

namespace RunEventKind

/-- The message that an event shows as sent, and where to. -/
def sent : RunEventKind → Option (Nat × ShownMessage)
  | .tensorSent peer purpose phase step shape bytes _ => some (peer, .tensor purpose phase step shape bytes)
  | .controlSent peer purpose phase step bytes _ => some (peer, .control purpose phase step bytes)
  | _ => none

/-- The message that an event shows as received, and where from. -/
def received : RunEventKind → Option (Nat × ShownMessage)
  | .tensorReceived peer purpose phase step shape bytes _ =>
    some (peer, .tensor purpose phase step shape bytes)
  | .controlReceived peer purpose phase step bytes _ => some (peer, .control purpose phase step bytes)
  | _ => none

end RunEventKind

end Dlir.Runtime

namespace Dlir.Pipeline

open Dlir.Collectives Dlir.Framework Dlir.Runtime Dlir.Runtime.Model Dlir.Tensor PipelineRank

/-- A report that counts these messages. Each counter has 64 bits. -/
structure CommunicationReport.Counts (report : CommunicationReport)
    (sent received : List (Nat × ShownMessage)) : Prop where
  tensorMessagesSent : report.tensorMessagesSent = ShownMessage.total (·.tensors) sent % 2 ^ 64
  tensorMessagesReceived : report.tensorMessagesReceived =
    ShownMessage.total (·.tensors) received % 2 ^ 64
  tensorBytesSent : report.tensorBytesSent = ShownMessage.total (·.tensorBytes) sent % 2 ^ 64
  tensorBytesReceived : report.tensorBytesReceived =
    ShownMessage.total (·.tensorBytes) received % 2 ^ 64
  controlMessagesSent : report.controlMessagesSent = ShownMessage.total (·.controls) sent % 2 ^ 64
  controlMessagesReceived : report.controlMessagesReceived =
    ShownMessage.total (·.controls) received % 2 ^ 64
  controlBytesSent : report.controlBytesSent = ShownMessage.total (·.controlBytes) sent % 2 ^ 64
  controlBytesReceived : report.controlBytesReceived =
    ShownMessage.total (·.controlBytes) received % 2 ^ 64

namespace CommunicationReport

theorem Counts.record {report : CommunicationReport} {sent received : List (Nat × ShownMessage)}
    (h : report.Counts sent received) (event : RunEventKind) :
    (report.record event).Counts (sent ++ event.sent.toList) (received ++ event.received.toList) := by
  obtain ⟨h1, h2, h3, h4, h5, h6, h7, h8⟩ := h
  cases event <;> constructor <;>
    simp [CommunicationReport.record, sentTensor, receivedTensor, sentControl, receivedControl,
      RunEventKind.sent, RunEventKind.received, wrappingAdd, h1, h2, h3, h4, h5, h6, h7, h8]

/-- What a report counts after some events. -/
theorem counts_events (events : List RunEventKind) :
    (events.foldl CommunicationReport.record {}).Counts (events.filterMap RunEventKind.sent)
      (events.filterMap RunEventKind.received) := by
  induction events using List.reverseRecOn with
  | nil => exact ⟨rfl, rfl, rfl, rfl, rfl, rfl, rfl, rfl⟩
  | append_singleton events event ih =>
    have hnext := ih.record event
    rw [List.foldl_append, List.filterMap_append, List.filterMap_append]
    cases hsent : event.sent <;> cases hreceived : event.received <;>
      simpa [hsent, hreceived] using hnext

end CommunicationReport

/-- What some events do to a report: they count what they show, no bytes are shown in another way,
and this many tokens are shown. -/
structure Recorded (s : CommunicationReport) (os : List RunEventKind) (s' : CommunicationReport)
    (generated : Nat) : Prop where
  counted : s' = os.foldl CommunicationReport.record s
  sent : sentBytes os = ShownMessage.total (fun message => message.tensorBytes + message.controlBytes)
    (os.filterMap RunEventKind.sent)
  tokens : tokens os = generated

namespace Recorded

variable {s s' s'' : CommunicationReport} {os os' : List RunEventKind} {generated generated' : Nat}

theorem none (s : CommunicationReport) : Recorded s [] s 0 := ⟨rfl, rfl, rfl⟩

theorem trans (h : Recorded s os s' generated) (h' : Recorded s' os' s'' generated') :
    Recorded s (os ++ os') s'' (generated + generated') where
  counted := by rw [List.foldl_append, ← h.counted, h'.counted]
  sent := by rw [sentBytes_append, List.filterMap_append, ShownMessage.total_append, h.sent, h'.sent]
  tokens := by rw [tokens_append, h.tokens, h'.tokens]

/-- Recorded events that show no tokens. -/
theorem composable : Composable fun s os s' => Recorded s os s' 0 where
  refl := none
  trans h h' := h.trans h'

end Recorded

section Records

variable {world : Nat} {α β γ : Type}

/-- Whatever the code of a rank receives, if it succeeds then its events are recorded, and `P` holds
of its result, of the tokens that they show and of the report that it leaves. -/
def Records (c : PipelineRankCode world α β) (P : β → Nat → CommunicationReport → Prop) : Prop :=
  ∀ s, Achieves c s fun os b s' => ∃ generated, Recorded s os s' generated ∧ P b generated s'

namespace Records

variable {c : PipelineRankCode world α β} {f : β → PipelineRankCode world α γ}
  {P P' : β → Nat → CommunicationReport → Prop} {R : γ → Nat → CommunicationReport → Prop}

theorem imp (h : Records c P) (himp : ∀ b generated s, P b generated s → P' b generated s) :
    Records c P' := by
  intro s
  refine (h s).imp fun os b s' hb => ?_
  obtain ⟨generated, hrecorded, hb⟩ := hb
  exact ⟨generated, hrecorded, himp b generated s' hb⟩

theorem pure {b : β} (h : ∀ s, P b 0 s) : Records (Pure.pure b : PipelineRankCode world α β) P :=
  fun s => Achieves.pure ⟨0, .none s, h s⟩

theorem bind (h : Records c P) (hf : ∀ b generated s, P b generated s →
    Records (f b) fun d generated' => R d (generated + generated')) : Records (c >>= f) R := by
  intro s
  refine (h s).bind fun os b s' hb => ?_
  obtain ⟨generated, hrecorded, hb⟩ := hb
  refine (hf b generated s' hb s').imp fun os' d s'' hd => ?_
  obtain ⟨generated', hrecorded', hd⟩ := hd
  exact ⟨generated + generated', hrecorded.trans hrecorded', hd⟩

/-- A part that shows no tokens comes first. -/
theorem before (h : Records c fun _ generated _ => generated = 0) (hf : ∀ b, Records (f b) R) :
    Records (c >>= f) R := by
  refine h.bind fun b generated s hgenerated => ?_
  subst hgenerated
  refine (hf b).imp fun d generated s hd => ?_
  rwa [Nat.zero_add]

theorem settle {ε : Type} {x : Except ε β} {wrap : ε → PipelineError} (h : ∀ b s, x = .ok b → P b 0 s) :
    Records (settleWith wrap x : PipelineRankCode world α β) P :=
  fun s => Achieves.settleWith fun b hb => ⟨0, .none s, h b s hb⟩

theorem settled {ε : Type} {x : Except ε β} {wrap : ε → PipelineError}
    (hf : ∀ b, x = .ok b → Records (f b) R) : Records (settleWith wrap x >>= f) R := by
  refine (settle (P := fun b generated _ => x = .ok b ∧ generated = 0) fun b _ hb => ⟨hb, rfl⟩).bind
    fun b generated _ hb => ?_
  obtain ⟨hb, rfl⟩ := hb
  refine (hf b hb).imp fun d generated s hd => ?_
  rwa [Nat.zero_add]

/-- An event that shows no message. -/
theorem publish {o : RunEventKind} {P : Unit → Nat → CommunicationReport → Prop}
    (ho : ∀ s : CommunicationReport, s.record o = s) (hsent : o.sent = none) (hbytes : o.sentBytes = 0)
    (h : ∀ s, P () o.tokens s) : Records (Framework.publish o : PipelineRankCode world α Unit) P :=
  fun s => Achieves.publish
    ⟨o.tokens, ⟨(ho s).symm, by simp [sentBytes, hsent, hbytes], by simp [tokens]⟩, h s⟩

/-- An event that shows neither a message nor a token comes first. -/
theorem published {o : RunEventKind} {f : Unit → PipelineRankCode world α γ}
    (ho : ∀ s : CommunicationReport, s.record o = s) (hsent : o.sent = none) (hbytes : o.sentBytes = 0)
    (htokens : o.tokens = 0) (hf : Records (f ()) R) : Records (Framework.publish o >>= f) R :=
  (publish ho hsent hbytes fun _ => htokens).before fun _ => hf

/-- Communication that is not yet counted. -/
theorem converse {ε : Type} {x : ExceptT ε (Proc (Rank world) (WireFrame α) RunEventKind) β}
    {wrap : ε → PipelineError} (hx : Silent x fun _ => True) :
    Records (Framework.converse wrap x : PipelineRankCode world α β) fun _ generated _ => generated = 0 :=
  fun s => Achieves.converse hx fun _ _ => ⟨0, .none s, rfl⟩

/-- A loop of parts that show no tokens. -/
theorem forM {κ : Type} {f : κ → PipelineRankCode world α Unit}
    (h : ∀ x, Records (f x) fun _ generated _ => generated = 0) (l : List κ) :
    Records (l.forM f) fun _ generated _ => generated = 0 := by
  induction l with
  | nil => exact pure fun _ => rfl
  | cons x l ih => exact (h x).before fun _ => ih

/-- The report at the end of the code. -/
theorem counted {f : CommunicationReport → β} (h : ∀ s, P (f s) 0 s) :
    Records (PipelineWorld.counted >>= fun communication => Pure.pure (f communication) :
      PipelineRankCode world α β) P := by
  intro s b hb
  obtain rfl := Except.ok.inj hb
  exact ⟨0, .none s, h s⟩

end Records

end Records

section Messages

variable {world : Nat} {α : Type} (rank : Rank world) (codec : Codec PipelineControl)

theorem sendTensor_silent (destination : Nat) (tag : MessageTag) (t : Tensor α) :
    Silent (Communicator.sendTensor rank destination tag t : Comm world α RunEventKind Unit)
      fun _ => True := by
  unfold Communicator.sendTensor Transport.send
  refine (settled_silent _).bind fun _ _ => ?_
  refine (settled_silent _).bind fun _ _ => ?_
  exact ⟨rfl, fun _ _ => trivial⟩

theorem recvTensor_silent (backend : Backend) (source : Nat) (tag : MessageTag) :
    Silent (Communicator.recvTensor backend rank source tag : Comm world α RunEventKind (Tensor α))
      fun _ => True := by
  unfold Communicator.recvTensor Transport.recv
  refine Silent.bind (P := fun _ => True) ?_ fun _ _ => settled_silent _
  refine (settled_silent _).bind fun _ _ => ?_
  exact fun f => ⟨rfl, fun _ _ => trivial⟩

/-- A message is counted, and then shown. -/
theorem shown_records {o : RunEventKind} {g : CommunicationReport → CommunicationReport} {β : Type}
    {f : Unit → PipelineRankCode world α β} {P : β → Nat → CommunicationReport → Prop}
    (ho : ∀ s : CommunicationReport, g s = s.record o) (hshown : Recorded {} [o] (g {}) 0)
    (hf : Records (f ()) P) :
    Records (amend g >>= fun _ => Framework.publish o >>= f) P := by
  intro s
  refine Achieves.bind (Q := fun os _ s' => os = [] ∧ s' = g s) ?_ fun os _ s' h => ?_
  · intro b hb
    exact ⟨rfl, rfl⟩
  obtain ⟨rfl, rfl⟩ := h
  refine Achieves.bind (Q := fun os _ s' => os = [o] ∧ s' = g s) (Achieves.publish ⟨rfl, rfl⟩)
    fun os _ s' h => ?_
  obtain ⟨rfl, rfl⟩ := h
  refine (hf (g s)).imp fun os d s' h => ?_
  obtain ⟨generated, hrecorded, hd⟩ := h
  have hfirst : Recorded s [o] (g s) 0 := ⟨ho s, hshown.sent, hshown.tokens⟩
  have hall := hfirst.trans hrecorded
  rw [Nat.zero_add] at hall
  exact ⟨generated, hall, hd⟩

theorem sendActivation_records (destination : Nat) (tensor : Tensor α) (step : Nat) :
    Records (sendActivation rank destination tensor step) fun _ generated _ => generated = 0 := by
  unfold sendActivation
  refine .settled fun bytes _ => .settled fun tag _ => ?_
  refine (Records.converse (sendTensor_silent rank destination tag tensor)).before fun _ => ?_
  rw [← bind_pure (publish _)]
  exact shown_records (fun _ => rfl) ⟨rfl, rfl, rfl⟩ (.pure fun _ => rfl)

/-- A message that is received is counted before it is read, and shown after that. -/
theorem read_records {ε : Type} {x : Except ε PipelineControl} {wrap : ε → PipelineError}
    {o : RunEventKind} {g : CommunicationReport → CommunicationReport}
    (ho : ∀ s : CommunicationReport, g s = s.record o) (hshown : Recorded {} [o] (g {}) 0) :
    Records (amend g >>= fun _ => settleWith wrap x >>= fun control =>
        Framework.publish o >>= fun _ => pure control : PipelineRankCode world α PipelineControl)
      fun control generated _ => x = .ok control ∧ generated = 0 := by
  cases x with
  | ok control => exact shown_records ho hshown (.pure fun _ => ⟨rfl, rfl⟩)
  | error e =>
    intro s b hb
    cases hb

theorem recvActivation_records (source step : Nat) :
    Records (recvActivation rank source step : PipelineRankCode world α (Tensor α))
      fun _ generated _ => generated = 0 := by
  unfold recvActivation
  refine .settled fun tag _ => ?_
  refine (Records.converse (recvTensor_silent rank .tcp source tag)).before fun tensor => ?_
  refine .settled fun bytes _ => ?_
  exact shown_records (fun _ => rfl) ⟨rfl, rfl, rfl⟩ (.pure fun _ => rfl)

theorem sendControl_records (destination : Nat) (tag : MessageTag) (control : PipelineControl)
    (purpose : ControlPurpose) (step : Nat) :
    Records (sendControl rank codec destination tag control purpose step : PipelineRankCode world α Unit)
      fun _ generated _ => generated = 0 := by
  unfold sendControl
  refine .settled fun bytes _ => .settled fun packet _ => ?_
  refine (Records.converse (sendControl_silent rank destination tag packet)).before fun _ => ?_
  rw [← bind_pure (publish _)]
  exact shown_records (fun _ => rfl) ⟨rfl, by simp [sentBytes, RunEventKind.sentBytes, RunEventKind.sent],
    rfl⟩ (.pure fun _ => rfl)

theorem recvControl_records (source : Nat) (tag : MessageTag) (purpose : ControlPurpose) (step : Nat) :
    Records (recvControl rank codec source tag purpose step : PipelineRankCode world α PipelineControl)
      fun _ generated _ => generated = 0 := by
  unfold recvControl
  refine (Records.converse (recvControl_silent .tcp rank source tag)).before fun packet => ?_
  exact (read_records (fun _ => rfl) ⟨rfl, rfl, rfl⟩).imp fun _ _ _ h => h.2

theorem observedBarrier_records (shown generation : Nat) :
    Records (observedBarrier rank shown generation : PipelineRankCode world α Nat)
      fun _ generated _ => generated = 0 := by
  unfold observedBarrier
  refine .published (fun _ => rfl) rfl rfl rfl ?_
  refine (Records.converse (TcpTransport.barrier_silent rank generation)).before fun next => ?_
  exact .published (fun _ => rfl) rfl rfl rfl (.pure fun _ => rfl)

theorem overCache_records {pass : Forward (StateT CommunicationReport
      (Proc (Rank world) (WireFrame α) RunEventKind)) α (Tensor α)}
    (hpass : Forward.Keeps (fun s os s' => Recorded s os s' 0) pass) (kv : Model.KvCache α) :
    Records (overCache pass kv) fun _ generated _ => generated = 0 := by
  intro s
  have hkeeps : Keeps (fun s os s' => Recorded s os s' 0) (overCache pass kv).run :=
    Keeps.bind Recorded.composable (hpass kv) fun r => Keeps.pure Recorded.composable _
  exact Achieves.of_keeps hkeeps fun os b s' h => ⟨0, h, rfl⟩

theorem rankLayerObserver_records (step : Nat) :
    (rankLayerObserver step : LayerObserver (StateT CommunicationReport
      (Proc (Rank world) (WireFrame α) RunEventKind))).Keeps fun s os s' => Recorded s os s' 0 :=
  ⟨fun _ _ => ⟨rfl, rfl, rfl⟩, fun _ _ => ⟨rfl, rfl, rfl⟩⟩

end Messages

namespace PipelineWorld

variable {world : Nat} {α : Type} (self : PipelineWorld world α) (rank : Rank world)
  (assignment : StageAssignment) (stage : LlamaStage (Tensor α) (RotaryEmbedding α)) (step : Nat)
  (s : PipelineGeneration α)

theorem forward_records :
    Records (self.forward rank assignment stage step s) fun _ generated _ => generated = 0 := by
  unfold forward
  split_ifs
  · refine .settled fun input _ => overCache_records ?_ _
    exact forwardTokens_keeps Recorded.composable self.lib (rankLayerObserver_records step) stage _ _
  · refine (recvActivation_records rank _ step).before fun hidden => .settled fun _ _ => ?_
    refine overCache_records ?_ _
    exact forwardHidden_keeps Recorded.composable self.lib (rankLayerObserver_records step) stage _ _

theorem passOn_records (hidden : Tensor α) :
    Records (self.passOn rank assignment stage step hidden) fun _ generated _ => generated = 0 := by
  unfold passOn
  split_ifs
  · exact sendActivation_records rank _ hidden step
  · refine .settled fun logits _ => .settled fun tokenId _ => .settled fun tag _ => ?_
    exact sendControl_records rank _ _ tag _ _ step

/-- What some part of a run does to the tokens of a rank: those that are shown are kept, and without a
tokenizer there are none. -/
def Kept (tokenizer : Option Tokenizer) (before after : List Nat) (generated : Nat) : Prop :=
  after.length = before.length + generated ∧ (tokenizer = none → after = before)

theorem Kept.trans {tokenizer : Option Tokenizer} {before between after : List Nat}
    {generated generated' : Nat} (h : Kept tokenizer before between generated)
    (h' : Kept tokenizer between after generated') :
    Kept tokenizer before after (generated + generated') := by
  refine ⟨?_, fun hnone => (h'.2 hnone).trans (h.2 hnone)⟩
  rw [h'.1, h.1, Nat.add_assoc]

/-- Rank 0 shows every token that it keeps. -/
theorem decide_records (tokenizer : Tokenizer) (tokenId : Nat) :
    Records (self.decide tokenizer s tokenId) fun r generated _ =>
      Kept (some tokenizer) s.generatedTokens r.1.generatedTokens generated := by
  unfold decide
  split_ifs
  · exact .pure fun _ => ⟨rfl, fun _ => rfl⟩
  · refine .settled fun text _ => ?_
    refine (Records.publish (P := fun _ generated _ => generated = 1) (fun _ => rfl) rfl rfl fun _ => rfl).bind
      fun _ generated _ h => ?_
    subst h
    exact .pure fun _ => ⟨List.length_append, fun h => by cases h⟩

theorem sendDecision_records (decision : PipelineDecision) (destination : Nat) :
    Records (self.sendDecision rank step decision destination) fun _ generated _ => generated = 0 := by
  unfold sendDecision
  exact .settled fun tag _ => sendControl_records rank _ _ tag _ _ step

theorem lead_records (tokenizer : Tokenizer) :
    Records (self.lead rank assignment tokenizer step s) fun r generated _ =>
      Kept (some tokenizer) s.generatedTokens r.1.generatedTokens generated := by
  unfold lead
  refine .settled fun tag _ => ?_
  refine (recvControl_records rank self.codec _ tag _ step).before fun control => ?_
  refine .settled fun tokenId _ => ?_
  refine (self.decide_records s tokenizer tokenId).bind fun r generated _ hr => ?_
  refine (Records.forM (fun destination => self.sendDecision_records rank step r.2 destination) _).bind
    fun _ generated' _ h => ?_
  subst h
  exact .pure fun _ => hr

theorem follow_records : Records (self.follow rank step) fun _ generated _ => generated = 0 := by
  unfold follow
  refine .settled fun tag _ => ?_
  refine (recvControl_records rank self.codec _ tag _ step).before fun control => ?_
  exact .settle fun _ _ _ => rfl

theorem agree_records (tokenizer : Option Tokenizer) :
    Records (self.agree rank assignment tokenizer step s) fun r generated _ =>
      Kept tokenizer s.generatedTokens r.1.generatedTokens generated := by
  cases tokenizer with
  | some tokenizer => exact self.lead_records rank assignment step s tokenizer
  | none => exact (self.follow_records rank step).before fun decision => .pure fun _ => ⟨rfl, fun _ => rfl⟩

theorem generationStep_records (tokenizer : Option Tokenizer) :
    Records (self.generationStep rank assignment stage tokenizer step s) fun r generated _ =>
      Kept tokenizer s.generatedTokens r.1.generatedTokens generated := by
  have hquiet : ∀ {o o' : RunEventKind} {p : RunEventKind → Prop}, p o → p o' →
      p (if step = 0 then o else o') := by
    intro o o' p ho ho'
    split_ifs
    · exact ho
    · exact ho'
  unfold generationStep
  refine .published (hquiet (p := fun o => ∀ s : CommunicationReport, s.record o = s) (fun _ => rfl)
    fun _ => rfl) (hquiet (p := fun o => o.sent = none) rfl rfl)
    (hquiet (p := fun o => o.sentBytes = 0) rfl rfl) (hquiet (p := fun o => o.tokens = 0) rfl rfl) ?_
  refine (self.forward_records rank assignment stage step s).before fun r => ?_
  refine (self.passOn_records rank assignment stage step r.1).before fun _ => ?_
  refine (self.agree_records rank assignment step _ tokenizer).bind fun r generated _ hr => ?_
  refine .published (hquiet (p := fun o => ∀ s : CommunicationReport, s.record o = s) (fun _ => rfl)
    fun _ => rfl) (hquiet (p := fun o => o.sent = none) rfl rfl)
    (hquiet (p := fun o => o.sentBytes = 0) rfl rfl) (hquiet (p := fun o => o.tokens = 0) rfl rfl) ?_
  exact .published (fun _ => rfl) rfl rfl rfl (.pure fun _ => hr)

theorem generationLoop_records (tokenizer : Option Tokenizer) (passes : Nat) :
    Records (self.generationLoop rank assignment stage tokenizer passes step s) fun r generated _ =>
      Kept tokenizer s.generatedTokens r.1.generatedTokens generated := by
  induction passes generalizing step s with
  | zero => exact fun s => Achieves.throw
  | succ passes ih =>
    unfold generationLoop
    refine (self.generationStep_records rank assignment stage step s tokenizer).bind
      fun r generated _ hr => ?_
    obtain ⟨s', decision⟩ := r
    cases decision with
    | continueGeneration => exact (ih (step + 1) s').imp fun r generated' _ hr' => hr.trans hr'
    | stop reason => exact .pure fun _ => hr

theorem openTokenizer_none {tokenizer : Option Tokenizer}
    (h : self.openTokenizer assignment = .ok tokenizer) (hrank : assignment.rank ≠ 0) : tokenizer = none := by
  rw [openTokenizer, if_neg hrank] at h
  exact (Except.ok.inj h).symm

section Run

variable [Zero α]

/-- What a rank that succeeds reports is what its events show. Only rank 0 has tokens. -/
structure Accounted (os : List RunEventKind) (outcome : PipelineRankOutcome) : Prop where
  admitted : admitRank rank.val world self.manifest (self.resources rank) =
    .ok (outcome.assignment, outcome.memory)
  communication : outcome.communication = os.foldl CommunicationReport.record {}
  sent : sentBytes os = ShownMessage.total (fun message => message.tensorBytes + message.controlBytes)
    (os.filterMap RunEventKind.sent)
  tokens : tokens os = outcome.generatedTokens.length
  root : outcome.assignment.rank ≠ 0 → outcome.generatedTokens = []

theorem run_records : Records (self.runPipelineRank rank) fun outcome generated s =>
    admitRank rank.val world self.manifest (self.resources rank) =
        .ok (outcome.assignment, outcome.memory) ∧
      outcome.communication = s ∧ outcome.generatedTokens.length = generated ∧
      (outcome.assignment.rank ≠ 0 → outcome.generatedTokens = []) := by
  unfold runPipelineRank
  refine .settled fun r hadmitted => ?_
  obtain ⟨assignment, memory⟩ := r
  refine .settled fun _ _ => ?_
  refine .published (fun _ => rfl) rfl rfl rfl (.published (fun _ => rfl) rfl rfl rfl ?_)
  refine .settled fun r _ => ?_
  obtain ⟨stage, cache⟩ := r
  refine .published (fun _ => rfl) rfl rfl rfl (.published (fun _ => rfl) rfl rfl rfl ?_)
  refine (observedBarrier_records rank 0 0).before fun generation => ?_
  refine .settled fun tokenizer htokenizer => ?_
  refine (self.generationLoop_records rank assignment stage 0 _ tokenizer _).bind fun r generated _ hr => ?_
  obtain ⟨g, stopReason⟩ := r
  obtain ⟨hlength, hnone⟩ := hr
  refine .settled fun completion _ => ?_
  refine .published (fun _ => rfl) rfl rfl rfl ?_
  refine (observedBarrier_records rank 1 generation).before fun _ => ?_
  refine .settled fun finalKvCacheBytes _ => ?_
  refine .counted fun s => ⟨hadmitted, rfl, ?_, fun hrank => hnone ?_⟩
  · rw [hlength, List.length_nil, Nat.zero_add]
    rfl
  · exact self.openTokenizer_none assignment htokenizer hrank

/-- Every run of a rank that ends well is accounted for by its events. -/
theorem run_accounted : Achieves (self.runPipelineRank rank) {} fun os outcome _ =>
    self.Accounted rank os outcome := by
  refine (self.run_records rank {}).imp fun os outcome s h => ?_
  obtain ⟨generated, hrecorded, hadmitted, hcommunication, hlength, hroot⟩ := h
  exact ⟨hadmitted, hcommunication.trans hrecorded.counted, hrecorded.sent,
    hrecorded.tokens.trans hlength.symm, hroot⟩

end Run

end PipelineWorld

end Dlir.Pipeline
