import Dlir.Collectives.WireExact
import Dlir.Framework.Accounting

namespace Dlir.Collectives

open Dlir.Framework Dlir.Math Reader

/-! Endpoints of both backends as programs use them: calls that send and receive packets over
channels. A TCP channel holds bytes. -/

namespace TcpTransport

/-- Takes one frame from the stream when all of its bytes are there. A frame that cannot be
decoded is gone from the stream as well. -/
def popWire (maximum : UInt64) (stream : List UInt8) :
    Option (Except CollectivesError (WireFrame UInt32) × List UInt8) :=
  if stream.length < 8 then none
  else
    let length := leNat (stream.take 8)
    if length > maximum.toNat then
      some (.error (.protocol s!"incoming frame is {length} bytes, maximum is {maximum}"),
        stream.drop 8)
    else if stream.length < 8 + length then none
    else some (decodeWire ((stream.drop 8).take length), stream.drop (8 + length))

/-- The stream holds the frames one after the other. -/
def Carries (maximum : UInt64) (stream : List UInt8) (frames : List (WireFrame UInt32)) : Prop :=
  ∃ chunks, List.Forall₂ (fun frame bytes => writeWire maximum frame = .ok bytes) frames chunks ∧
    stream = chunks.flatten

theorem popWire_body {maximum : UInt64} {body : List UInt8} (hmax : body.length ≤ maximum.toNat)
    (rest : List UInt8) :
    popWire maximum (leBytes 8 body.length ++ body ++ rest) = some (decodeWire body, rest) := by
  have hbound := maximum.toNat_lt
  have hlen : (leBytes 8 body.length).length = 8 := length_leBytes 8 _
  have htake : (leBytes 8 body.length ++ body ++ rest).take 8 = leBytes 8 body.length := by
    rw [List.append_assoc, List.take_append_of_le_length (by omega), List.take_of_length_le (by omega)]
  have hdrop : (leBytes 8 body.length ++ body ++ rest).drop 8 = body ++ rest := by
    rw [List.append_assoc, List.drop_append_of_le_length (by omega), List.drop_of_length_le (by omega)]
    rfl
  have hvalue : leNat (leBytes 8 body.length) = body.length := leNat_leBytes (by omega)
  unfold popWire
  simp only [htake, hvalue]
  rw [if_neg (by simp [hlen]), if_neg (by omega), if_neg (by simp [hlen]), ← List.drop_drop,
    hdrop]
  simp

/-- The stream of bytes between two ranks. It takes any number of them, so that a write is only late
when it begins after its deadline. -/
def link (maximum : UInt64) : Link (WireFrame UInt32) CollectivesError where
  Chan := List UInt8
  empty := []
  push stream frame := (writeWire maximum frame).map (stream ++ ·)
  pop := popWire maximum
  cut := List.drop
  overdue := some (.protocol "TCP write deadline expired")
  Good := WireFrame.Readable
  Carries := Carries maximum
  carries_empty := ⟨[], .nil, rfl⟩
  carries_push := by
    rintro stream frames frame stream' ⟨chunks, hall, rfl⟩ hpush
    cases hwrite : writeWire maximum frame with
    | error e =>
      rw [hwrite] at hpush
      cases hpush
    | ok bytes =>
      rw [hwrite] at hpush
      obtain rfl := Except.ok.inj hpush
      exact ⟨chunks ++ [bytes], List.rel_append hall (.cons hwrite .nil), by simp⟩
  pop_nil := by
    rintro stream ⟨chunks, hall, rfl⟩
    cases hall
    rfl
  pop_cons := by
    rintro stream frame frames ⟨chunks, hall, rfl⟩
    cases hall with
    | @cons _ bytes _ chunks hwrite hrest =>
      obtain ⟨body, hbody, hbytes⟩ := ok_of_bind hwrite
      obtain rfl := Except.ok.inj hbytes
      refine ⟨decodeWire body, chunks.flatten, ?_, ⟨chunks, hrest, rfl⟩, ?_⟩
      · rw [List.flatten_cons]
        exact popWire_body (length_of_encodeWire hbody) _
      · intro hread
        exact (decodeWire_encodeWire hbody hread).1
  cut_zero _ := rfl

/-- What is sent has been encoded. -/
theorem writeWire_of_push {maximum : UInt64} {stream stream' : (link maximum).Chan}
    {frame : WireFrame UInt32} (h : (link maximum).push stream frame = .ok stream') :
    ∃ bytes, writeWire maximum frame = .ok bytes := by
  change (writeWire maximum frame).map _ = _ at h
  cases hwrite : writeWire maximum frame with
  | error e =>
    rw [hwrite] at h
    cases h
  | ok bytes => exact ⟨bytes, rfl⟩

end TcpTransport

theorem takeFirst_none {β : Type} {want : β → Bool} {xs : List β} (h : takeFirst want xs = none) :
    ∀ x ∈ xs, want x = false := by
  induction xs with
  | nil => simp
  | cons y ys ih =>
    rw [takeFirst] at h
    split_ifs at h with hy
    rw [Option.map_eq_none_iff] at h
    intro x hx
    rcases List.mem_cons.mp hx with rfl | hx
    · simpa using hy
    · exact ih h x hx

theorem takeFirst_some {β : Type} {want : β → Bool} {xs rest : List β} {m : β}
    (h : takeFirst want xs = some (m, rest)) : want m = true ∧ ∃ front back,
      xs = front ++ m :: back ∧ (∀ x ∈ front, want x = false) ∧ rest = front ++ back := by
  induction xs generalizing rest with
  | nil => cases h
  | cons y ys ih =>
    rw [takeFirst] at h
    split_ifs at h with hy
    · obtain ⟨rfl, rfl⟩ := Prod.mk.inj (Option.some.inj h)
      exact ⟨hy, [], ys, rfl, by simp, rfl⟩
    · obtain ⟨⟨m', rest'⟩, htake, heq⟩ := Option.map_eq_some_iff.mp h
      obtain ⟨rfl, rfl⟩ := Prod.mk.inj heq
      obtain ⟨hm, front, back, rfl, hfront, rfl⟩ := ih htake
      refine ⟨hm, y :: front, back, rfl, ?_, rfl⟩
      intro x hx
      rcases List.mem_cons.mp hx with rfl | hx
      · simpa using hy
      · exact hfront x hx

/-- What a pending queue holds of one source. -/
def InMemoryTransport.contents (world : Nat) (α : Type) :
    (InMemoryTransport.mailbox world α).Contents fun i f => f.source = i.val where
  of q i := q.filter (·.source == i.val)
  of_empty _ := rfl
  of_park := by
    intro q i m hm
    funext j
    apply (List.filter_append (p := (·.source == j.val)) q [m]).trans
    by_cases hj : j = i
    · subst hj
      simp [hm]
    · have hne : ¬ m.source = j.val := by
        rw [hm]
        exact fun h => hj (Fin.ext h.symm)
      simp [hne, Function.update_of_ne hj]
  take_none := by
    intro q i want h m hm
    obtain ⟨hmem, hsource⟩ := List.mem_filter.mp hm
    have hnone := takeFirst_none h m hmem
    rw [hsource] at hnone
    simpa using hnone
  take_some := by
    intro q i want m q' h
    obtain ⟨hm, front, back, rfl, hfront, rfl⟩ := takeFirst_some h
    rw [Bool.and_eq_true] at hm
    refine ⟨hm.2, front.filter (·.source == i.val), back.filter (·.source == i.val), ?_, ?_, ?_⟩
    · simp [hm.1]
    · intro x hx
      obtain ⟨hmem, hsource⟩ := List.mem_filter.mp hx
      have hnone := hfront x hmem
      rw [hsource] at hnone
      simpa using hnone
    · funext j
      by_cases hj : j = i
      · subst hj
        simp
      · have hne : ¬ m.source = j.val := by
          rw [beq_iff_eq.mp hm.1]
          exact fun h => hj (Fin.ext h.symm)
        simp [hne, Function.update_of_ne hj]

def TcpTransport.contents (world : Nat) (α : Type) :
    (TcpTransport.mailbox world α).Contents fun i f => f.source = i.val where
  of q i := q i
  of_empty _ := rfl
  of_park _ _ _ _ := rfl
  take_none := by
    intro q i want h
    exact takeFirst_none (Option.map_eq_none_iff.mp h)
  take_some := by
    intro q i want m q' h
    obtain ⟨⟨m', rest⟩, htake, heq⟩ := Option.map_eq_some_iff.mp h
    obtain ⟨rfl, rfl⟩ := Prod.mk.inj heq
    obtain ⟨hm, front, back, hq, hfront, rfl⟩ := takeFirst_some htake
    exact ⟨hm, front, back, hq, hfront, rfl⟩

namespace Backend

def link (maximum : UInt64) : Backend → Link (WireFrame UInt32) CollectivesError
  | inMemory => Link.queue _ _
  | tcp => TcpTransport.link maximum

def contents (world : Nat) (α : Type) : (backend : Backend) →
    (backend.mailbox world α).Contents fun i f => f.source = i.val
  | inMemory => InMemoryTransport.contents world α
  | tcp => TcpTransport.contents world α

end Backend

/-- What a receive can ask for. -/
inductive Key
  | tensor (tag : MessageTag)
  | control (tag : MessageTag)
  | barrier
  deriving DecidableEq, Repr

def WireFrame.key {α : Type} : WireFrame α → Key
  | .tensor _ _ tag _ => .tensor tag
  | .control _ _ tag _ => .control tag
  | .barrierArrive _ _ _ => .barrier
  | .barrierRelease _ _ _ => .barrier

/-- The calls by which a program exchanges packets. -/
inductive MessageCall (α : Type)
  | send (destination : Nat) (tag : MessageTag) (packet : TensorPacket α)
  | recv (source : Nat) (tag : MessageTag)
  | sendControl (destination : Nat) (tag : MessageTag) (packet : ControlPacket)
  | recvControl (source : Nat) (tag : MessageTag)

/-- What a call returns when it succeeds. -/
inductive Answer (α : Type)
  | done
  | tensor (packet : TensorPacket α)
  | control (packet : ControlPacket)

def Transport.perform {world : Nat} {α ω : Type} (backend : Backend) (rank : Rank world) :
    MessageCall α → Comm world α ω (Answer α)
  | .send destination tag packet => do
    Transport.send rank destination tag packet
    pure .done
  | .recv source tag => do
    let packet ← Transport.recv backend rank source tag
    pure (.tensor packet)
  | .sendControl destination tag packet => do
    Transport.sendControl rank destination tag packet
    pure .done
  | .recvControl source tag => do
    let packet ← Transport.recvControl backend rank source tag
    pure (.control packet)

/-- A call that exchanges a packet, or one of the other operations of an endpoint. -/
inductive Operation (α β : Type)
  | message (call : MessageCall α)
  | other (b : β)

section Endpoint

variable {world : Nat} {β : Type} (backend : Backend) (maximum : UInt64)
  (special : Rank world → Nat → β → Comm world UInt32 Unit Nat)

/-- The endpoints of a world. Their local state is the generation of the barrier; `special` is the
code of the operations other than messages. -/
abbrev endpoint : Service (Rank world) (WireFrame UInt32) CollectivesError where
  box := backend.mailbox world UInt32
  link := backend.link maximum
  Op := Operation UInt32 β
  Answer := Answer UInt32
  Local := Nat
  start := 0
  code rank generation
    | .message call => (Transport.perform backend rank call).run.bind fun r =>
        .ret (r.map fun answer => (answer, generation))
    | .other b => (special rank generation b).run.bind fun r =>
        .ret (r.map fun next => (.done, next))
  expired rank generation
    | .message (.recv source tag) => some (.receiveTimeout rank.val source tag.value)
    | .message (.recvControl source tag) => some (.receiveTimeout rank.val source tag.value)
    | .message (.send _ _ _) => none
    | .message (.sendControl _ _ _) => none
    | .other _ => some (.barrierTimeout rank.val generation)

end Endpoint

namespace MessageCall

/-- The rank at the other end. -/
def peer {α : Type} : MessageCall α → Nat
  | send destination _ _ => destination
  | recv source _ => source
  | sendControl destination _ _ => destination
  | recvControl source _ => source

/-- The frame that a call sends. -/
def frame {α : Type} (rank : Nat) : MessageCall α → Option (WireFrame α)
  | send destination tag packet => some (.tensor rank destination tag packet)
  | sendControl destination tag packet => some (.control rank destination tag packet)
  | _ => none

/-- What a call waits for. -/
def wants {α : Type} : MessageCall α → Option Key
  | recv _ tag => some (.tensor tag)
  | recvControl _ tag => some (.control tag)
  | _ => none

end MessageCall

/-- The answer that a frame gives to the call that asked for it. -/
def WireFrame.answer {α : Type} : WireFrame α → Answer α
  | .tensor _ _ _ packet => .tensor packet
  | .control _ _ _ packet => .control packet
  | .barrierArrive _ _ _ => .done
  | .barrierRelease _ _ _ => .done

/-- The frame travels from one rank to another. -/
def WireFrame.Between {world : Nat} {α : Type} (i j : Rank world) (f : WireFrame α) : Prop :=
  f.source = i.val ∧ f.destination = j.val

/-- Code that sends barrier frames only and looks for nothing else in its pending queue. -/
def Quiet {world : Nat} {β : Type} (backend : Backend) (maximum : UInt64)
    (special : Rank world → Nat → β → Comm world UInt32 Unit Nat) : Prop :=
  ∀ i g b, ((endpoint backend maximum special).code i g (.other b)).Sound
    (fun j f => f.Between i j ∧ f.key = .barrier)
    fun _ sel => ∀ f, sel.stored f = decide (f.key = .barrier)

section Code

variable {world : Nat} {β : Type} {backend : Backend} {maximum : UInt64}
  {special : Rank world → Nat → β → Comm world UInt32 Unit Nat} {i j : Rank world} {g : Nat}
  {call : MessageCall UInt32}

theorem code_invalid {e : CollectivesError} (h : i.validatePeer call.peer = .error e) :
    (endpoint backend maximum special).code i g (.message call) = .ret (.error e) := by
  cases call <;> simp only [MessageCall.peer] at h <;>
    simp [endpoint, Transport.perform, Transport.send, Transport.recv, Transport.sendControl,
      Transport.recvControl, liftExcept, h] <;> rfl

theorem code_send {f : WireFrame UInt32} (h : i.validatePeer call.peer = .ok j)
    (hf : call.frame i.val = some f) :
    (endpoint backend maximum special).code i g (.message call) =
      .send j f (.ret (.ok (.done, g))) := by
  cases call <;> simp only [MessageCall.peer, MessageCall.frame] at h hf <;> cases hf <;>
    simp [endpoint, Transport.perform, Transport.send, Transport.sendControl, liftExcept, h] <;> rfl

theorem Backend.misaddressed_between {f : WireFrame UInt32} (h : f.Between j i) :
    backend.misaddressed i j f = false := by
  cases backend <;> simp [misaddressed, h.1, h.2]

theorem code_recv_tensor {source : Nat} {tag : MessageTag} (h : i.validatePeer source = .ok j) :
    (endpoint backend maximum special).code i g (.message (.recv source tag)) =
      .recv j (backend.selector i j (·.isTensor tag)) fun f =>
        .ret ((Transport.received backend i j f).map fun packet => (.tensor packet, g)) := by
  simp only [endpoint, Transport.perform, Transport.recv, liftExcept, h]
  show Proc.recv _ _ _ = Proc.recv _ _ _
  congr
  funext f
  cases hreceived : Transport.received backend i j f <;> simp [hreceived] <;> rfl

theorem code_recv_control {source : Nat} {tag : MessageTag} (h : i.validatePeer source = .ok j) :
    (endpoint backend maximum special).code i g (.message (.recvControl source tag)) =
      .recv j (backend.selector i j (·.isControl tag)) fun f =>
        .ret ((Transport.receivedControl backend i j f).map fun packet => (.control packet, g)) := by
  simp only [endpoint, Transport.perform, Transport.recvControl, liftExcept, h]
  show Proc.recv _ _ _ = Proc.recv _ _ _
  congr
  funext f
  cases hreceived : Transport.receivedControl backend i j f <;> simp [hreceived] <;> rfl

/-- A receive takes the first frame with its key, whether it was stored or comes from the
channel, and returns its packet. -/
theorem code_recv {key : Key} (h : i.validatePeer call.peer = .ok j)
    (hkey : call.wants = some key) : ∃ sel k,
    (endpoint backend maximum special).code i g (.message call) = .recv j sel k ∧
    (∀ f, sel.stored f = decide (f.key = key)) ∧
    (∀ f, f.Between j i → sel.fresh f = sel.stored f) ∧ (∀ f, ∃ r, k f = .ret r) ∧
    ∀ f, f.Between j i → f.key = key → k f = .ret (.ok (f.answer, g)) := by
  cases call with
  | send destination tag packet => cases hkey
  | sendControl destination tag packet => cases hkey
  | recv source tag =>
    obtain rfl := Option.some.inj hkey
    refine ⟨_, _, code_recv_tensor h, ?_, ?_, fun f => ⟨_, rfl⟩, ?_⟩
    · intro f
      cases f <;> simp [Backend.selector, WireFrame.isTensor, WireFrame.key, beq_eq_decide]
    · intro f hf
      simp [Backend.selector, Backend.misaddressed_between hf]
    · intro f hf hkey
      cases f with
      | tensor s d t packet =>
        simp [Transport.received, Backend.misaddressed_between hf]
        rfl
      | control s d t packet => cases hkey
      | barrierArrive s d n => cases hkey
      | barrierRelease s d n => cases hkey
  | recvControl source tag =>
    obtain rfl := Option.some.inj hkey
    refine ⟨_, _, code_recv_control h, ?_, ?_, fun f => ⟨_, rfl⟩, ?_⟩
    · intro f
      cases f <;> simp [Backend.selector, WireFrame.isControl, WireFrame.key, beq_eq_decide]
    · intro f hf
      simp [Backend.selector, Backend.misaddressed_between hf]
    · intro f hf hkey
      cases f with
      | control s d t packet =>
        simp [Transport.receivedControl, Backend.misaddressed_between hf]
        rfl
      | tensor s d t packet => cases hkey
      | barrierArrive s d n => cases hkey
      | barrierRelease s d n => cases hkey

/-- A call either sends or waits. -/
theorem MessageCall.frame_or_wants (call : MessageCall UInt32) (rank : Nat) :
    (∃ f, call.frame rank = some f ∧ call.wants = none ∧ f.source = rank ∧
      f.destination = call.peer ∧ f.key ≠ .barrier) ∨
    ∃ key, call.wants = some key ∧ call.frame rank = none ∧ key ≠ .barrier := by
  cases call with
  | send destination tag packet => exact .inl ⟨_, rfl, rfl, rfl, rfl, by simp [WireFrame.key]⟩
  | sendControl destination tag packet => exact .inl ⟨_, rfl, rfl, rfl, rfl, by simp [WireFrame.key]⟩
  | recv source tag => exact .inr ⟨_, rfl, rfl, by simp⟩
  | recvControl source tag => exact .inr ⟨_, rfl, rfl, by simp⟩

end Code

end Dlir.Collectives
