import Dlir.Collectives.Rank
import Dlir.Collectives.Tensor
import Dlir.Framework.World

namespace Dlir.Collectives

open Dlir.Framework

/-- Maximum application control payload accepted by the transport. -/
def maxControlBytes : Nat := 64 * 1024

/-- An owned control-plane payload associated with a source and message tag. -/
@[ext] structure ControlPacket where
  bytes : List UInt8
  bounded : bytes.length ≤ maxControlBytes

def ControlPacket.new (bytes : List UInt8) : Except CollectivesError ControlPacket :=
  if h : bytes.length ≤ maxControlBytes then .ok ⟨bytes, h⟩
  else .error (.protocol
    s!"control payload is {bytes.length} bytes, maximum is {maxControlBytes}")

/-- What one rank can put on the stream to another. The in-memory backend uses the first two. -/
inductive WireFrame (α : Type)
  | tensor (source destination : Nat) (tag : MessageTag) (packet : TensorPacket α)
  | control (source destination : Nat) (tag : MessageTag) (packet : ControlPacket)
  | barrierArrive (source destination : Nat) (generation : UInt64)
  | barrierRelease (source destination : Nat) (generation : UInt64)

namespace WireFrame

variable {α : Type}

def source : WireFrame α → Nat
  | tensor s _ _ _ => s
  | control s _ _ _ => s
  | barrierArrive s _ _ => s
  | barrierRelease s _ _ => s

def destination : WireFrame α → Nat
  | tensor _ d _ _ => d
  | control _ d _ _ => d
  | barrierArrive _ d _ => d
  | barrierRelease _ d _ => d

def isTensor (tag : MessageTag) : WireFrame α → Bool
  | tensor _ _ candidate _ => candidate == tag
  | _ => false

def isControl (tag : MessageTag) : WireFrame α → Bool
  | control _ _ candidate _ => candidate == tag
  | _ => false

def isBarrier : WireFrame α → Bool
  | barrierArrive _ _ _ => true
  | barrierRelease _ _ _ => true
  | _ => false

end WireFrame

/-- Position of the first match in a pending queue, and removal of that entry. -/
def takeFirst {β : Type} (want : β → Bool) : List β → Option (β × List β)
  | [] => none
  | x :: xs => if want x then some (x, xs) else (takeFirst want xs).map fun r => (r.1, x :: r.2)

/-- One pending queue for all sources. -/
def InMemoryTransport.mailbox (world : Nat) (α : Type) :
    Mailbox (Rank world) (WireFrame α) where
  Store := List (WireFrame α)
  empty := []
  take pending src want := takeFirst (fun f => f.source == src.val && want f) pending
  park pending _ f := pending ++ [f]
  take_empty _ _ := rfl

/-- One pending queue for each source. -/
def TcpTransport.mailbox (world : Nat) (α : Type) :
    Mailbox (Rank world) (WireFrame α) where
  Store := Rank world → List (WireFrame α)
  empty := fun _ => []
  take pending src want :=
    (takeFirst want (pending src)).map fun r => (r.1, Function.update pending src r.2)
  park pending src f := Function.update pending src (pending src ++ [f])
  take_empty _ _ := rfl

inductive Backend
  | inMemory
  | tcp
  deriving DecidableEq, Repr

namespace Backend

variable {world : Nat} {α : Type}

def mailbox (world : Nat) (α : Type) : Backend → Mailbox (Rank world) (WireFrame α)
  | inMemory => InMemoryTransport.mailbox world α
  | tcp => TcpTransport.mailbox world α

/-- The TCP reader rejects a frame that does not name the two ends of its stream. -/
def misaddressed (backend : Backend) (rank source : Rank world) (f : WireFrame α) : Bool :=
  match backend with
  | inMemory => false
  | tcp => f.source != source.val || f.destination != rank.val

/-- How a receive for a predicate treats the frames it reads and those kept in pending. -/
def selector (backend : Backend) (rank source : Rank world) (want : WireFrame α → Bool) :
    Selector (WireFrame α) where
  stored := want
  fresh f := backend.misaddressed rank source f || want f

end Backend

/-- Communicating code of one rank that may fail. -/
abbrev Comm (world : Nat) (α ω : Type) :=
  ExceptT CollectivesError (Proc (Rank world) (WireFrame α) ω)

/-- Passes on the failure of a computation without communication. -/
def liftExcept {ε ε' β : Type} {m : Type → Type} [Monad m] (wrap : ε → ε') (x : Except ε β) :
    ExceptT ε' m β := ExceptT.mk (pure (x.mapError wrap))

section Endpoint

variable {world : Nat} {α ω : Type}

def misaddressedError (rank source : Rank world) (f : WireFrame α) : CollectivesError :=
  .protocol s!"rank {rank.val} received frame claiming {f.source} -> {f.destination} on peer {source.val}"

namespace Transport

def send (rank : Rank world) (destination : Nat) (tag : MessageTag) (packet : TensorPacket α) :
    Comm world α ω Unit := do
  let peer ← liftExcept id (rank.validatePeer destination)
  ExceptT.mk (.send peer (.tensor rank.val destination tag packet) (.ret (.ok ())))

/-- The packet of the frame a tensor receive has taken. -/
def received (backend : Backend) (rank source : Rank world) (f : WireFrame α) :
    Except CollectivesError (TensorPacket α) :=
  if backend.misaddressed rank source f then .error (misaddressedError rank source f)
  else match f with
    | .tensor _ _ _ packet => .ok packet
    | _ => .error (.protocol "matched tensor payload")

def recv (backend : Backend) (rank : Rank world) (source : Nat) (tag : MessageTag) :
    Comm world α ω (TensorPacket α) := do
  let peer ← liftExcept id (rank.validatePeer source)
  ExceptT.mk (.recv peer (backend.selector rank peer (·.isTensor tag))
    fun f => .ret (received backend rank peer f))

def sendControl (rank : Rank world) (destination : Nat) (tag : MessageTag)
    (packet : ControlPacket) : Comm world α ω Unit := do
  let peer ← liftExcept id (rank.validatePeer destination)
  ExceptT.mk (.send peer (.control rank.val destination tag packet) (.ret (.ok ())))

/-- The packet of the frame a control receive has taken. -/
def receivedControl (backend : Backend) (rank source : Rank world) (f : WireFrame α) :
    Except CollectivesError ControlPacket :=
  if backend.misaddressed rank source f then .error (misaddressedError rank source f)
  else match f with
    | .control _ _ _ packet => .ok packet
    | _ => .error (.protocol "matched control payload")

def recvControl (backend : Backend) (rank : Rank world) (source : Nat) (tag : MessageTag) :
    Comm world α ω ControlPacket := do
  let peer ← liftExcept id (rank.validatePeer source)
  ExceptT.mk (.recv peer (backend.selector rank peer (·.isControl tag))
    fun f => .ret (receivedControl backend rank peer f))

end Transport

namespace Communicator

/-- Copies and sends one CPU/F32 Candle tensor. -/
def sendTensor (rank : Rank world) (destination : Nat) (tag : MessageTag) (tensor : Tensor α) :
    Comm world α ω Unit := do
  let packet ← liftExcept id (TensorPacket.fromTensor tensor)
  Transport.send rank destination tag packet

/-- Receives and reconstructs a new CPU/F32 Candle tensor. -/
def recvTensor (backend : Backend) (rank : Rank world) (source : Nat) (tag : MessageTag) :
    Comm world α ω (Tensor α) := do
  let packet ← Transport.recv backend rank source tag
  liftExcept id packet.toTensor

end Communicator

end Endpoint

end Dlir.Collectives
