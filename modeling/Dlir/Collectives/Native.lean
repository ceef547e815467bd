import Dlir.Collectives.Transport

namespace Dlir.Collectives

open Dlir.Framework Dlir.Math

/-- Native algorithm selected for all-reduce. -/
inductive AllReduceAlgorithm
  | centralized
  | ring
  deriving DecidableEq, Repr

/-- Collective operation identity used by traces and reports. -/
inductive CollectiveKind
  | broadcast
  | allGather
  | reduce
  | allReduce
  | reduceScatter
  | allToAll
  deriving DecidableEq, Repr

namespace CollectiveKind

def tagId : CollectiveKind → Nat
  | broadcast => 1
  | allGather => 2
  | reduce => 3
  | allReduce => 4
  | reduceScatter => 5
  | allToAll => 6

/-- The `Debug` rendering of a kind. -/
def name : CollectiveKind → String
  | broadcast => "Broadcast"
  | allGather => "AllGather"
  | reduce => "Reduce"
  | allReduce => "AllReduce"
  | reduceScatter => "ReduceScatter"
  | allToAll => "AllToAll"

end CollectiveKind

/-- Concrete algorithm recorded for one collective call. -/
inductive CollectiveAlgorithm
  | direct
  | centralized
  | pairwise
  | ring
  deriving DecidableEq, Repr

/-- Metadata emitted immediately before a collective starts. -/
structure CollectiveDescriptor where
  sequence : Nat
  kind : CollectiveKind
  algorithm : CollectiveAlgorithm
  root : Option Nat
  axis : Option Nat
  inputShape : List Nat
  inputBytes : Nat
  deriving DecidableEq, Repr

/-- Completed collective trace with rank-local communication accounting. -/
structure CollectiveTrace where
  descriptor : CollectiveDescriptor
  outputShape : Option (List Nat)
  sentBytes : Nat
  receivedBytes : Nat
  deriving DecidableEq, Repr

/-- Notifications of the live observer. -/
inductive CollectiveEvent
  | started (descriptor : CollectiveDescriptor)
  | completed (trace : CollectiveTrace)
  deriving DecidableEq, Repr

/-- The mutable part of the native backend. -/
structure NativeCollectives where
  nextSequence : Nat
  traces : List CollectiveTrace
  deriving DecidableEq, Repr

def NativeCollectives.new : NativeCollectives := ⟨0, []⟩

/-- The fixed part of the native backend: its communicator and its observer. -/
structure Endpoint (world : Nat) (ω : Type) where
  backend : Backend
  rank : Rank world
  observer : CollectiveEvent → ω

def collectiveTagBase : Nat := 0x4000_0000_0000_0000
def collectiveTagLimit : Nat := 0x5000_0000_0000_0000
def tagSequenceStride : Nat := 1 <<< 16

def collectiveTag (sequence : Nat) (kind : CollectiveKind) (phase step : Nat) :
    Except CollectivesError MessageTag :=
  if phase > 0x0f ∨ step > 255 then
    .error (.collective "collective phase or step exceeds tag capacity")
  else
    let tag := do
      let value ← checkedMul sequence tagSequenceStride
      let value ← checkedAdd value (kind.tagId <<< 12)
      let value ← checkedAdd value (phase <<< 8)
      let value ← checkedAdd value step
      checkedAdd value collectiveTagBase
    match tag.filter (· < collectiveTagLimit) with
    | some value => .ok ⟨.ofNat value⟩
    | none => .error (.collective "collective message-tag overflow")

section Checks

variable {world : Nat} {α : Type}

def validateRoot (rank : Rank world) (root : Nat) : Except CollectivesError Unit :=
  if root ≥ rank.worldSize then
    .error (.collective s!"root rank {root} is outside world size {rank.worldSize}")
  else .ok ()

def validateAxis (tensor : Tensor α) (axis : Nat) : Except CollectivesError Unit :=
  if axis ≥ tensor.rank then
    .error (.collective s!"axis {axis} is outside tensor rank {tensor.rank}")
  else .ok ()

def ensureF32Cpu (tensor : Tensor α) : Except CollectivesError Unit := do
  let _ ← TensorPacket.fromTensor tensor
  .ok ()

def requireSameShape (expected actual : Tensor α) (kind : CollectiveKind) :
    Except CollectivesError Unit :=
  if expected.shape ≠ actual.shape then
    .error (.collective
      s!"{kind.name} expected shape {expected.shape}, received {actual.shape}")
  else .ok ()

def requireGatherShape (expected actual : Tensor α) (axis : Nat) :
    Except CollectivesError Unit :=
  if !Tensor.sameExcept axis expected.shape actual.shape then
    .error (.collective
      s!"gather axis {axis} cannot combine shapes {expected.shape} and {actual.shape}")
  else .ok ()

def tensorBytes (tensor : Tensor α) : Except CollectivesError Nat :=
  match checkedMul tensor.elemCount 4 with
  | some bytes => .ok bytes
  | none => .error (.collective "tensor byte count overflow")

/-- Slice indexing, which panics out of range. -/
def nth {β : Type} (xs : List β) (index : Nat) : Except CollectivesError β :=
  match xs[index]? with
  | some x => .ok x
  | none => .error (.collective "index out of bounds")

end Checks

namespace Endpoint

variable {world : Nat} {α ω : Type}

def send (self : Endpoint world ω) (destination : Nat) (tag : MessageTag) (tensor : Tensor α) :
    Comm world α ω Nat := do
  Communicator.sendTensor self.rank destination tag tensor
  liftExcept id (tensorBytes tensor)

def recv (self : Endpoint world ω) (source : Nat) (tag : MessageTag) :
    Comm world α ω (Tensor α × Nat) := do
  let tensor ← Communicator.recvTensor self.backend self.rank source tag
  let bytes ← liftExcept id (tensorBytes tensor)
  pure (tensor, bytes)

/-- The send of an exchange: what the spawned sender would put on the stream. -/
def outbound (self : Endpoint world ω) (destination : Nat) (tag : MessageTag)
    (tensor : Tensor α) : Except CollectivesError (Rank world × WireFrame α) := do
  let packet ← TensorPacket.fromTensor tensor
  let peer ← self.rank.validatePeer destination
  .ok (peer, .tensor self.rank.val destination tag packet)

/-- Sends on a scoped thread while receiving; the send's failure takes precedence. -/
def exchange (self : Endpoint world ω) (destination source : Nat) (sendTag recvTag : MessageTag)
    (tensor : Tensor α) : Comm world α ω (Tensor α × Nat × Nat) := do
  let sendBytes ← liftExcept id (tensorBytes tensor)
  let result ← ExceptT.mk <|
    match self.outbound destination sendTag tensor, self.rank.validatePeer source with
    | .ok (peer, frame), .ok src =>
      Proc.exchange peer frame src (self.backend.selector self.rank src (·.isTensor recvTag))
        fun f => .ret ((Transport.received self.backend self.rank src f).bind (·.toTensor))
    | .ok (peer, frame), .error e => .send peer frame (.ret (.error e))
    | .error e, .ok src =>
      .recv src (self.backend.selector self.rank src (·.isTensor recvTag))
        fun _ => .ret (.error e)
    | .error e, .error _ => .ret (.error e)
  let receivedBytes ← liftExcept id (tensorBytes result)
  pure (result, sendBytes, receivedBytes)

/-- Receives one contribution and adds it to the running sum. -/
def accumulate [Add α] (self : Endpoint world ω) (kind : CollectiveKind) (tag : MessageTag)
    (tensor : Tensor α) (acc : Tensor α × Nat) (source : Nat) :
    Comm world α ω (Tensor α × Nat) := do
  let (incoming, bytes) ← self.recv source tag
  liftExcept id (requireSameShape tensor incoming kind)
  let reduced ← liftExcept .tensor (acc.1.add incoming)
  pure (reduced, acc.2 + bytes)

/-- Sends one tensor to each destination and counts the bytes. -/
def sendEach (self : Endpoint world ω) (tag : MessageTag) (shard : Nat → Except CandleError (Tensor α))
    (sent destination : Nat) : Comm world α ω Nat := do
  let tensor ← liftExcept .tensor (shard destination)
  let bytes ← self.send destination tag tensor
  pure (sent + bytes)

def centralizedAllReduce [Add α] (self : Endpoint world ω) (tensor : Tensor α) (sequence : Nat) :
    Comm world α ω (Tensor α × Nat × Nat) := do
  let gatherTag ← liftExcept id (collectiveTag sequence .allReduce 1 0)
  let broadcastTag ← liftExcept id (collectiveTag sequence .allReduce 2 0)
  if self.rank.globalRank = 0 then
    let (reduced, received) ← (List.range' 1 (world - 1)).foldlM
      (self.accumulate .allReduce gatherTag tensor) (tensor, 0)
    let sent ← (List.range' 1 (world - 1)).foldlM
      (self.sendEach broadcastTag fun _ => .ok reduced) 0
    pure (reduced, sent, received)
  else
    let sent ← self.send 0 gatherTag tensor
    let (result, bytes) ← self.recv 0 broadcastTag
    liftExcept id (requireSameShape tensor result .allReduce)
    pure (result, sent, bytes)

/-- The chunks of one rank with its byte counters. -/
abbrev RingState (α : Type) := List (Tensor α) × Nat × Nat

/-- One reduce-scatter step: the chunk received from the left neighbour is added. -/
def ringReduceStep [Add α] (self : Endpoint world ω) (sequence : Nat) (state : RingState α)
    (step : Nat) : Comm world α ω (RingState α) := do
  let (chunks, sent, received) := state
  let rank := self.rank.globalRank
  let next := (rank + 1) % world
  let previous := (rank + world - 1) % world
  let sendIndex := (rank + world - step) % world
  let receiveIndex := (rank + world - step - 1) % world
  let tag ← liftExcept id (collectiveTag sequence .allReduce 1 step)
  let outgoing ← liftExcept id (nth chunks sendIndex)
  let (incoming, sentBytes, receivedBytes) ← self.exchange next previous tag tag outgoing
  let own ← liftExcept id (nth chunks receiveIndex)
  liftExcept id (requireSameShape own incoming .allReduce)
  let sum ← liftExcept .tensor (own.add incoming)
  pure (chunks.set receiveIndex sum, sent + sentBytes, received + receivedBytes)

/-- One all-gather step: the finished chunk received from the left neighbour replaces ours. -/
def ringGatherStep (self : Endpoint world ω) (sequence : Nat) (state : RingState α)
    (step : Nat) : Comm world α ω (RingState α) := do
  let (chunks, sent, received) := state
  let rank := self.rank.globalRank
  let next := (rank + 1) % world
  let previous := (rank + world - 1) % world
  let sendIndex := (rank + 1 + world - step) % world
  let receiveIndex := (rank + world - step) % world
  let tag ← liftExcept id (collectiveTag sequence .allReduce 2 step)
  let outgoing ← liftExcept id (nth chunks sendIndex)
  let (incoming, sentBytes, receivedBytes) ← self.exchange next previous tag tag outgoing
  let own ← liftExcept id (nth chunks receiveIndex)
  liftExcept id (requireSameShape own incoming .allReduce)
  pure (chunks.set receiveIndex incoming, sent + sentBytes, received + receivedBytes)

def ringAllReduce [Add α] (self : Endpoint world ω) (tensor : Tensor α) (sequence : Nat) :
    Comm world α ω (Tensor α × Nat × Nat) := do
  if world = 1 then
    pure (tensor, 0, 0)
  else
    let flattened := tensor.flattenAll
    let elements := flattened.elemCount
    if elements % world ≠ 0 then
      throw (.collective
        s!"ring all-reduce requires {elements} elements to divide evenly across {world} ranks")
    else
      let chunkElements := elements / world
      let chunks ← liftExcept .tensor ((List.range world).mapM fun index =>
        flattened.narrow 0 (index * chunkElements) chunkElements)
      let state ← (List.range (world - 1)).foldlM (self.ringReduceStep sequence) (chunks, 0, 0)
      let (chunks, sent, received) ←
        (List.range (world - 1)).foldlM (self.ringGatherStep sequence) state
      let flat ← liftExcept .tensor (Tensor.cat chunks 0)
      let result ← liftExcept .tensor (flat.reshape tensor.shape)
      pure (result, sent, received)

end Endpoint

end Dlir.Collectives
