import Dlir.Collectives.Native

namespace Dlir.Collectives

open Dlir.Framework Dlir.Math

/-- Code of the native backend: it may fail, and its state survives the failure. -/
abbrev Native (world : Nat) (α ω : Type) :=
  ExceptT CollectivesError (StateT NativeCollectives (Proc (Rank world) (WireFrame α) ω))

section

variable {world : Nat} {α ω β : Type}

/-- Code that does not touch the backend's state. -/
def liftComm (x : Comm world α ω β) : Native world α ω β :=
  ExceptT.mk (StateT.lift x.run)

def observe (o : ω) : Native world α ω Unit :=
  ExceptT.mk (StateT.lift (.emit o (.ret (.ok ()))))

end

namespace Endpoint

variable {world : Nat} {α ω : Type}

def begin (self : Endpoint world ω) (kind : CollectiveKind) (algorithm : CollectiveAlgorithm)
    (root axis : Option Nat) (tensor : Tensor α) : Native world α ω CollectiveDescriptor := do
  liftExcept id (ensureF32Cpu tensor)
  let sequence := (← get).nextSequence
  let some next := checkedAdd sequence 1
    | throw (.collective "collective sequence overflow")
  modify fun state => { state with nextSequence := next }
  -- at least the first tag of this sequence must remain in the reserved range
  let _ ← liftExcept id (collectiveTag sequence kind 0 0)
  if let some root := root then
    liftExcept id (validateRoot self.rank root)
  if let some axis := axis then
    liftExcept id (validateAxis tensor axis)
  let inputBytes ← liftExcept id (tensorBytes tensor)
  let descriptor : CollectiveDescriptor :=
    ⟨sequence, kind, algorithm, root, axis, tensor.shape, inputBytes⟩
  observe (self.observer (.started descriptor))
  pure descriptor

def finish (self : Endpoint world ω) (descriptor : CollectiveDescriptor)
    (output : Option (Tensor α)) (sentBytes receivedBytes : Nat) : Native world α ω Unit := do
  let trace : CollectiveTrace :=
    ⟨descriptor, output.map Tensor.shape, sentBytes, receivedBytes⟩
  observe (self.observer (.completed trace))
  modify fun state => { state with traces := state.traces ++ [trace] }

/-- Broadcasts the root tensor to every rank. -/
def broadcast (self : Endpoint world ω) (tensor : Tensor α) (root : Nat) :
    Native world α ω (Tensor α) := do
  let descriptor ← self.begin .broadcast .direct (some root) none tensor
  let (result, sent, received) ← liftComm do
    let tag ← liftExcept id (collectiveTag descriptor.sequence descriptor.kind 0 0)
    if self.rank.globalRank = root then
      let sent ← (List.range world).foldlM (fun sent destination =>
        if destination ≠ root then self.sendEach tag (fun _ => .ok tensor) sent destination
        else pure sent) 0
      pure (tensor, sent, 0)
    else
      let (result, bytes) ← self.recv root tag
      pure (result, 0, bytes)
  self.finish descriptor (some result) sent received
  pure result

/-- Reduces tensors onto `root`; non-root ranks return `none`. -/
def reduce [Add α] (self : Endpoint world ω) (tensor : Tensor α) (root : Nat) :
    Native world α ω (Option (Tensor α)) := do
  let descriptor ← self.begin .reduce .centralized (some root) none tensor
  let (result, sent, received) ← liftComm do
    let tag ← liftExcept id (collectiveTag descriptor.sequence descriptor.kind 0 0)
    if self.rank.globalRank = root then
      let (reduced, received) ← (List.range world).foldlM (fun acc source =>
        if source ≠ root then self.accumulate descriptor.kind tag tensor acc source
        else pure acc) (tensor, 0)
      pure (some reduced, 0, received)
    else
      let sent ← self.send root tag tensor
      pure (none, sent, 0)
  self.finish descriptor result sent received
  pure result

/-- Receives one shard of a gather. -/
def collectShard (self : Endpoint world ω) (tag : MessageTag) (tensor : Tensor α) (axis : Nat)
    (acc : List (Tensor α) × Nat) (source : Nat) : Comm world α ω (List (Tensor α) × Nat) := do
  let (incoming, bytes) ← self.recv source tag
  liftExcept id (requireGatherShape tensor incoming axis)
  pure (acc.1 ++ [incoming], acc.2 + bytes)

/-- The communication of an all-gather. -/
def gatherShards (self : Endpoint world ω) (tensor : Tensor α) (axis : Nat)
    (descriptor : CollectiveDescriptor) : Comm world α ω (Tensor α × Nat × Nat) := do
  let gatherTag ← liftExcept id (collectiveTag descriptor.sequence descriptor.kind 1 0)
  let broadcastTag ← liftExcept id (collectiveTag descriptor.sequence descriptor.kind 2 0)
  if self.rank.globalRank = 0 then
    let (shards, received) ← (List.range' 1 (world - 1)).foldlM
      (self.collectShard gatherTag tensor axis) ([tensor], 0)
    let gathered ← liftExcept .tensor (Tensor.cat shards axis)
    let sent ← (List.range' 1 (world - 1)).foldlM
      (self.sendEach broadcastTag fun _ => .ok gathered) 0
    pure (gathered, sent, received)
  else
    let sent ← self.send 0 gatherTag tensor
    let (gathered, bytes) ← self.recv 0 broadcastTag
    pure (gathered, sent, bytes)

/-- Concatenates equal local shards along `axis` and returns the result to every rank. -/
def allGather (self : Endpoint world ω) (tensor : Tensor α) (axis : Nat) :
    Native world α ω (Tensor α) := do
  let descriptor ← self.begin .allGather .centralized (some 0) (some axis) tensor
  let (result, sent, received) ← liftComm (self.gatherShards tensor axis descriptor)
  self.finish descriptor (some result) sent received
  pure result

/-- Reduces tensors and returns the complete result to every rank. -/
def allReduce [Add α] (self : Endpoint world ω) (tensor : Tensor α)
    (algorithm : AllReduceAlgorithm) : Native world α ω (Tensor α) := do
  let traceAlgorithm := match algorithm with
    | .centralized => CollectiveAlgorithm.centralized
    | .ring => CollectiveAlgorithm.ring
  let root := if algorithm = .centralized then some 0 else none
  let descriptor ← self.begin .allReduce traceAlgorithm root none tensor
  let (result, sent, received) ← liftComm <| match algorithm with
    | .centralized => self.centralizedAllReduce tensor descriptor.sequence
    | .ring => self.ringAllReduce tensor descriptor.sequence
  self.finish descriptor (some result) sent received
  pure result

/-- The communication of a reduce-scatter. -/
def scatterReduced [Add α] (self : Endpoint world ω) (tensor : Tensor α) (axis : Nat)
    (descriptor : CollectiveDescriptor) : Comm world α ω (Tensor α × Nat × Nat) := do
  let gatherTag ← liftExcept id (collectiveTag descriptor.sequence descriptor.kind 1 0)
  let scatterTag ← liftExcept id (collectiveTag descriptor.sequence descriptor.kind 2 0)
  if self.rank.globalRank = 0 then
    let (reduced, received) ← (List.range' 1 (world - 1)).foldlM
      (self.accumulate descriptor.kind gatherTag tensor) (tensor, 0)
    let width ← liftExcept .tensor (reduced.dim axis)
    let chunk := width / world
    let localShard ← liftExcept .tensor (reduced.narrow axis 0 chunk)
    let sent ← (List.range' 1 (world - 1)).foldlM (self.sendEach scatterTag fun destination =>
      reduced.narrow axis (destination * chunk) chunk) 0
    pure (localShard, sent, received)
  else
    let sent ← self.send 0 gatherTag tensor
    let (shard, bytes) ← self.recv 0 scatterTag
    pure (shard, sent, bytes)

/-- Reduces complete tensors and returns one equal shard along `axis` to each rank. -/
def reduceScatter [Add α] (self : Endpoint world ω) (tensor : Tensor α) (axis : Nat) :
    Native world α ω (Tensor α) := do
  let descriptor ← self.begin .reduceScatter .centralized (some 0) (some axis) tensor
  let length ← liftExcept .tensor (tensor.dim axis)
  if length % world ≠ 0 then
    throw (.collective
      s!"reduce-scatter axis {axis} length {length} is not divisible by {world}")
  let (result, sent, received) ← liftComm (self.scatterReduced tensor axis descriptor)
  self.finish descriptor (some result) sent received
  pure result

/-- The shards received so far with the byte counters. -/
abbrev PairwiseState (α : Type) := List (Option (Tensor α)) × Nat × Nat

/-- One pairwise round: the shard for the rank `step` ahead against the one from `step` behind. -/
def pairwiseStep (self : Endpoint world ω) (sequence axis : Nat) (shards : List (Tensor α))
    (state : PairwiseState α) (step : Nat) : Comm world α ω (PairwiseState α) := do
  let (receivedShards, sent, received) := state
  let rank := self.rank.globalRank
  let destination := (rank + step) % world
  let source := (rank + world - step) % world
  let tag ← liftExcept id (collectiveTag sequence .allToAll 0 (step - 1))
  let outgoing ← liftExcept id (nth shards destination)
  let (incoming, sentBytes, receivedBytes) ← self.exchange destination source tag tag outgoing
  liftExcept id (requireGatherShape outgoing incoming axis)
  pure (receivedShards.set source (some incoming), sent + sentBytes, received + receivedBytes)

/-- Unwraps a shard; a missing one is a panic of the source. -/
def expectShard : Option (Tensor α) → Except CollectivesError (Tensor α)
  | some shard => .ok shard
  | none => .error (.collective "every source contributes one all-to-all shard")

/-- The communication of an all-to-all over an axis of this length. -/
def exchangeShards (self : Endpoint world ω) (tensor : Tensor α) (axis length : Nat)
    (descriptor : CollectiveDescriptor) : Comm world α ω (Tensor α × Nat × Nat) := do
  let chunk := length / world
  let shards ← liftExcept .tensor ((List.range world).mapM fun destination =>
    tensor.narrow axis (destination * chunk) chunk)
  let own ← liftExcept id (nth shards self.rank.globalRank)
  let start := (List.replicate world none).set self.rank.globalRank (some own)
  let (receivedShards, sent, received) ← (List.range' 1 (world - 1)).foldlM
    (self.pairwiseStep descriptor.sequence axis shards) (start, 0, 0)
  let parts ← liftExcept id (receivedShards.mapM expectShard)
  let result ← liftExcept .tensor (Tensor.cat parts axis)
  pure (result, sent, received)

/-- Exchanges equal input shards and concatenates received shards in source-rank order. -/
def allToAll (self : Endpoint world ω) (tensor : Tensor α) (axis : Nat) :
    Native world α ω (Tensor α) := do
  let descriptor ← self.begin .allToAll .pairwise none (some axis) tensor
  let length ← liftExcept .tensor (tensor.dim axis)
  if length % world ≠ 0 then
    throw (.collective s!"all-to-all axis {axis} length {length} is not divisible by {world}")
  let (result, sent, received) ← liftComm (self.exchangeShards tensor axis length descriptor)
  self.finish descriptor (some result) sent received
  pure result

end Endpoint

/-- One collective call of a program. -/
inductive Call
  | broadcast (root : Nat)
  | reduce (root : Nat)
  | allGather (axis : Nat)
  | allReduce (algorithm : AllReduceAlgorithm)
  | reduceScatter (axis : Nat)
  | allToAll (axis : Nat)
  deriving DecidableEq, Repr

namespace Endpoint

variable {world : Nat} {α ω : Type}

def perform [Add α] (self : Endpoint world ω) (tensor : Tensor α) :
    Call → Native world α ω (Option (Tensor α))
  | .broadcast root => some <$> self.broadcast tensor root
  | .reduce root => self.reduce tensor root
  | .allGather axis => some <$> self.allGather tensor axis
  | .allReduce algorithm => some <$> self.allReduce tensor algorithm
  | .reduceScatter axis => some <$> self.reduceScatter tensor axis
  | .allToAll axis => some <$> self.allToAll tensor axis

/-- What one call left behind on one rank: its result and the sequence counter after it. -/
structure Outcome (α : Type) where
  result : Except CollectivesError (Option (Tensor α))
  nextSequence : Nat

/-- A rank performs its calls in order; a failed call does not end the program. -/
def runProgram [Add α] (self : Endpoint world ω) :
    List (Call × Tensor α) → NativeCollectives →
      Proc (Rank world) (WireFrame α) ω (List (Outcome α) × NativeCollectives)
  | [], state => .ret ([], state)
  | (call, tensor) :: rest, state =>
    ((self.perform tensor call).run.run state).bind fun (result, state) =>
      (self.runProgram rest state).bind fun (outcomes, final) =>
        .ret (⟨result, state.nextSequence⟩ :: outcomes, final)

end Endpoint

end Dlir.Collectives
