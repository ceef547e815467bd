import Dlir.Collectives.Transport
import Dlir.Framework.Reader
import Dlir.Math.Bytes

namespace Dlir.Collectives

open Dlir.Framework Dlir.Math Reader

/-- Wire-protocol version understood by this release. -/
def protocolVersion : Nat := 2

/-- The ASCII bytes of `DLIR`. -/
def wireMagic : List UInt8 := [0x44, 0x4c, 0x49, 0x52]

def tensorKind : UInt8 := 1
def barrierArriveKind : UInt8 := 2
def barrierReleaseKind : UInt8 := 3
def applicationControlKind : UInt8 := 4

def WireFrame.kind {α : Type} : WireFrame α → UInt8
  | .tensor _ _ _ _ => tensorKind
  | .control _ _ _ _ => applicationControlKind
  | .barrierArrive _ _ _ => barrierArriveKind
  | .barrierRelease _ _ _ => barrierReleaseKind

def toU32 (value : Nat) (name : String) : Except CollectivesError Nat :=
  if value < 2 ^ 32 then .ok value else .error (.protocol s!"{name} does not fit u32")

/-- `u64::try_from`, with the message of its failure. -/
def toU64 (value : Nat) (message : String) : Except CollectivesError Nat :=
  if value < 2 ^ 64 then .ok value else .error (.protocol message)

/-- The part of a frame that depends on its kind. An `f32` is its bit pattern. -/
def encodePayload : WireFrame UInt32 → Except CollectivesError (List UInt8)
  | .tensor _ _ tag packet => do
    let dimensions ← toU32 packet.shape.length "dimension count"
    let elements ← toU64 packet.values.length "element count overflow"
    let shape ← packet.shape.mapM fun dimension => toU64 dimension "tensor dimension overflow"
    .ok (leBytes 8 tag.value.toNat ++ leBytes 4 dimensions ++ leBytes 8 elements ++
      shape.flatMap (leBytes 8) ++ packet.values.flatMap fun value => leBytes 4 value.toNat)
  | .control _ _ tag packet => do
    let length ← (if packet.bytes.length < 2 ^ 32 then .ok packet.bytes.length
      else .error (.protocol "control payload length overflow"))
    .ok (leBytes 8 tag.value.toNat ++ leBytes 4 length ++ packet.bytes)
  | .barrierArrive _ _ generation => .ok (leBytes 8 generation.toNat)
  | .barrierRelease _ _ generation => .ok (leBytes 8 generation.toNat)

def encodeWire (frame : WireFrame UInt32) (maximum : UInt64) :
    Except CollectivesError (List UInt8) := do
  let source ← toU32 frame.source "source rank"
  let destination ← toU32 frame.destination "destination rank"
  let payload ← encodePayload frame
  let body := wireMagic ++ leBytes 2 protocolVersion ++ [frame.kind, 0] ++ leBytes 4 source ++
    leBytes 4 destination ++ payload
  if body.length > maximum.toNat then
    .error (.protocol s!"encoded frame is {body.length} bytes, maximum is {maximum}")
  else .ok body

/-- A reader of frame bodies. -/
abbrev Cursor := Reader CollectivesError

def readU8 : Cursor UInt8 := do
  let bytes ← readExact 1 (.io "decode u8")
  pure (bytes.headD 0)

def readU16 : Cursor Nat := leNat <$> readExact 2 (.io "decode u16")
def readU32 : Cursor Nat := leNat <$> readExact 4 (.io "decode u32")
def readU64 : Cursor Nat := leNat <$> readExact 8 (.io "decode u64")

/-- What a tensor frame says about its values. -/
structure TensorHeader where
  tag : Nat
  shape : List Nat
  elements : Nat

/-- The fields of a tensor frame between the two ranks and its values. Only after this is the
buffer of the values allocated. -/
def decodeTensorHeader : Cursor TensorHeader := do
  let tag ← readU64
  let dimensions ← readU32
  if dimensions > 64 then
    throw (.protocol s!"tensor has {dimensions} dimensions; maximum is 64")
  let elements ← readU64
  let shape ← times readU64 dimensions
  let left ← remaining
  let some expectedBytes := checkedMul elements 4
    | throw (.protocol "tensor payload byte count overflow")
  if left ≠ expectedBytes then
    throw (.protocol s!"tensor declares {elements} values but carries {left} payload bytes")
  pure ⟨tag, shape, elements⟩

/-- The fields of a tensor frame after the two ranks. -/
def decodeTensor (source destination : Nat) : Cursor (WireFrame UInt32) := do
  let header ← decodeTensorHeader
  let values ← times readU32 header.elements
  let packet ← check (TensorPacket.new header.shape (values.map UInt32.ofNat))
  pure (.tensor source destination ⟨.ofNat header.tag⟩ packet)

/-- The fields of a control frame after the two ranks. -/
def decodeControl (source destination : Nat) : Cursor (WireFrame UInt32) := do
  let tag ← readU64
  let length ← readU32
  let left ← remaining
  if left ≠ length then
    throw (.protocol s!"control frame declares {length} bytes but carries {left}")
  let bytes ← readExact length (.io "decode control payload")
  let packet ← check (ControlPacket.new bytes)
  pure (.control source destination ⟨.ofNat tag⟩ packet)

/-- The part of a frame that depends on its kind. -/
def decodePayload (kind : UInt8) (source destination : Nat) : Cursor (WireFrame UInt32) :=
  if kind = tensorKind then decodeTensor source destination
  else if kind = applicationControlKind then decodeControl source destination
  else if kind = barrierArriveKind then do
    let generation ← readU64
    pure (.barrierArrive source destination (.ofNat generation))
  else if kind = barrierReleaseKind then do
    let generation ← readU64
    pure (.barrierRelease source destination (.ofNat generation))
  else throw (.protocol s!"unknown frame kind {kind}")

def decodeFrame : Cursor (WireFrame UInt32) := do
  let magic ← readExact 4 (.io "read frame magic")
  if magic ≠ wireMagic then
    throw (.protocol "invalid frame magic")
  let version ← readU16
  if version ≠ protocolVersion then
    throw (.protocol s!"frame protocol {version}, expected {protocolVersion}")
  let kind ← readU8
  let _reserved ← readU8
  let source ← readU32
  let destination ← readU32
  decodePayload kind source destination

def decodeWire (body : List UInt8) : Except CollectivesError (WireFrame UInt32) := do
  let (frame, rest) ← decodeFrame.run body
  if rest ≠ [] then .error (.protocol "frame contains trailing bytes") else .ok frame

/-- The bytes one call puts on the stream. -/
def writeWire (maximum : UInt64) (frame : WireFrame UInt32) :
    Except CollectivesError (List UInt8) := do
  let body ← encodeWire frame maximum
  .ok (leBytes 8 body.length ++ body)

/-- Takes one frame from the stream. -/
def readWire (maximum : UInt64) : Cursor (WireFrame UInt32) := do
  let length ← leNat <$> readExact 8 (.io "read TCP frame length")
  if length > maximum.toNat then
    throw (.protocol s!"incoming frame is {length} bytes, maximum is {maximum}")
  let body ← readExact length (.io "read TCP frame body")
  check (decodeWire body)

end Dlir.Collectives
