import Dlir.Collectives.Wire
import Dlir.Framework.Results

namespace Dlir.Collectives

open Dlir.Framework Dlir.Math Reader

theorem reads_u8 (byte : UInt8) : Reads readU8 [byte] byte :=
  (Reads.readExact [byte] (CollectivesError.io "decode u8")).bind (Reads.pure byte)

theorem reads_le {width value : Nat} (e : CollectivesError) (h : value < 256 ^ width) :
    Reads (leNat <$> readExact width e) (leBytes width value) value := by
  have hread := (Reads.readExact (leBytes width value) e).map leNat
  rwa [length_leBytes, leNat_leBytes h] at hread

theorem reads_u16 {value : Nat} (h : value < 2 ^ 16) : Reads readU16 (leBytes 2 value) value :=
  reads_le _ (by simpa using h)

theorem reads_u32 {value : Nat} (h : value < 2 ^ 32) : Reads readU32 (leBytes 4 value) value :=
  reads_le _ (by simpa using h)

theorem reads_u64 {value : Nat} (h : value < 2 ^ 64) : Reads readU64 (leBytes 8 value) value :=
  reads_le _ (by simpa using h)

theorem toU32_ok {value result : Nat} {name : String} (h : toU32 value name = .ok result) :
    result = value ∧ value < 2 ^ 32 := by
  unfold toU32 at h
  split_ifs at h with hlt
  exact ⟨(Except.ok.inj h).symm, hlt⟩

theorem toU64_ok {value result : Nat} {message : String} (h : toU64 value message = .ok result) :
    result = value ∧ value < 2 ^ 64 := by
  unfold toU64 at h
  split_ifs at h with hlt
  exact ⟨(Except.ok.inj h).symm, hlt⟩

theorem mapM_toU64_ok {values results : List Nat} {message : String}
    (h : (values.mapM fun value => toU64 value message) = .ok results) :
    results = values ∧ ∀ value ∈ values, value < 2 ^ 64 := by
  have hall := forall₂_of_mapM h
  clear h
  induction hall with
  | nil => simp
  | cons hv _ ih =>
    obtain ⟨rfl, hlt⟩ := toU64_ok hv
    obtain ⟨rfl, hrest⟩ := ih
    exact ⟨rfl, by simpa using ⟨hlt, hrest⟩⟩

section Payload

variable (source destination : Nat) (tag : MessageTag)

omit source destination in
theorem decodeTensorHeader_run {packet : TensorPacket UInt32} (hdims : packet.shape.length ≤ 64)
    (hcount : packet.values.length * 4 < 2 ^ 64) (hshape : ∀ d ∈ packet.shape, d < 2 ^ 64)
    {payload : List UInt8} (hpayload : payload.length = packet.values.length * 4) :
    decodeTensorHeader.run (leBytes 8 tag.value.toNat ++ (leBytes 4 packet.shape.length ++
      (leBytes 8 packet.values.length ++ (packet.shape.flatMap (leBytes 8) ++ payload)))) =
      .ok (⟨tag.value.toNat, packet.shape, packet.values.length⟩, payload) := by
  have htag := reads_u64 tag.value.toNat_lt
  have hdim : Reads readU32 (leBytes 4 packet.shape.length) packet.shape.length :=
    reads_u32 (by omega)
  have helem : Reads readU64 (leBytes 8 packet.values.length) packet.values.length :=
    reads_u64 (by omega)
  have hdims' : ¬ packet.shape.length > 64 := by omega
  have hread := Reads.times (leBytes 8) packet.shape fun d hd => reads_u64 (hshape d hd)
  simp only [decodeTensorHeader, htag.run_bind, hdim.run_bind, if_neg hdims',
    helem.run_bind, hread.run_bind, run_remaining, hpayload, checkedMul_some hcount]
  rw [if_neg (by simp)]
  rfl

theorem decodeTensor_run {packet : TensorPacket UInt32} (hdims : packet.shape.length ≤ 64)
    (hcount : packet.values.length * 4 < 2 ^ 64) (hshape : ∀ d ∈ packet.shape, d < 2 ^ 64) :
    (decodeTensor source destination).run (leBytes 8 tag.value.toNat ++
      leBytes 4 packet.shape.length ++ leBytes 8 packet.values.length ++
      packet.shape.flatMap (leBytes 8) ++
      packet.values.flatMap fun value => leBytes 4 value.toNat) =
      .ok (.tensor source destination tag packet, []) := by
  have hleft : (packet.values.flatMap fun value => leBytes 4 value.toNat).length =
      packet.values.length * 4 := by
    simp [List.length_flatMap]
  have hvalues : Reads (times readU32 packet.values.length)
      (packet.values.flatMap fun value => leBytes 4 value.toNat)
      (packet.values.map UInt32.toNat) := by
    have h := Reads.times (p := readU32) (leBytes 4) (packet.values.map UInt32.toNat)
      fun v hv => by
        obtain ⟨bits, -, rfl⟩ := List.mem_map.mp hv
        exact reads_u32 bits.toNat_lt
    rwa [List.length_map, List.flatMap_map] at h
  have hnew : TensorPacket.new packet.shape
      ((packet.values.map UInt32.toNat).map UInt32.ofNat) = .ok packet := by
    have hbits : (packet.values.map UInt32.toNat).map UInt32.ofNat = packet.values := by
      rw [List.map_map]
      exact List.map_id'' (fun bits => UInt32.ofNat_toNat) _
    rw [hbits]
    exact TensorPacket.new_ok packet.count
  have hheader := decodeTensorHeader_run tag hdims hcount hshape hleft
  simp only [decodeTensor, List.append_assoc]
  rw [run_bind_ok hheader]
  rw [hvalues.run_bind_nil, run_check_ok hnew, UInt64.ofNat_toNat]
  rfl

theorem decodeControl_run (packet : ControlPacket) :
    (decodeControl source destination).run (leBytes 8 tag.value.toNat ++
      leBytes 4 packet.bytes.length ++ packet.bytes) =
      .ok (.control source destination tag packet, []) := by
  have hbound := packet.bounded
  have htag := reads_u64 tag.value.toNat_lt
  have hlen : Reads readU32 (leBytes 4 packet.bytes.length) packet.bytes.length :=
    reads_u32 (by unfold maxControlBytes at hbound; omega)
  have hbytes := Reads.readExact packet.bytes (CollectivesError.io "decode control payload")
  have hnew : ControlPacket.new packet.bytes = .ok packet := by
    simp [ControlPacket.new, hbound]
  simp only [decodeControl, List.append_assoc, htag.run_bind, hlen.run_bind, run_remaining]
  rw [if_neg (by simp), hbytes.run_bind_nil, run_check_ok hnew, UInt64.ofNat_toNat]
  rfl

end Payload

/-- The reader accepts at most 64 dimensions, while the writer does not count them. -/
def WireFrame.Readable : WireFrame UInt32 → Prop
  | .tensor _ _ _ packet => packet.shape.length ≤ 64
  | _ => True

instance (frame : WireFrame UInt32) : Decidable frame.Readable := by
  cases frame <;> (unfold WireFrame.Readable; infer_instance)

theorem decodePayload_run {frame : WireFrame UInt32} {payload : List UInt8}
    (h : encodePayload frame = .ok payload) (hread : frame.Readable)
    (hlen : payload.length < 2 ^ 64) :
    (decodePayload frame.kind frame.source frame.destination).run payload = .ok (frame, []) := by
  cases frame with
  | tensor source destination tag packet =>
    obtain ⟨dimensions, hdims, h⟩ := ok_of_bind h
    obtain ⟨elements, helems, h⟩ := ok_of_bind h
    obtain ⟨shape, hshape, h⟩ := ok_of_bind h
    obtain ⟨rfl, -⟩ := toU32_ok hdims
    obtain ⟨rfl, -⟩ := toU64_ok helems
    obtain ⟨rfl, hsmall⟩ := mapM_toU64_ok hshape
    obtain rfl := Except.ok.inj h
    have hcount : packet.values.length * 4 < 2 ^ 64 := by
      simp [List.length_flatMap] at hlen
      omega
    exact decodeTensor_run source destination tag hread hcount hsmall
  | control source destination tag packet =>
    obtain ⟨length, hlength, h⟩ := ok_of_bind h
    split_ifs at hlength with hfit
    obtain rfl := Except.ok.inj hlength
    obtain rfl := Except.ok.inj h
    exact decodeControl_run source destination tag packet
  | barrierArrive source destination generation =>
    obtain rfl := Except.ok.inj h
    have hgen := reads_u64 generation.toNat_lt
    refine (hgen.run_bind_nil _).trans ?_
    rw [UInt64.ofNat_toNat]
    rfl
  | barrierRelease source destination generation =>
    obtain rfl := Except.ok.inj h
    have hgen := reads_u64 generation.toNat_lt
    refine (hgen.run_bind_nil _).trans ?_
    rw [UInt64.ofNat_toNat]
    rfl

/-- The header of a frame, with anything in the reserved byte. -/
theorem decodeFrame_header {frame : WireFrame UInt32} (hsrc : frame.source < 2 ^ 32)
    (hdst : frame.destination < 2 ^ 32) (reserved : UInt8) (payload : List UInt8) :
    decodeFrame.run (wireMagic ++ leBytes 2 protocolVersion ++ [frame.kind, reserved] ++
      leBytes 4 frame.source ++ leBytes 4 frame.destination ++ payload) =
    (decodePayload frame.kind frame.source frame.destination).run payload := by
  have hmagic := Reads.readExact wireMagic (CollectivesError.io "read frame magic")
  have hversion : Reads readU16 (leBytes 2 protocolVersion) protocolVersion :=
    reads_u16 (by decide)
  have hkinds : [frame.kind, reserved] = [frame.kind] ++ [reserved] := rfl
  simp only [hkinds, List.append_assoc]
  refine (hmagic.run_bind _ _).trans ?_
  rw [if_neg (by simp)]
  refine (hversion.run_bind _ _).trans ?_
  rw [if_neg (by simp)]
  refine ((reads_u8 frame.kind).run_bind _ _).trans ?_
  refine ((reads_u8 reserved).run_bind _ _).trans ?_
  refine ((reads_u32 hsrc).run_bind _ _).trans ?_
  exact (reads_u32 hdst).run_bind _ _

theorem length_of_encodeWire {frame : WireFrame UInt32} {maximum : UInt64} {body : List UInt8}
    (h : encodeWire frame maximum = .ok body) : body.length ≤ maximum.toNat := by
  obtain ⟨source, -, h1⟩ := ok_of_bind h
  obtain ⟨destination, -, h2⟩ := ok_of_bind h1
  obtain ⟨payload, -, h3⟩ := ok_of_bind h2
  dsimp only at h3
  split_ifs at h3 with hmax
  obtain rfl := Except.ok.inj h3
  omega

theorem decodeWire_encodeWire {frame : WireFrame UInt32} {maximum : UInt64} {body : List UInt8}
    (h : encodeWire frame maximum = .ok body) (hread : frame.Readable) :
    decodeWire body = .ok frame ∧ body.length ≤ maximum.toNat := by
  obtain ⟨source, hsource, h⟩ := ok_of_bind h
  obtain ⟨destination, hdestination, h⟩ := ok_of_bind h
  obtain ⟨payload, hpayload, h⟩ := ok_of_bind h
  obtain ⟨rfl, hsrc⟩ := toU32_ok hsource
  obtain ⟨rfl, hdst⟩ := toU32_ok hdestination
  dsimp only at h
  split_ifs at h with hmax
  obtain rfl := Except.ok.inj h
  have hbound := maximum.toNat_lt
  have hlen : payload.length < 2 ^ 64 := by
    simp at hmax
    omega
  refine ⟨?_, by omega⟩
  unfold decodeWire
  rw [decodeFrame_header hsrc hdst, decodePayload_run hpayload hread hlen]
  rfl

/-- The length prefix delimits the body, whatever the decoder makes of it. -/
theorem readWire_body {maximum : UInt64} {body : List UInt8} (hmax : body.length ≤ maximum.toNat)
    (rest : List UInt8) : (readWire maximum).run (leBytes 8 body.length ++ body ++ rest) =
      (check (decodeWire body)).run rest := by
  have hbound := maximum.toNat_lt
  have hlength : Reads (leNat <$> readExact 8 (CollectivesError.io "read TCP frame length"))
      (leBytes 8 body.length) body.length := reads_le _ (by omega)
  have hbody := Reads.readExact body (CollectivesError.io "read TCP frame body")
  unfold readWire
  rw [List.append_assoc, hlength.run_bind, if_neg (by omega)]
  exact hbody.run_bind _ rest

/-- One frame written by `writeWire` is read back from the front of any stream. -/
theorem readWire_writeWire {frame : WireFrame UInt32} {maximum : UInt64} {bytes : List UInt8}
    (h : writeWire maximum frame = .ok bytes) (hread : frame.Readable) :
    Reads (readWire maximum) bytes frame := by
  obtain ⟨body, hbody, h⟩ := ok_of_bind h
  obtain rfl := Except.ok.inj h
  obtain ⟨hdecode, hmax⟩ := decodeWire_encodeWire hbody hread
  intro rest
  rw [readWire_body hmax, hdecode]
  rfl

/-- The reader on the other end of the stream: one frame after the other. -/
def readFrames (maximum : UInt64) (count : Nat) : Cursor (List (WireFrame UInt32)) :=
  times (readWire maximum) count

theorem readFrames_run {maximum : UInt64} {frames : List (WireFrame UInt32)}
    {chunks : List (List UInt8)} (hwrite : frames.mapM (writeWire maximum) = .ok chunks)
    (hread : ∀ frame ∈ frames, frame.Readable) :
    (readFrames maximum frames.length).run chunks.flatten = .ok (frames, []) := by
  have hall := forall₂_of_mapM hwrite
  clear hwrite
  induction hall with
  | nil => rfl
  | cons hframe _ ih =>
    obtain ⟨hfirst, hrest⟩ := List.forall_mem_cons.mp hread
    rw [List.flatten_cons]
    refine ((readWire_writeWire hframe hfirst).run_bind _ _).trans ?_
    have hrun := ih hrest
    unfold readFrames at hrun
    rw [StateT.run_bind, hrun]
    rfl

/-- Whatever the writer puts on the stream comes back frame by frame and nothing is left over. -/
theorem stream_round_trip (maximum : UInt64) (frames : List (WireFrame UInt32))
    (hread : ∀ frame ∈ frames, frame.Readable)
    (hencode : ∀ frame ∈ frames, ∃ body, encodeWire frame maximum = .ok body) :
    ∃ chunks, frames.mapM (writeWire maximum) = .ok chunks ∧
      (readFrames maximum frames.length).run chunks.flatten = .ok (frames, []) := by
  have hwrite : ∀ frame ∈ frames, ∃ bytes, writeWire maximum frame = .ok bytes := by
    intro frame hframe
    obtain ⟨body, hbody⟩ := hencode frame hframe
    exact ⟨leBytes 8 body.length ++ body, by rw [writeWire, hbody]; rfl⟩
  obtain ⟨chunks, hchunks⟩ := mapM_ok hwrite
  exact ⟨chunks, hchunks, readFrames_run hchunks hread⟩

/-- A scalar, a tensor without elements, a control payload and both barrier frames. -/
def sampleFrames : List (WireFrame UInt32) :=
  [.tensor 1 0 ⟨7⟩ ⟨[], [0x7fc00001], rfl⟩,
    .barrierArrive 1 0 3,
    .tensor 1 0 ⟨8⟩ ⟨[2, 0], [], by decide +kernel⟩,
    .control 1 0 ⟨9⟩ ⟨[0x7b, 0x7d], by decide⟩,
    .barrierRelease 0 1 3]

theorem stream_round_trip_sample :
    (∀ frame ∈ sampleFrames, ∃ body, encodeWire frame 64 = .ok body) ∧
    ∃ chunks, sampleFrames.mapM (writeWire 64) = .ok chunks ∧
      (readFrames 64 5).run chunks.flatten = .ok (sampleFrames, []) := by
  have hencode : ∀ frame ∈ sampleFrames, ∃ body, encodeWire frame 64 = .ok body := by
    simp only [sampleFrames, List.forall_mem_cons]
    exact ⟨⟨_, rfl⟩, ⟨_, rfl⟩, ⟨_, rfl⟩, ⟨_, rfl⟩, ⟨_, rfl⟩, by simp⟩
  exact ⟨hencode, stream_round_trip 64 sampleFrames (by decide) hencode⟩

end Dlir.Collectives
