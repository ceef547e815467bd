import Dlir.Collectives.WireRoundTrip

namespace Dlir.Collectives

open Dlir.Framework Dlir.Math Reader

/-! What `decodeWire` accepts: each reader returns the value whose encoding it consumed. -/

theorem parses_u8 : Parses readU8 (fun _ => True) fun byte => [byte] := by
  intro input byte rest h
  obtain ⟨bytes, left, hbytes, h⟩ := ok_of_run_bind h
  obtain ⟨rfl, rfl⟩ := Prod.mk.inj (Except.ok.inj h)
  obtain ⟨rfl, hlen⟩ := ok_of_readExact hbytes
  obtain ⟨byte, rfl⟩ := List.length_eq_one_iff.mp hlen
  exact ⟨trivial, rfl⟩

theorem parses_le (width : Nat) (e : CollectivesError) :
    Parses (leNat <$> readExact width e) (· < 256 ^ width) (leBytes width) := by
  intro input value rest h
  rw [map_eq_pure_bind] at h
  obtain ⟨bytes, left, hbytes, h⟩ := ok_of_run_bind h
  obtain ⟨rfl, rfl⟩ := Prod.mk.inj (Except.ok.inj h)
  obtain ⟨rfl, rfl⟩ := ok_of_readExact hbytes
  exact ⟨leNat_lt bytes, by rw [leBytes_leNat]⟩

theorem parses_u16 : Parses readU16 (· < 256 ^ 2) (leBytes 2) := parses_le 2 _
theorem parses_u32 : Parses readU32 (· < 256 ^ 4) (leBytes 4) := parses_le 4 _
theorem parses_u64 : Parses readU64 (· < 256 ^ 8) (leBytes 8) := parses_le 8 _

namespace WireFrame

/-- The part of the encoding that depends on the kind, without the checks of the encoder. -/
def payload : WireFrame UInt32 → List UInt8
  | tensor _ _ tag packet => leBytes 8 tag.value.toNat ++ leBytes 4 packet.shape.length ++
      leBytes 8 packet.values.length ++ packet.shape.flatMap (leBytes 8) ++
      packet.values.flatMap fun value => leBytes 4 value.toNat
  | control _ _ tag packet =>
      leBytes 8 tag.value.toNat ++ leBytes 4 packet.bytes.length ++ packet.bytes
  | barrierArrive _ _ generation => leBytes 8 generation.toNat
  | barrierRelease _ _ generation => leBytes 8 generation.toNat

/-- The encoding of a frame, without the checks of the encoder. -/
def body (frame : WireFrame UInt32) : List UInt8 :=
  wireMagic ++ leBytes 2 protocolVersion ++ [frame.kind, 0] ++ leBytes 4 frame.source ++
    leBytes 4 frame.destination ++ frame.payload

def dimensions : WireFrame UInt32 → Nat
  | tensor _ _ _ packet => packet.shape.length
  | _ => 0

/-- Every dimension is a `usize`. -/
def Addressable : WireFrame UInt32 → Prop
  | tensor _ _ _ packet => ∀ d ∈ packet.shape, d < 2 ^ 64
  | _ => True

instance : DecidablePred Addressable
  | tensor _ _ _ packet => inferInstanceAs (Decidable (∀ d ∈ packet.shape, d < 2 ^ 64))
  | control _ _ _ _ => isTrue trivial
  | barrierArrive _ _ _ => isTrue trivial
  | barrierRelease _ _ _ => isTrue trivial

/-- The frames of the protocol. That a tensor has as many values as its shape says and that a
control payload is bounded is part of the packet types. -/
structure WellFormed (frame : WireFrame UInt32) : Prop where
  source_lt : frame.source < 2 ^ 32
  destination_lt : frame.destination < 2 ^ 32
  addressable : frame.Addressable
  readable : frame.Readable

/-- How many bytes the encoding of a frame has. -/
def size : WireFrame UInt32 → Nat
  | tensor _ _ _ packet => 36 + 8 * packet.shape.length + 4 * packet.values.length
  | control _ _ _ packet => 28 + packet.bytes.length
  | barrierArrive _ _ _ => 24
  | barrierRelease _ _ _ => 24

theorem length_body (frame : WireFrame UInt32) : frame.body.length = frame.size := by
  cases frame <;> simp [body, payload, size, wireMagic, List.length_flatMap] <;> omega

theorem readable_iff (frame : WireFrame UInt32) : frame.Readable ↔ frame.dimensions ≤ 64 := by
  cases frame <;> simp [Readable, dimensions]

end WireFrame

theorem toU32_of_lt {value : Nat} (h : value < 2 ^ 32) (name : String) :
    toU32 value name = .ok value := if_pos h

theorem toU64_of_lt {value : Nat} (h : value < 2 ^ 64) (message : String) :
    toU64 value message = .ok value := if_pos h

theorem encodePayload_ok_iff (frame : WireFrame UInt32) (hframe : frame.Addressable)
    (bytes : List UInt8) :
    encodePayload frame = .ok bytes ↔ frame.dimensions < 2 ^ 32 ∧ bytes = frame.payload := by
  cases frame with
  | tensor source destination tag packet =>
    constructor
    · intro h
      obtain ⟨dimensions, hdims, h⟩ := ok_of_bind h
      obtain ⟨elements, helems, h⟩ := ok_of_bind h
      obtain ⟨shape, hshape, h⟩ := ok_of_bind h
      obtain ⟨rfl, hlt⟩ := toU32_ok hdims
      obtain ⟨rfl, -⟩ := toU64_ok helems
      obtain ⟨rfl, -⟩ := mapM_toU64_ok hshape
      exact ⟨hlt, (Except.ok.inj h).symm⟩
    · rintro ⟨hlt, rfl⟩
      have hdims := toU32_of_lt hlt "dimension count"
      have helems := toU64_of_lt (elementCount_lt packet.count) "element count overflow"
      have hshape : (packet.shape.mapM fun d => toU64 d "tensor dimension overflow") =
          .ok packet.shape := by
        have h := mapM_eq_map fun d hd => toU64_of_lt (hframe d hd) "tensor dimension overflow"
        rwa [List.map_id'] at h
      simp only [WireFrame.dimensions] at hdims
      simp only [encodePayload, hdims, helems, hshape]
      rfl
  | control source destination tag packet =>
    have hbound := packet.bounded
    have hfit : packet.bytes.length < 2 ^ 32 := by
      unfold maxControlBytes at hbound
      omega
    have hdims : (WireFrame.control source destination tag packet : WireFrame UInt32).dimensions <
        2 ^ 32 := Nat.two_pow_pos 32
    have henc : encodePayload (.control source destination tag packet) =
        .ok (WireFrame.control source destination tag packet).payload := by
      simp only [encodePayload, if_pos hfit]
      rfl
    simp only [henc, hdims, true_and, Except.ok.injEq]
    exact eq_comm
  | barrierArrive source destination generation =>
    simp [encodePayload, WireFrame.dimensions, WireFrame.payload, eq_comm]
  | barrierRelease source destination generation =>
    simp [encodePayload, WireFrame.dimensions, WireFrame.payload, eq_comm]

theorem encodeWire_ok_iff (frame : WireFrame UInt32) (hframe : frame.Addressable)
    (maximum : UInt64) (bytes : List UInt8) :
    encodeWire frame maximum = .ok bytes ↔ frame.source < 2 ^ 32 ∧ frame.destination < 2 ^ 32 ∧
      frame.dimensions < 2 ^ 32 ∧ frame.size ≤ maximum.toNat ∧ bytes = frame.body := by
  constructor
  · intro h
    obtain ⟨source, hsource, h⟩ := ok_of_bind h
    obtain ⟨destination, hdestination, h⟩ := ok_of_bind h
    obtain ⟨payload, hpayload, h⟩ := ok_of_bind h
    obtain ⟨rfl, hsrc⟩ := toU32_ok hsource
    obtain ⟨rfl, hdst⟩ := toU32_ok hdestination
    obtain ⟨hdims, rfl⟩ := (encodePayload_ok_iff frame hframe payload).mp hpayload
    dsimp only at h
    split_ifs at h with hmax
    have hlen := frame.length_body
    exact ⟨hsrc, hdst, hdims, by unfold WireFrame.body at hlen; omega, (Except.ok.inj h).symm⟩
  · rintro ⟨hsrc, hdst, hdims, hmax, rfl⟩
    have hpayload := (encodePayload_ok_iff frame hframe frame.payload).mpr ⟨hdims, rfl⟩
    have hsource := toU32_of_lt hsrc "source rank"
    have hdestination := toU32_of_lt hdst "destination rank"
    have hlen : ¬ frame.body.length > maximum.toNat := by
      rw [frame.length_body]
      omega
    unfold encodeWire
    rw [hsource, hdestination, hpayload]
    exact if_neg hlen

section Accepted

variable {source destination : Nat} {input rest : List UInt8} {frame : WireFrame UInt32}

/-- When the buffer of the values is allocated, its size is the number of bytes left. -/
theorem decodeTensorHeader_ok {header : TensorHeader}
    (h : decodeTensorHeader.run input = .ok (header, rest)) :
    rest.length = header.elements * 4 ∧ header.elements * 4 < 2 ^ 64 ∧
      header.shape.length ≤ 64 ∧ (∀ d ∈ header.shape, d < 2 ^ 64) ∧ header.tag < 2 ^ 64 ∧
      input = leBytes 8 header.tag ++ leBytes 4 header.shape.length ++
        leBytes 8 header.elements ++ header.shape.flatMap (leBytes 8) ++ rest := by
  unfold decodeTensorHeader at h
  obtain ⟨tag, afterTag, htag, h1⟩ := ok_of_run_bind h
  obtain ⟨htagLt, rfl⟩ := parses_u64 _ _ _ htag
  obtain ⟨dimensions, afterDims, hdims, h2⟩ := ok_of_run_bind h1
  obtain ⟨-, rfl⟩ := parses_u32 _ _ _ hdims
  split_ifs at h2 with hmany
  · cases h2
  obtain ⟨elements, afterCount, helems, h3⟩ := ok_of_run_bind h2
  obtain ⟨helems, rfl⟩ := parses_u64 _ _ _ helems
  obtain ⟨shape, left, hshape, h4⟩ := ok_of_run_bind h3
  obtain ⟨rfl, hall, rfl⟩ := parses_u64.times hshape
  rw [run_remaining] at h4
  by_cases hfit : elements * 4 < 2 ^ 64
  · rw [checkedMul_some hfit] at h4
    dsimp only at h4
    split_ifs at h4 with hleft
    · cases h4
    obtain ⟨rfl, rfl⟩ := Prod.mk.inj (Except.ok.inj h4)
    have hdim : shape.length ≤ 64 := by omega
    refine ⟨not_not.mp hleft, hfit, hdim, ?_, ?_, by simp⟩
    · intro d hd
      simpa using hall d hd
    · simpa using htagLt
  · rw [checkedMul_none hfit] at h4
    cases h4

theorem decodeTensor_ok (h : (decodeTensor source destination).run input = .ok (frame, rest)) :
    frame.kind = tensorKind ∧ frame.source = source ∧ frame.destination = destination ∧
      frame.Addressable ∧ frame.Readable ∧ input = frame.payload ++ rest := by
  obtain ⟨header, left, hheader, h1⟩ := ok_of_run_bind h
  obtain ⟨-, -, hdims, hshape, htag, rfl⟩ := decodeTensorHeader_ok hheader
  obtain ⟨values, afterValues, hvalues, h2⟩ := ok_of_run_bind h1
  obtain ⟨hcount, hall, rfl⟩ := parses_u32.times hvalues
  obtain ⟨packet, afterPacket, hpacket, h3⟩ := ok_of_run_bind h2
  obtain ⟨hnew, rfl⟩ := ok_of_check hpacket
  obtain ⟨rfl, rfl⟩ := Prod.mk.inj (Except.ok.inj h3)
  obtain ⟨hps, hpv⟩ := TensorPacket.new_parts hnew
  have hbits : packet.values.flatMap (fun value => leBytes 4 value.toNat) =
      values.flatMap (leBytes 4) := by
    rw [hpv, List.flatMap_map]
    apply List.flatMap_congr
    intro v hv
    rw [UInt32.toNat_ofNat', Nat.mod_eq_of_lt (by simpa using hall v hv)]
  have htag' : (UInt64.ofNat header.tag).toNat = header.tag := by
    rw [UInt64.toNat_ofNat', Nat.mod_eq_of_lt htag]
  have hlen : packet.values.length = header.elements := by
    rw [hpv, List.length_map, hcount]
  refine ⟨rfl, rfl, rfl, ?_, ?_, ?_⟩
  · intro d hd
    exact hshape d (hps ▸ hd)
  · rw [WireFrame.Readable, hps]
    exact hdims
  · simp only [WireFrame.payload, htag', hps, hlen, hbits, List.append_assoc]

theorem decodeControl_ok (h : (decodeControl source destination).run input = .ok (frame, rest)) :
    frame.kind = applicationControlKind ∧ frame.source = source ∧
      frame.destination = destination ∧ frame.Addressable ∧ frame.Readable ∧
      input = frame.payload ++ rest := by
  obtain ⟨tag, afterTag, htag, h1⟩ := ok_of_run_bind h
  obtain ⟨htagLt, rfl⟩ := parses_u64 _ _ _ htag
  obtain ⟨length, afterLength, hlength, h2⟩ := ok_of_run_bind h1
  obtain ⟨-, rfl⟩ := parses_u32 _ _ _ hlength
  rw [run_remaining] at h2
  split_ifs at h2 with hleft
  · cases h2
  obtain ⟨bytes, afterBytes, hbytes, h3⟩ := ok_of_run_bind h2
  obtain ⟨rfl, rfl⟩ := ok_of_readExact hbytes
  obtain ⟨packet, afterPacket, hpacket, h4⟩ := ok_of_run_bind h3
  obtain ⟨hnew, rfl⟩ := ok_of_check hpacket
  obtain ⟨rfl, rfl⟩ := Prod.mk.inj (Except.ok.inj h4)
  have hb : packet.bytes = bytes := by
    unfold ControlPacket.new at hnew
    split_ifs at hnew with hbound
    obtain rfl := Except.ok.inj hnew
    rfl
  have htag' : (UInt64.ofNat tag).toNat = tag := by
    rw [UInt64.toNat_ofNat', Nat.mod_eq_of_lt (by simpa using htagLt)]
  exact ⟨rfl, rfl, rfl, trivial, trivial, by simp [WireFrame.payload, htag', hb]⟩

theorem decodePayload_ok {kind : UInt8}
    (h : (decodePayload kind source destination).run input = .ok (frame, rest)) :
    frame.kind = kind ∧ frame.source = source ∧ frame.destination = destination ∧
      frame.Addressable ∧ frame.Readable ∧ input = frame.payload ++ rest := by
  unfold decodePayload at h
  split_ifs at h with htensor hcontrol harrive hrelease
  · rw [htensor]
    exact decodeTensor_ok h
  · rw [hcontrol]
    exact decodeControl_ok h
  · obtain ⟨generation, left, hgeneration, h1⟩ := ok_of_run_bind h
    obtain ⟨hlt, rfl⟩ := parses_u64 _ _ _ hgeneration
    obtain ⟨rfl, rfl⟩ := Prod.mk.inj (Except.ok.inj h1)
    have hgen : (UInt64.ofNat generation).toNat = generation := by
      rw [UInt64.toNat_ofNat', Nat.mod_eq_of_lt (by simpa using hlt)]
    exact ⟨harrive.symm, rfl, rfl, trivial, trivial, by simp [WireFrame.payload, hgen]⟩
  · obtain ⟨generation, left, hgeneration, h1⟩ := ok_of_run_bind h
    obtain ⟨hlt, rfl⟩ := parses_u64 _ _ _ hgeneration
    obtain ⟨rfl, rfl⟩ := Prod.mk.inj (Except.ok.inj h1)
    have hgen : (UInt64.ofNat generation).toNat = generation := by
      rw [UInt64.toNat_ofNat', Nat.mod_eq_of_lt (by simpa using hlt)]
    exact ⟨hrelease.symm, rfl, rfl, trivial, trivial, by simp [WireFrame.payload, hgen]⟩
  · cases h

/-- An accepted body is the encoding of the frame with some value in the reserved byte. -/
theorem decodeFrame_ok (h : decodeFrame.run input = .ok (frame, rest)) :
    frame.WellFormed ∧ ∃ reserved : UInt8,
      input = wireMagic ++ leBytes 2 protocolVersion ++ [frame.kind, reserved] ++
        leBytes 4 frame.source ++ leBytes 4 frame.destination ++ frame.payload ++ rest := by
  unfold decodeFrame at h
  obtain ⟨magic, afterMagic, hmagic, h1⟩ := ok_of_run_bind h
  obtain ⟨rfl, -⟩ := ok_of_readExact hmagic
  split_ifs at h1 with hbad
  · cases h1
  obtain rfl := not_not.mp hbad
  obtain ⟨version, afterVersion, hversion, h2⟩ := ok_of_run_bind h1
  obtain ⟨-, rfl⟩ := parses_u16 _ _ _ hversion
  split_ifs at h2 with hold
  · cases h2
  obtain rfl := not_not.mp hold
  obtain ⟨kind, afterKind, hkind, h3⟩ := ok_of_run_bind h2
  obtain ⟨-, rfl⟩ := parses_u8 _ _ _ hkind
  obtain ⟨reserved, afterReserved, hreserved, h4⟩ := ok_of_run_bind h3
  obtain ⟨-, rfl⟩ := parses_u8 _ _ _ hreserved
  obtain ⟨source, afterSource, hsource, h5⟩ := ok_of_run_bind h4
  obtain ⟨hsrc, rfl⟩ := parses_u32 _ _ _ hsource
  obtain ⟨destination, afterDestination, hdestination, h6⟩ := ok_of_run_bind h5
  obtain ⟨hdst, rfl⟩ := parses_u32 _ _ _ hdestination
  obtain ⟨hk, hs, hd, haddr, hread, rfl⟩ := decodePayload_ok h6
  refine ⟨⟨?_, ?_, haddr, hread⟩, reserved, by simp [hk, hs, hd]⟩
  · simpa [hs] using hsrc
  · simpa [hd] using hdst

theorem decodeWire_ok (h : decodeWire input = .ok frame) :
    frame.WellFormed ∧ ∃ reserved : UInt8,
      input = wireMagic ++ leBytes 2 protocolVersion ++ [frame.kind, reserved] ++
        leBytes 4 frame.source ++ leBytes 4 frame.destination ++ frame.payload := by
  obtain ⟨result, hresult, h⟩ := ok_of_bind h
  dsimp only at h
  split_ifs at h with hrest
  obtain rfl := Except.ok.inj h
  have hframe : decodeFrame.run input = .ok (result.1, []) := by
    rw [hresult, ← not_not.mp hrest]
  simpa using decodeFrame_ok hframe

/-- The reserved byte is read and dropped, so any value in it decodes alike. -/
theorem decodeWire_reserved (hframe : frame.WellFormed) (hsize : frame.size < 2 ^ 64)
    (reserved : UInt8) :
    decodeWire (wireMagic ++ leBytes 2 protocolVersion ++ [frame.kind, reserved] ++
      leBytes 4 frame.source ++ leBytes 4 frame.destination ++ frame.payload) = .ok frame := by
  have hdims : frame.dimensions < 2 ^ 32 := by
    have := (WireFrame.readable_iff frame).mp hframe.readable
    omega
  have hpayload := (encodePayload_ok_iff frame hframe.addressable _).mpr ⟨hdims, rfl⟩
  have hlen : frame.payload.length < 2 ^ 64 := by
    have h := frame.length_body
    simp only [WireFrame.body, List.length_append] at h
    omega
  unfold decodeWire
  rw [decodeFrame_header hframe.source_lt hframe.destination_lt,
    decodePayload_run hpayload hframe.readable hlen]
  rfl

/-- A tensor of too many dimensions is refused for just that. -/
theorem decodeWire_unreadable (hsource : frame.source < 2 ^ 32)
    (hdestination : frame.destination < 2 ^ 32) (hmany : 64 < frame.dimensions)
    (hdims : frame.dimensions < 2 ^ 32) : decodeWire frame.body =
      .error (.protocol s!"tensor has {frame.dimensions} dimensions; maximum is 64") := by
  cases frame with
  | tensor source destination tag packet =>
    have htag := reads_u64 tag.value.toNat_lt
    have hread : Reads readU32 (leBytes 4 packet.shape.length) packet.shape.length :=
      reads_u32 hdims
    have hmany' : packet.shape.length > 64 := hmany
    have hheader : decodeTensorHeader.run
        (WireFrame.tensor source destination tag packet).payload = .error
          (.protocol s!"tensor has {packet.shape.length} dimensions; maximum is 64") := by
      simp only [WireFrame.payload, List.append_assoc, decodeTensorHeader, htag.run_bind,
        hread.run_bind]
      rw [if_pos hmany']
      rfl
    unfold decodeWire WireFrame.body
    rw [decodeFrame_header hsource hdestination]
    simp only [decodePayload, WireFrame.kind, if_true, decodeTensor]
    rw [StateT.run_bind, hheader]
    rfl
  | control source destination tag packet => exact absurd hmany (Nat.not_lt_zero 64)
  | barrierArrive source destination generation => exact absurd hmany (Nat.not_lt_zero 64)
  | barrierRelease source destination generation => exact absurd hmany (Nat.not_lt_zero 64)

end Accepted

/-- Two bodies that differ at most in byte 7. -/
def SameExceptReserved (bytes body : List UInt8) : Prop :=
  bytes.length = body.length ∧ ∀ i, i ≠ 7 → bytes[i]? = body[i]?

theorem getElem?_around {front back : List UInt8} (byte : UInt8) {i : Nat}
    (hi : i ≠ front.length) :
    (front ++ [byte] ++ back)[i]? = if i < front.length then front[i]? else back[i - front.length - 1]? := by
  rw [List.append_assoc]
  split_ifs with hlt
  · rw [List.getElem?_append_left hlt]
  · rw [List.getElem?_append_right (by omega)]
    obtain ⟨k, hk⟩ : ∃ k, i - front.length = k + 1 := ⟨i - front.length - 1, by omega⟩
    simp [hk]

theorem sameExceptReserved_iff {front back : List UInt8} (hfront : front.length = 7)
    (bytes : List UInt8) (byte : UInt8) :
    SameExceptReserved bytes (front ++ [byte] ++ back) ↔
      ∃ reserved, bytes = front ++ [reserved] ++ back := by
  constructor
  · rintro ⟨hlen, hsame⟩
    have hlt : 7 < bytes.length := by
      rw [hlen]
      simp [hfront]
    refine ⟨bytes[7], List.ext_getElem? fun i => ?_⟩
    by_cases hi : i = 7
    · subst hi
      rw [List.append_assoc, List.getElem?_append_right (by omega), List.getElem?_eq_getElem hlt]
      simp [hfront]
    · rw [hsame i hi, getElem?_around _ (by omega), getElem?_around _ (by omega)]
  · rintro ⟨reserved, rfl⟩
    refine ⟨by simp, fun i hi => ?_⟩
    rw [getElem?_around _ (by omega), getElem?_around _ (by omega)]

/-- The decoder accepts exactly the encodings of the frames of the protocol, whatever the reserved
byte holds, refuses everything else, and allocates for the values of a tensor exactly what the remaining bytes fill. A byte
vector is shorter than `2 ^ 64`. -/
theorem decodeWire_exact (bytes : List UInt8) (hbytes : bytes.length < 2 ^ 64) :
    (∀ frame, decodeWire bytes = .ok frame ↔ frame.WellFormed ∧
      ∃ body, encodeWire frame (.ofNat (2 ^ 64 - 1)) = .ok body ∧ SameExceptReserved bytes body) ∧
    ∀ input header rest, decodeTensorHeader.run input = .ok (header, rest) →
      rest.length = header.elements * 4 := by
  have hmax : (UInt64.ofNat (2 ^ 64 - 1)).toNat = 2 ^ 64 - 1 := by decide
  have hfront : ∀ frame : WireFrame UInt32,
      (wireMagic ++ leBytes 2 protocolVersion ++ [frame.kind]).length = 7 := by
    intro frame
    simp [wireMagic]
  -- the body of a frame around its reserved byte
  have hbody : ∀ (frame : WireFrame UInt32) (reserved : UInt8),
      wireMagic ++ leBytes 2 protocolVersion ++ [frame.kind, reserved] ++ leBytes 4 frame.source ++
        leBytes 4 frame.destination ++ frame.payload =
      (wireMagic ++ leBytes 2 protocolVersion ++ [frame.kind]) ++ [reserved] ++
        (leBytes 4 frame.source ++ leBytes 4 frame.destination ++ frame.payload) := by
    intro frame reserved
    simp
  refine ⟨fun frame => ⟨fun h => ?_, fun h => ?_⟩, fun input header rest h => ?_⟩
  · obtain ⟨hframe, reserved, rfl⟩ := decodeWire_ok h
    have hdims : frame.dimensions < 2 ^ 32 := by
      have := (WireFrame.readable_iff frame).mp hframe.readable
      omega
    have hsize : frame.size ≤ 2 ^ 64 - 1 := by
      have h := frame.length_body
      simp only [WireFrame.body, List.length_append, List.length_cons] at h hbytes
      omega
    refine ⟨hframe, frame.body, ?_, ?_⟩
    · rw [encodeWire_ok_iff frame hframe.addressable, hmax]
      exact ⟨hframe.source_lt, hframe.destination_lt, hdims, hsize, rfl⟩
    · rw [WireFrame.body, hbody, hbody, sameExceptReserved_iff (hfront frame)]
      exact ⟨reserved, rfl⟩
  · obtain ⟨hframe, body, henc, hsame⟩ := h
    obtain ⟨-, -, -, hsize, rfl⟩ := (encodeWire_ok_iff frame hframe.addressable _ _).mp henc
    rw [WireFrame.body, hbody, sameExceptReserved_iff (hfront frame)] at hsame
    obtain ⟨reserved, rfl⟩ := hsame
    rw [← hbody]
    exact decodeWire_reserved hframe (by omega) reserved
  · exact (decodeTensorHeader_ok h).1

/-- An arrival whose reserved byte is not zero. -/
def reservedBody : List UInt8 :=
  wireMagic ++ leBytes 2 protocolVersion ++ [barrierArriveKind, 9] ++ leBytes 4 1 ++ leBytes 4 0 ++
    leBytes 8 3

theorem decodeWire_exact_reserved : decodeWire reservedBody = .ok (.barrierArrive 1 0 3) ∧
    ∃ body, encodeWire (.barrierArrive 1 0 3) (.ofNat (2 ^ 64 - 1)) = .ok body ∧
      SameExceptReserved reservedBody body := by
  have hdecode : decodeWire reservedBody = .ok (.barrierArrive 1 0 3) := rfl
  exact ⟨hdecode, (((decodeWire_exact reservedBody (by decide)).1 _).mp hdecode).2⟩

/-- The stream after one call of `write_wire`, and what the call returns. -/
def writeTo (maximum : UInt64) (stream : List UInt8) (frame : WireFrame UInt32) :
    List UInt8 × Except CollectivesError Unit :=
  match writeWire maximum frame with
  | .ok bytes => (stream ++ bytes, .ok ())
  | .error e => (stream, .error e)

theorem writeWire_ok {frame : WireFrame UInt32} {maximum : UInt64} {body : List UInt8}
    (h : encodeWire frame maximum = .ok body) :
    writeWire maximum frame = .ok (leBytes 8 body.length ++ body) := by
  rw [writeWire, h]
  rfl

theorem writeWire_error {frame : WireFrame UInt32} {maximum : UInt64} {e : CollectivesError}
    (h : encodeWire frame maximum = .error e) : writeWire maximum frame = .error e := by
  rw [writeWire, h]
  rfl

theorem writeTo_ok {frame : WireFrame UInt32} {maximum : UInt64} {body : List UInt8}
    (h : encodeWire frame maximum = .ok body) (stream : List UInt8) :
    writeTo maximum stream frame = (stream ++ (leBytes 8 body.length ++ body), .ok ()) := by
  unfold writeTo
  rw [writeWire_ok h]

/-- The frame is refused by the encoder: too many dimensions for a `u32`, or too many bytes. -/
def WireFrame.Refused (frame : WireFrame UInt32) (maximum : UInt64) : Prop :=
  2 ^ 32 ≤ frame.dimensions ∨ maximum.toNat < frame.size

theorem addressable_of_encodePayload {frame : WireFrame UInt32} {bytes : List UInt8}
    (h : encodePayload frame = .ok bytes) : frame.Addressable := by
  cases frame with
  | tensor source destination tag packet =>
    obtain ⟨_, -, h⟩ := ok_of_bind h
    obtain ⟨_, -, h⟩ := ok_of_bind h
    obtain ⟨_, hshape, -⟩ := ok_of_bind h
    exact (mapM_toU64_ok hshape).2
  | control source destination tag packet => trivial
  | barrierArrive source destination generation => trivial
  | barrierRelease source destination generation => trivial

/-- The encoder lets no frame pass that it has to refuse. -/
theorem not_refused_of_encodeWire {frame : WireFrame UInt32} {maximum : UInt64} {body : List UInt8}
    (h : encodeWire frame maximum = .ok body) : ¬ frame.Refused maximum := by
  obtain ⟨_, -, hrest⟩ := ok_of_bind h
  obtain ⟨_, -, hrest⟩ := ok_of_bind hrest
  obtain ⟨_, hpayload, -⟩ := ok_of_bind hrest
  have hframe := addressable_of_encodePayload hpayload
  obtain ⟨-, -, hdims, hsize, -⟩ := (encodeWire_ok_iff frame hframe maximum body).mp h
  rintro (hmany | hlarge)
  · omega
  · omega

/-- What the encoder lets pass can be read, unless it is a tensor of more than 64 dimensions. -/
theorem readable_of_encodeWire {frame : WireFrame UInt32} {maximum : UInt64} {body : List UInt8}
    (h : encodeWire frame maximum = .ok body)
    (hcond : frame.dimensions ≤ 64 ∨ frame.Refused maximum) : frame.Readable :=
  frame.readable_iff.mpr (hcond.resolve_right (not_refused_of_encodeWire h))

/-- What was written is read back exactly when it is not a tensor of more than 64 dimensions that
the encoder lets pass. -/
theorem read_written_iff (maximum : UInt64) (frame : WireFrame UInt32)
    (hsource : frame.source < 2 ^ 32) (hdestination : frame.destination < 2 ^ 32)
    (hframe : frame.Addressable) :
    ((∀ body, encodeWire frame maximum = .ok body → ∀ stream, ∃ bytes,
        writeTo maximum stream frame = (stream ++ bytes, .ok ()) ∧
        (readWire maximum).run bytes = .ok (frame, [])) ∧
      ∀ e, encodeWire frame maximum = .error e →
        ∀ stream, writeTo maximum stream frame = (stream, .error e)) ↔
    frame.dimensions ≤ 64 ∨ frame.Refused maximum := by
  constructor
  · rintro ⟨hread, -⟩
    by_contra hneither
    obtain ⟨hmany, hpass⟩ := not_or.mp hneither
    simp only [WireFrame.Refused, not_or, not_le, not_lt] at hpass
    have henc := (encodeWire_ok_iff frame hframe maximum frame.body).mpr
      ⟨hsource, hdestination, hpass.1, hpass.2, rfl⟩
    obtain ⟨bytes, hwrite, hbytes⟩ := hread frame.body henc []
    rw [writeTo_ok henc] at hwrite
    obtain ⟨rfl, -⟩ := Prod.mk.inj hwrite
    have hlen : frame.body.length ≤ maximum.toNat := by
      rw [frame.length_body]
      exact hpass.2
    rw [List.nil_append, ← List.append_nil (_ ++ _), readWire_body hlen] at hbytes
    obtain ⟨hdecode, -⟩ := ok_of_check hbytes
    obtain ⟨hwell, -⟩ := decodeWire_ok hdecode
    exact hmany ((WireFrame.readable_iff frame).mp hwell.readable)
  · intro hcond
    refine ⟨fun body henc stream => ?_, fun e henc stream => ?_⟩
    · refine ⟨_, writeTo_ok henc stream, ?_⟩
      have hreads := readWire_writeWire (writeWire_ok henc) (readable_of_encodeWire henc hcond)
      simpa using hreads []
    · unfold writeTo
      rw [writeWire_error henc]

/-- A tensor of 65 dimensions of length one. -/
def deepFrame : WireFrame UInt32 :=
  .tensor 1 0 ⟨7⟩ ⟨List.replicate 65 1, [0], by decide +kernel⟩

theorem encodeWire_deepFrame : encodeWire deepFrame 1024 = .ok deepFrame.body :=
  (encodeWire_ok_iff deepFrame (by decide) 1024 _).mpr
    ⟨by decide, by decide, by decide, by decide, rfl⟩

theorem decodeWire_deepFrame : decodeWire deepFrame.body =
    .error (.protocol "tensor has 65 dimensions; maximum is 64") :=
  decodeWire_unreadable (by decide) (by decide) (by decide) (by decide)

/-- The sender accepts the tensor, the receiver does not. -/
theorem deepFrame_lost :
    writeTo 1024 [] deepFrame = (leBytes 8 deepFrame.body.length ++ deepFrame.body, .ok ()) ∧
    (readWire 1024).run (leBytes 8 deepFrame.body.length ++ deepFrame.body) =
      .error (.protocol "tensor has 65 dimensions; maximum is 64") := by
  refine ⟨writeTo_ok encodeWire_deepFrame [], ?_⟩
  rw [← List.append_nil (_ ++ _), readWire_body (length_of_encodeWire encodeWire_deepFrame),
    decodeWire_deepFrame]
  rfl

/-- A tensor of two values, from rank 1 to rank 0. -/
def pairFrame : WireFrame UInt32 := .tensor 1 0 ⟨7⟩ ⟨[2], [5, 6], by decide +kernel⟩

theorem read_written_iff_tensor :
    (∀ body, encodeWire pairFrame 64 = .ok body → ∀ stream, ∃ bytes,
        writeTo 64 stream pairFrame = (stream ++ bytes, .ok ()) ∧
        (readWire 64).run bytes = .ok (pairFrame, [])) ∧
      ∀ e, encodeWire pairFrame 64 = .error e →
        ∀ stream, writeTo 64 stream pairFrame = (stream, .error e) :=
  (read_written_iff 64 pairFrame (by decide) (by decide) (by decide)).mpr (Or.inl (by decide))

end Dlir.Collectives
