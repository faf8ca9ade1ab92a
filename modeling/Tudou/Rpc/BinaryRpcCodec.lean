import Tudou.Foundation.ByteOrder
import Tudou.Foundation.Framing
import Tudou.Tcp.Buffer

/-!
# `BinaryRpcCodec`: frames of the binary RPC protocol

Model of `src/tudou/rpc/binary/BinaryRpcCodec.cpp` and `Protocol.h`.

* `RpcHeader`, `encode`, `decode` — as the source has them, on `Buffer`.
* `frames` — `decode` as an incremental splitter of the byte stream; `decode_ends` connects the two.
* `frames_encodes` — **`decode` takes off exactly what `encode` wrote**, and waits on less.
-/

namespace Tudou

open ByteOrder Framing

def kRpcMagic : UInt16 := 0x5444
def kRpcVersion : UInt8 := 1
def kRpcHeaderSize : Nat := 20

inductive RpcMessageType where
  | request
  | response
  | heartbeat
  deriving DecidableEq, Repr

/-- The underlying `uint8_t`. -/
def RpcMessageType.toByte : RpcMessageType → UInt8
  | .request => 0
  | .response => 1
  | .heartbeat => 2

/-- The 20-byte header, in host order. -/
structure RpcHeader where
  magic : UInt16
  version : UInt8
  type : UInt8
  sequenceId : UInt64
  metaLen : UInt32
  bodyLen : UInt32
  deriving DecidableEq, Repr

namespace RpcHeader

/-- The packed struct with its fields in network order, as `encode` writes it. -/
def bytes (h : RpcHeader) : Bytes :=
  bigEndian 2 h.magic.toNat ++ [h.version, h.type] ++ bigEndian 8 h.sequenceId.toNat ++
    bigEndian 4 h.metaLen.toNat ++ bigEndian 4 h.bodyLen.toNat

/-- What `decode` reads from the packed struct, in host order. -/
def ofBytes (bytes : Bytes) : RpcHeader where
  magic := UInt16.ofNat (ofBigEndian (bytes.take 2))
  version := bytes.getD 2 0
  type := bytes.getD 3 0
  sequenceId := UInt64.ofNat (ofBigEndian ((bytes.drop 4).take 8))
  metaLen := UInt32.ofNat (ofBigEndian ((bytes.drop 12).take 4))
  bodyLen := UInt32.ofNat (ofBigEndian ((bytes.drop 16).take 4))

@[simp] theorem length_bytes (h : RpcHeader) : h.bytes.length = kRpcHeaderSize := by
  simp [bytes, kRpcHeaderSize]

/-- A header survives the way through network byte order. -/
theorem ofBytes_bytes (h : RpcHeader) : ofBytes h.bytes = h := by
  -- each field is read where it was written
  have hmagic : h.bytes.take 2 = bigEndian 2 h.magic.toNat := by
    simp only [bytes, List.append_assoc]
    exact List.take_left' (length_bigEndian 2 _)
  have hseq : (h.bytes.drop 4).take 8 = bigEndian 8 h.sequenceId.toNat := by
    have hdrop : h.bytes.drop 4 = bigEndian 8 h.sequenceId.toNat ++
        (bigEndian 4 h.metaLen.toNat ++ bigEndian 4 h.bodyLen.toNat) := by
      simp only [bytes, List.append_assoc]
      rw [← List.append_assoc]
      exact List.drop_left' (by simp)
    rw [hdrop]
    exact List.take_left' (length_bigEndian 8 _)
  have hmeta : (h.bytes.drop 12).take 4 = bigEndian 4 h.metaLen.toNat := by
    have hdrop : h.bytes.drop 12 = bigEndian 4 h.metaLen.toNat ++ bigEndian 4 h.bodyLen.toNat := by
      simp only [bytes, List.append_assoc]
      rw [← List.append_assoc, ← List.append_assoc]
      exact List.drop_left' (by simp)
    rw [hdrop]
    exact List.take_left' (length_bigEndian 4 _)
  have hbody : (h.bytes.drop 16).take 4 = bigEndian 4 h.bodyLen.toNat := by
    have hdrop : h.bytes.drop 16 = bigEndian 4 h.bodyLen.toNat := by
      rw [bytes]
      exact List.drop_left' (by simp)
    rw [hdrop]
    exact List.take_of_length_le (Nat.le_of_eq (length_bigEndian 4 _))
  have hversion : h.bytes.getD 2 0 = h.version := by simp [bytes, bigEndian]
  have htype : h.bytes.getD 3 0 = h.type := by simp [bytes, bigEndian]
  have hm := h.magic.toNat_lt
  have hs := h.sequenceId.toNat_lt
  have hl := h.metaLen.toNat_lt
  have hb := h.bodyLen.toNat_lt
  rw [ofBytes, hmagic, hseq, hmeta, hbody, hversion, htype]
  simp only [ofBigEndian_bigEndian]
  rw [Nat.mod_eq_of_lt (b := 256 ^ 2) hm, Nat.mod_eq_of_lt (b := 256 ^ 8) hs,
    Nat.mod_eq_of_lt (b := 256 ^ 4) hl, Nat.mod_eq_of_lt (b := 256 ^ 4) hb]
  simp only [UInt16.ofNat_toNat, UInt32.ofNat_toNat, UInt64.ofNat_toNat]

/-- Every 20 bytes are some header's. -/
theorem bytes_ofBytes {bytes : Bytes} (h : bytes.length = kRpcHeaderSize) :
    (ofBytes bytes).bytes = bytes := by
  have field : ∀ {width : Nat} {xs : Bytes} {n : Nat}, xs.length = width →
      n = ofBigEndian xs % 256 ^ width → bigEndian width n = xs := by
    intro width xs n hlen hn
    have hlt := ofBigEndian_lt xs
    rw [hlen] at hlt
    rw [hn, Nat.mod_eq_of_lt hlt, ← hlen, bigEndian_ofBigEndian]
  have h20 : bytes.length = 20 := h
  have hmagic : bigEndian 2 (ofBytes bytes).magic.toNat = bytes.take 2 :=
    field (by simp [h20]) UInt16.toNat_ofNat'
  have hseq : bigEndian 8 (ofBytes bytes).sequenceId.toNat = (bytes.drop 4).take 8 :=
    field (by simp [h20]) UInt64.toNat_ofNat'
  have hmeta : bigEndian 4 (ofBytes bytes).metaLen.toNat = (bytes.drop 12).take 4 :=
    field (by simp [h20]) UInt32.toNat_ofNat'
  have hbody : bigEndian 4 (ofBytes bytes).bodyLen.toNat = (bytes.drop 16).take 4 :=
    field (by simp [h20]) UInt32.toNat_ofNat'
  have hpair : [(ofBytes bytes).version, (ofBytes bytes).type] = (bytes.drop 2).take 2 := by
    apply List.ext_getElem (by simp [h20])
    intro i hi _
    rcases i with _ | _ | i
    · simp [ofBytes, h20]
    · simp [ofBytes, h20]
    · exact absurd hi (Nat.not_lt.mpr (Nat.le_add_left 2 i))
  rw [RpcHeader.bytes, hmagic, hpair, hseq, hmeta, hbody, ← List.take_add, ← List.take_add,
    ← List.take_add, ← List.take_add, List.take_of_length_le (by omega)]

end RpcHeader

namespace BinaryRpcCodec

/-- `encode(buf, type, sequenceId, metaBytes, bodyBytes)`; a length of 2³² or more is truncated. -/
def encode (buf : Buffer) (type : RpcMessageType) (sequenceId : UInt64) (metaBytes bodyBytes : Bytes) :
    Buffer :=
  let header : RpcHeader :=
    { magic := kRpcMagic, version := kRpcVersion, type := type.toByte, sequenceId := sequenceId,
      metaLen := UInt32.ofNat metaBytes.length, bodyLen := UInt32.ofNat bodyBytes.length }
  let buf := buf.writeToBuffer header.bytes
  let buf := if metaBytes ≠ [] then buf.writeToBuffer metaBytes else buf
  if bodyBytes ≠ [] then buf.writeToBuffer bodyBytes else buf

/-- `DecodeResult` with what `decode` hands out. -/
inductive DecodeResult where
  | success (header : RpcHeader) (metaBytes bodyBytes : Bytes) (buf : Buffer)
  | empty
  | halfPack
  | error

/-- Assign the next `len` bytes and consume them, or clear the output where there are none. -/
def takePart (buf : Buffer) (len : Nat) : Bytes × Buffer :=
  if 0 < len then (buf.readable.take len, buf.advanceReadIndex len) else ([], buf)

@[simp] theorem takePart_fst (buf : Buffer) (len : Nat) :
    (takePart buf len).1 = buf.readable.take len := by
  unfold takePart
  by_cases h : 0 < len
  · rw [if_pos h]
  · rw [if_neg h, Nat.eq_zero_of_not_pos h, List.take_zero]

@[simp] theorem readable_takePart_snd (buf : Buffer) (len : Nat) :
    (takePart buf len).2.readable = buf.readable.drop len := by
  unfold takePart
  by_cases h : 0 < len
  · rw [if_pos h, Buffer.readable_advanceReadIndex]
  · rw [if_neg h, Nat.eq_zero_of_not_pos h, List.drop_zero]

/-- `decode(buf, outHeader, outMetaBytes, outBodyBytes)`. -/
def decode (buf : Buffer) : DecodeResult :=
  if buf.readableBytes < kRpcHeaderSize then .empty
  else
    let header := RpcHeader.ofBytes (buf.readable.take kRpcHeaderSize)
    if header.magic ≠ kRpcMagic then .error
    else
      let metaLen := header.metaLen.toNat
      let bodyLen := header.bodyLen.toNat
      let totalPacketSize := kRpcHeaderSize + metaLen + bodyLen
      if buf.readableBytes < totalPacketSize then .halfPack
      else
        let buf := buf.advanceReadIndex kRpcHeaderSize
        let metaPart := takePart buf metaLen
        let bodyPart := takePart metaPart.2 bodyLen
        .success header metaPart.1 bodyPart.1 bodyPart.2

end BinaryRpcCodec

/-! ## Frames in a byte stream -/

/-- A frame as `decode` hands it out. -/
structure RpcFrame where
  header : RpcHeader
  metaBytes : Bytes
  bodyBytes : Bytes
  deriving DecidableEq, Repr

namespace RpcFrame

/-- The frame on the wire. -/
def bytes (f : RpcFrame) : Bytes := f.header.bytes ++ f.metaBytes ++ f.bodyBytes

/-- The header says what the frame holds. -/
structure WellFormed (f : RpcFrame) : Prop where
  magic : f.header.magic = kRpcMagic
  metaLen : f.header.metaLen.toNat = f.metaBytes.length
  bodyLen : f.header.bodyLen.toNat = f.bodyBytes.length

/-- The frame `encode` writes. -/
def of (type : RpcMessageType) (sequenceId : UInt64) (metaBytes bodyBytes : Bytes) : RpcFrame where
  header :=
    { magic := kRpcMagic, version := kRpcVersion, type := type.toByte, sequenceId := sequenceId,
      metaLen := UInt32.ofNat metaBytes.length, bodyLen := UInt32.ofNat bodyBytes.length }
  metaBytes := metaBytes
  bodyBytes := bodyBytes

theorem wellFormed_of {type : RpcMessageType} {sequenceId : UInt64} {metaBytes bodyBytes : Bytes}
    (hm : metaBytes.length < 2 ^ 32) (hb : bodyBytes.length < 2 ^ 32) :
    (of type sequenceId metaBytes bodyBytes).WellFormed where
  magic := rfl
  metaLen := UInt32.toNat_ofNat_of_lt' hm
  bodyLen := UInt32.toNat_ofNat_of_lt' hb

theorem length_bytes (f : RpcFrame) :
    f.bytes.length = kRpcHeaderSize + f.metaBytes.length + f.bodyBytes.length := by
  rw [bytes, List.length_append, List.length_append, RpcHeader.length_bytes]

end RpcFrame

/-- **`encode` appends its frame** to what is readable. -/
theorem BinaryRpcCodec.readable_encode (buf : Buffer) (type : RpcMessageType) (sequenceId : UInt64)
    (metaBytes bodyBytes : Bytes) :
    (encode buf type sequenceId metaBytes bodyBytes).readable =
      buf.readable ++ (RpcFrame.of type sequenceId metaBytes bodyBytes).bytes := by
  have write_nonempty : ∀ (b : Buffer) (xs : Bytes),
      (if xs ≠ [] then b.writeToBuffer xs else b).readable = b.readable ++ xs := by
    intro b xs
    by_cases h : xs = []
    · rw [if_neg (not_not.mpr h), h, List.append_nil]
    · rw [if_pos h, Buffer.readable_writeToBuffer]
  simp only [encode, write_nonempty, Buffer.readable_writeToBuffer, RpcFrame.bytes, RpcFrame.of,
    List.append_assoc]

/-- One look at the front of a byte stream. -/
def scanFrame (bytes : Bytes) : Scan Byte RpcFrame :=
  if bytes.length < kRpcHeaderSize then .more
  else
    let header := RpcHeader.ofBytes (bytes.take kRpcHeaderSize)
    if header.magic ≠ kRpcMagic then .corrupt
    else if bytes.length < kRpcHeaderSize + header.metaLen.toNat + header.bodyLen.toNat then .more
    else
      let payload := bytes.drop kRpcHeaderSize
      .message ⟨header, payload.take header.metaLen.toNat,
          (payload.drop header.metaLen.toNat).take header.bodyLen.toNat⟩
        ((payload.drop header.metaLen.toNat).drop header.bodyLen.toNat)

theorem scanFrame_bytes {f : RpcFrame} (hf : f.WellFormed) (rest : Bytes) :
    scanFrame (f.bytes ++ rest) = .message f rest := by
  have hlen : (f.bytes ++ rest).length =
      kRpcHeaderSize + f.metaBytes.length + f.bodyBytes.length + rest.length := by
    rw [List.length_append, f.length_bytes]
  have htake : (f.bytes ++ rest).take kRpcHeaderSize = f.header.bytes := by
    rw [RpcFrame.bytes, List.append_assoc, List.append_assoc]
    exact List.take_left' (RpcHeader.length_bytes _)
  have hdrop : (f.bytes ++ rest).drop kRpcHeaderSize = f.metaBytes ++ (f.bodyBytes ++ rest) := by
    rw [RpcFrame.bytes, List.append_assoc, List.append_assoc]
    exact List.drop_left' (RpcHeader.length_bytes _)
  unfold scanFrame
  simp only [htake, hdrop, RpcHeader.ofBytes_bytes, hf.magic, hf.metaLen, hf.bodyLen, hlen]
  rw [if_neg (by omega), if_neg (not_not.mpr rfl), if_neg (by omega), List.take_left' rfl,
    List.drop_left' rfl, List.take_left' rfl, List.drop_left' rfl]

/-- **A message is found exactly where a well-formed frame stands**, whatever follows it. -/
theorem scanFrame_eq_message {bytes rest : Bytes} {f : RpcFrame} :
    scanFrame bytes = .message f rest ↔ f.WellFormed ∧ bytes = f.bytes ++ rest := by
  constructor
  · intro h
    unfold scanFrame at h
    split at h
    · cases h
    simp only at h
    split at h
    · cases h
    rename_i hshort hmagic
    split at h
    · cases h
    rename_i hlen
    cases h
    have htake : (bytes.take kRpcHeaderSize).length = kRpcHeaderSize := by
      rw [List.length_take]; omega
    refine ⟨⟨not_not.mp hmagic, ?_, ?_⟩, ?_⟩
    · simp only [List.length_take, List.length_drop]; omega
    · simp only [List.length_take, List.length_drop]; omega
    · rw [RpcFrame.bytes, RpcHeader.bytes_ofBytes htake]
      simp only [List.append_assoc, List.take_append_drop]
  · rintro ⟨hf, rfl⟩
    exact scanFrame_bytes hf rest

theorem scanFrame_eq_corrupt {bytes : Bytes} :
    scanFrame bytes = .corrupt ↔ kRpcHeaderSize ≤ bytes.length ∧
      (RpcHeader.ofBytes (bytes.take kRpcHeaderSize)).magic ≠ kRpcMagic := by
  unfold scanFrame
  by_cases hshort : bytes.length < kRpcHeaderSize
  · rw [if_pos hshort]
    exact iff_of_false (by rintro ⟨⟩) fun h => by omega
  by_cases hmagic : (RpcHeader.ofBytes (bytes.take kRpcHeaderSize)).magic = kRpcMagic
  · rw [if_neg hshort]
    simp only [hmagic, ne_eq, not_true_eq_false, if_false, and_false, iff_false]
    split
    · rintro ⟨⟩
    · rintro ⟨⟩
  · rw [if_neg hshort]
    simp only [hmagic, ne_eq, not_false_eq_true, if_true, and_true, true_iff]
    omega

/-- Less than a frame is not taken for anything. -/
theorem scanFrame_of_prefix {f : RpcFrame} (hf : f.WellFormed) {bytes : Bytes}
    (hp : bytes <+: f.bytes) (hne : bytes ≠ f.bytes) : scanFrame bytes = .more := by
  have hle := hp.length_le
  have hlen : bytes.length ≠ f.bytes.length := by
    intro h
    exact hne (hp.eq_of_length h)
  rw [f.length_bytes] at hle hlen
  unfold scanFrame
  by_cases hshort : bytes.length < kRpcHeaderSize
  · rw [if_pos hshort]
  · have htake : bytes.take kRpcHeaderSize = f.header.bytes := by
      obtain ⟨ys, hys⟩ := hp
      have hbytes : (bytes ++ ys).take kRpcHeaderSize = bytes.take kRpcHeaderSize :=
        List.take_append_of_le_length (by omega)
      rw [← hbytes, hys, RpcFrame.bytes, List.append_assoc]
      exact List.take_left' (RpcHeader.length_bytes _)
    rw [if_neg hshort]
    simp only [htake, RpcHeader.ofBytes_bytes, hf.magic, hf.metaLen, hf.bodyLen, ne_eq,
      not_true_eq_false, if_false]
    rw [if_pos (by omega)]

theorem length_lt_of_scanFrame {bytes rest : Bytes} {f : RpcFrame}
    (h : scanFrame bytes = .message f rest) : rest.length < bytes.length := by
  have hhead : 0 < kRpcHeaderSize := by decide
  rw [(scanFrame_eq_message.mp h).2, List.length_append, f.length_bytes]
  omega

theorem scanFrame_append_of_message {bytes rest : Bytes} {f : RpcFrame} (ys : Bytes)
    (h : scanFrame bytes = .message f rest) : scanFrame (bytes ++ ys) = .message f (rest ++ ys) := by
  obtain ⟨hf, rfl⟩ := scanFrame_eq_message.mp h
  rw [List.append_assoc]
  exact scanFrame_bytes hf _

theorem scanFrame_append_of_corrupt {bytes : Bytes} (ys : Bytes) (h : scanFrame bytes = .corrupt) :
    scanFrame (bytes ++ ys) = .corrupt := by
  obtain ⟨hlen, hmagic⟩ := scanFrame_eq_corrupt.mp h
  refine scanFrame_eq_corrupt.mpr ⟨by rw [List.length_append]; omega, ?_⟩
  rwa [List.take_append_of_le_length hlen]

/-- **The byte stream as frames.** -/
def frames : Splitter Byte RpcFrame where
  scan := scanFrame
  length_lt := length_lt_of_scanFrame
  message_append := scanFrame_append_of_message
  corrupt_append := scanFrame_append_of_corrupt

theorem scan_frames (bytes : Bytes) : frames.scan bytes = scanFrame bytes := rfl

/-- Well-formed frames come back, and less than one is waited on. -/
theorem frames_encodes : frames.Encodes RpcFrame.bytes RpcFrame.WellFormed where
  scan_encode := by
    intro f hf ys
    rw [scan_frames]
    exact scanFrame_bytes hf ys
  scan_prefix := by
    intro f bytes hf hp hne
    rw [scan_frames]
    exact scanFrame_of_prefix hf hp hne

/-- **`decode` is one look at the readable bytes**: on success it consumes the frame, otherwise
nothing. -/
theorem decode_ends (buf : Buffer) :
    match BinaryRpcCodec.decode buf with
    | .success header metaBytes bodyBytes buf' =>
      scanFrame buf.readable = .message ⟨header, metaBytes, bodyBytes⟩ buf'.readable
    | .empty | .halfPack => scanFrame buf.readable = .more
    | .error => scanFrame buf.readable = .corrupt := by
  unfold BinaryRpcCodec.decode scanFrame
  rw [Buffer.length_readable]
  by_cases hshort : buf.readableBytes < kRpcHeaderSize
  · simp only [if_pos hshort]
  simp only [if_neg hshort]
  by_cases hmagic : (RpcHeader.ofBytes (buf.readable.take kRpcHeaderSize)).magic = kRpcMagic
  · simp only [hmagic, ne_eq, not_true_eq_false, if_false]
    split_ifs with hlen
    · rfl
    · simp only [BinaryRpcCodec.takePart_fst, BinaryRpcCodec.readable_takePart_snd,
        Buffer.readable_advanceReadIndex]
  · simp only [hmagic, ne_eq, not_false_eq_true, if_true]

end Tudou
