import Tudou.Rpc.BinaryRpcCodec

/-!
# What `BinaryRpcCodec::decode` accepts

`decode` of `src/tudou/rpc/binary/BinaryRpcCodec.cpp` with its output arguments and the width of its
sum, against the frame format of `Protocol.h` and `BinaryRpcCodec.h`.

* `decodeInto` — the code; `decodeInto_eq` connects it to `BinaryRpcCodec.decode`.
* `DecodesExactly` — what the header promises: frames of this magic and this version are taken off,
  headers of another are errors, and whatever is not taken off changes nothing.
* `totalPacketSize_toNat` — the sum of the lengths does not overflow.
* `decodes_exactly_iff` — **it does so unless the version of a header is wrong**, which is not looked at.
-/

namespace Tudou

namespace BinaryRpcCodec

/-- `BinaryRpcCodec::DecodeResult`. -/
inductive DecodeCode where
  | success
  | empty
  | halfPack
  | error
  deriving DecidableEq, Repr

/-- `outHeader`, `outMetaBytes` and `outBodyBytes`. -/
structure DecodeOutputs where
  header : RpcHeader
  metaBytes : Bytes
  bodyBytes : Bytes
  deriving DecidableEq, Repr

/-- `kRpcHeaderSize + metaLen + bodyLen`, in `size_t`. -/
def totalPacketSize (header : RpcHeader) : UInt64 :=
  20 + header.metaLen.toUInt64 + header.bodyLen.toUInt64

/-- `decode(buf, outHeader, outMetaBytes, outBodyBytes)`: the result, the buffer and the outputs. -/
def decodeInto (buf : Buffer) (out : DecodeOutputs) : DecodeCode × Buffer × DecodeOutputs :=
  if buf.readableBytes < kRpcHeaderSize then (.empty, buf, out)
  else
    let header := RpcHeader.ofBytes (buf.readable.take kRpcHeaderSize)
    if header.magic ≠ kRpcMagic then (.error, buf, out)
    else if buf.readableBytes < (totalPacketSize header).toNat then (.halfPack, buf, out)
    else
      let buf := buf.advanceReadIndex kRpcHeaderSize
      let (metaBytes, buf) := takePart buf header.metaLen.toNat
      let (bodyBytes, buf) := takePart buf header.bodyLen.toNat
      (.success, buf, ⟨header, metaBytes, bodyBytes⟩)

/-- **The sum of the lengths does not overflow.** -/
theorem totalPacketSize_toNat (header : RpcHeader) :
    (totalPacketSize header).toNat =
      kRpcHeaderSize + header.metaLen.toNat + header.bodyLen.toNat := by
  have hmeta := header.metaLen.toNat_lt
  have hbody := header.bodyLen.toNat_lt
  simp only [totalPacketSize, UInt64.toNat_add, UInt32.toNat_toUInt64, kRpcHeaderSize,
    show (20 : UInt64).toNat = 20 from rfl]
  omega

/-- The outputs are written on success only. -/
theorem decodeInto_eq (buf : Buffer) (out : DecodeOutputs) :
    decodeInto buf out =
      match decode buf with
      | .success header metaBytes bodyBytes buf' => (.success, buf', ⟨header, metaBytes, bodyBytes⟩)
      | .empty => (.empty, buf, out)
      | .halfPack => (.halfPack, buf, out)
      | .error => (.error, buf, out) := by
  unfold decodeInto decode
  simp only [totalPacketSize_toNat]
  split
  · rfl
  · split
    · rfl
    · split
      · rfl
      · rfl

/-! ## The frame format -/

/-- A complete frame of this magic and this version, at the front of `bytes`. -/
structure FrameAt (f : RpcFrame) (bytes : Bytes) : Prop where
  wellFormed : f.WellFormed
  version : f.header.version = kRpcVersion
  isPrefix : f.bytes <+: bytes

/-- **`decode` keeps to its format**: it accepts the frames and nothing else, names the headers that
cannot be those of one, and is atomic. -/
structure DecodesExactly (buf : Buffer) (out : DecodeOutputs) : Prop where
  success_iff : (decodeInto buf out).1 = .success ↔ ∃ f, FrameAt f buf.readable
  error_iff : (decodeInto buf out).1 = .error ↔ kRpcHeaderSize ≤ buf.readableBytes ∧
    ((RpcHeader.ofBytes (buf.readable.take kRpcHeaderSize)).magic ≠ kRpcMagic ∨
      (RpcHeader.ofBytes (buf.readable.take kRpcHeaderSize)).version ≠ kRpcVersion)
  consumed : (decodeInto buf out).1 = .success → ∃ f, FrameAt f buf.readable ∧
    f.bytes.length = kRpcHeaderSize + f.header.metaLen.toNat + f.header.bodyLen.toNat ∧
    (totalPacketSize f.header).toNat = f.bytes.length ∧
    buf.readable = f.bytes ++ (decodeInto buf out).2.1.readable ∧
    (decodeInto buf out).2.2 = ⟨f.header, f.metaBytes, f.bodyBytes⟩
  unchanged : (decodeInto buf out).1 ≠ .success → (decodeInto buf out).2 = (buf, out)

/-- A complete frame is a message of the stream. -/
theorem scanFrame_of_frameAt {f : RpcFrame} {bytes : Bytes} (h : FrameAt f bytes) :
    ∃ rest, scanFrame bytes = .message f rest := by
  obtain ⟨rest, rfl⟩ := h.isPrefix
  exact ⟨rest, scanFrame_bytes h.wellFormed rest⟩

/-- The header at the front of a frame. -/
theorem ofBytes_take {f : RpcFrame} {bytes rest : Bytes} (h : bytes = f.bytes ++ rest) :
    RpcHeader.ofBytes (bytes.take kRpcHeaderSize) = f.header := by
  rw [h, RpcFrame.bytes, List.append_assoc, List.append_assoc,
    List.take_left' (RpcHeader.length_bytes _), RpcHeader.ofBytes_bytes]

/-- Frames are messages of the stream. -/
theorem decodeInto_success (buf : Buffer) (out : DecodeOutputs) :
    (decodeInto buf out).1 = .success ↔ ∃ f rest, scanFrame buf.readable = .message f rest := by
  have hends := decode_ends buf
  rw [decodeInto_eq]
  cases hd : decode buf with
  | success header metaBytes bodyBytes buf' =>
    rw [hd] at hends
    simp only at hends
    exact ⟨fun _ => ⟨_, _, hends⟩, fun _ => rfl⟩
  | empty | halfPack | error =>
    rw [hd] at hends
    simp only at hends
    simp [hends]

/-- Only the magic number is looked at. -/
theorem decodeInto_error (buf : Buffer) (out : DecodeOutputs) :
    (decodeInto buf out).1 = .error ↔ kRpcHeaderSize ≤ buf.readableBytes ∧
      (RpcHeader.ofBytes (buf.readable.take kRpcHeaderSize)).magic ≠ kRpcMagic := by
  have hends := decode_ends buf
  rw [← Buffer.length_readable, ← scanFrame_eq_corrupt, decodeInto_eq]
  cases hd : decode buf with
  | success header metaBytes bodyBytes buf' =>
    rw [hd] at hends
    simp only at hends
    simp [hends]
  | empty | halfPack | error =>
    rw [hd] at hends
    simp only at hends
    simp [hends]

/-- **Nothing is consumed and nothing put out unless a frame is taken off.** -/
theorem decodeInto_unchanged {buf : Buffer} {out : DecodeOutputs}
    (h : (decodeInto buf out).1 ≠ .success) : (decodeInto buf out).2 = (buf, out) := by
  rw [decodeInto_eq] at h ⊢
  cases hd : decode buf with
  | success header metaBytes bodyBytes buf' =>
    rw [hd] at h
    exact absurd rfl h
  | empty | halfPack | error => rfl

/-- **A frame that is taken off is put out**, and nothing behind it is touched. -/
theorem decodeInto_frame {buf : Buffer} {out : DecodeOutputs}
    (h : (decodeInto buf out).1 = .success) :
    ∃ f : RpcFrame, f.WellFormed ∧ buf.readable = f.bytes ++ (decodeInto buf out).2.1.readable ∧
      (decodeInto buf out).2.2 = ⟨f.header, f.metaBytes, f.bodyBytes⟩ := by
  have hends := decode_ends buf
  rw [decodeInto_eq] at h ⊢
  cases hd : decode buf with
  | success header metaBytes bodyBytes buf' =>
    rw [hd] at hends
    simp only at hends
    obtain ⟨hwell, hbytes⟩ := scanFrame_eq_message.mp hends
    exact ⟨⟨header, metaBytes, bodyBytes⟩, hwell, hbytes, rfl⟩
  | empty | halfPack | error =>
    rw [hd] at h
    cases h

/-- **`decode` keeps to its format exactly when no header of another version, with this magic, stands
at the front.** -/
theorem decodes_exactly_iff (buf : Buffer) (out : DecodeOutputs) :
    DecodesExactly buf out ↔ buf.readableBytes < kRpcHeaderSize ∨
      (RpcHeader.ofBytes (buf.readable.take kRpcHeaderSize)).magic ≠ kRpcMagic ∨
      (RpcHeader.ofBytes (buf.readable.take kRpcHeaderSize)).version = kRpcVersion := by
  constructor
  · intro h
    by_contra hno
    obtain ⟨hlen, hmagic, hversion⟩ : kRpcHeaderSize ≤ buf.readableBytes ∧
        (RpcHeader.ofBytes (buf.readable.take kRpcHeaderSize)).magic = kRpcMagic ∧
        (RpcHeader.ofBytes (buf.readable.take kRpcHeaderSize)).version ≠ kRpcVersion := by
      rw [not_or, not_or, not_not] at hno
      exact ⟨Nat.le_of_not_lt hno.1, hno.2⟩
    -- the format calls it an error, the code does not
    have herror := h.error_iff.mpr ⟨hlen, .inr hversion⟩
    exact ((decodeInto_error buf out).mp herror).2 hmagic
  · intro hcond
    -- the version of a frame that is taken off
    have hversion : ∀ {f rest}, scanFrame buf.readable = .message f rest →
        FrameAt f buf.readable := by
      intro f rest hscan
      obtain ⟨hwell, hbytes⟩ := scanFrame_eq_message.mp hscan
      have hheader := ofBytes_take hbytes
      have hlen : kRpcHeaderSize ≤ buf.readableBytes := by
        rw [← Buffer.length_readable, hbytes, List.length_append, f.length_bytes]
        omega
      refine ⟨hwell, ?_, ⟨rest, hbytes.symm⟩⟩
      rcases hcond with hshort | hmagic | hversion
      · omega
      · rw [hheader] at hmagic
        exact absurd hwell.magic hmagic
      · rwa [hheader] at hversion
    refine ⟨?_, ?_, fun hs => ?_, decodeInto_unchanged⟩
    · rw [decodeInto_success]
      constructor
      · rintro ⟨f, rest, hscan⟩
        exact ⟨f, hversion hscan⟩
      · rintro ⟨f, hf⟩
        exact ⟨f, scanFrame_of_frameAt hf⟩
    · rw [decodeInto_error]
      constructor
      · rintro ⟨hlen, hmagic⟩
        exact ⟨hlen, .inl hmagic⟩
      · rintro ⟨hlen, hmagic | hwrong⟩
        · exact ⟨hlen, hmagic⟩
        · rcases hcond with hshort | hmagic | hright
          · omega
          · exact ⟨hlen, hmagic⟩
          · exact absurd hright hwrong
    · obtain ⟨f, hwell, hbytes, hout⟩ := decodeInto_frame hs
      have hframe := hversion (scanFrame_eq_message.mpr ⟨hwell, hbytes⟩)
      have hlen : f.bytes.length =
          kRpcHeaderSize + f.header.metaLen.toNat + f.header.bodyLen.toNat := by
        rw [f.length_bytes, hwell.metaLen, hwell.bodyLen]
      exact ⟨f, hframe, hlen, by rw [totalPacketSize_toNat, hlen], hbytes, hout⟩

/-- An empty frame of version 2. -/
def otherVersion : RpcFrame := ⟨⟨kRpcMagic, 2, 0, 7, 0, 0⟩, [], []⟩

/-- The frame of another version is accepted. -/
theorem other_version_accepted : ¬∀ buf out, DecodesExactly buf out := by
  intro h
  let buf := Buffer.empty.writeToBuffer otherVersion.bytes
  let out : DecodeOutputs := ⟨otherVersion.header, [], []⟩
  have hreadable : buf.readable = otherVersion.bytes := by
    rw [Buffer.readable_writeToBuffer, Buffer.readable_empty, List.nil_append]
  have herror : (decodeInto buf out).1 = .error := by
    refine (h buf out).error_iff.mpr ⟨?_, .inr ?_⟩
    · rw [← Buffer.length_readable, hreadable]
      decide
    · rw [hreadable]
      decide
  obtain ⟨-, hmagic⟩ := (decodeInto_error buf out).mp herror
  rw [hreadable] at hmagic
  exact hmagic (by decide)

end BinaryRpcCodec

end Tudou
