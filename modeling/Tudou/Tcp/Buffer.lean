import Mathlib.Data.List.Basic

/-!
# `Buffer`: prepend, readable and writable bytes in one vector

Model of `src/tudou/tcp/Buffer.{h,cpp}`.

* `Buffer` — `buffer_`, `readIndex_` and `writeIndex_`; the layout
  `kCheapPrepend ≤ readIndex_ ≤ writeIndex_ ≤ buffer_.size()` is a field, so no operation can
  leave it and no subtraction of indices underflows.
* `Buffer.readable` — the readable bytes, what a caller of the buffer sees.
* `readable_writeToBuffer`, `readable_maintainReadIndex`, `readFromBuffer_spec`,
  `readFromFd_spec`, `writeToFd_spec` — every operation as one on the readable bytes: appending
  at the end, dropping from the front.
* `makeSpace_writable` — `make_space(len)` leaves room for `len` bytes.
-/

namespace Tudou

abbrev Byte := UInt8
abbrev Bytes := List Byte

/-- `errno` values the code tells apart (`EWOULDBLOCK` is `EAGAIN`). -/
inductive Errno where
  | eagain
  | eintr
  | other (code : Nat)
  deriving DecidableEq, Repr

/-- Result of a `::write`-like call: a byte count or `-1` with `errno`. -/
inductive WriteResult where
  | accepted (n : Nat)
  | failed (e : Errno)
  deriving DecidableEq, Repr

/-- Result of a `::read`-like call: the bytes stored (none at end of file) or `-1`. -/
inductive ReadResult where
  | data (bytes : Bytes)
  | failed (e : Errno)
  deriving DecidableEq, Repr

def kCheapPrepend : Nat := 8
def kInitialSize : Nat := 1024
def kStackBufSize : Nat := 65536

/-- `Buffer`, with the layout of its header comment as an invariant. -/
structure Buffer where
  buffer : Bytes
  readIndex : Nat
  writeIndex : Nat
  prepend_le : kCheapPrepend ≤ readIndex
  read_le_write : readIndex ≤ writeIndex
  write_le_size : writeIndex ≤ buffer.length
  deriving DecidableEq, Repr

namespace Buffer

/-- `Buffer::Buffer(initialSize)`. -/
def ofSize (initialSize : Nat) : Buffer :=
  ⟨List.replicate (kCheapPrepend + initialSize) 0, kCheapPrepend, kCheapPrepend,
    Nat.le_refl _, Nat.le_refl _, by rw [List.length_replicate]; omega⟩

/-- `Buffer::Buffer()`, with the default size. -/
def empty : Buffer := ofSize kInitialSize

def readableBytes (b : Buffer) : Nat := b.writeIndex - b.readIndex
def writableBytes (b : Buffer) : Nat := b.buffer.length - b.writeIndex
def prependableBytes (b : Buffer) : Nat := b.readIndex

/-- The bytes from `readable_start_ptr()` on, `readable_bytes()` of them. -/
def readable (b : Buffer) : Bytes := (b.buffer.drop b.readIndex).take b.readableBytes

theorem length_readable (b : Buffer) : b.readable.length = b.readableBytes := by
  have h1 := b.read_le_write
  have h2 := b.write_le_size
  simp only [readable, readableBytes, List.length_take, List.length_drop]
  omega

theorem readableBytes_eq_zero {b : Buffer} : b.readableBytes = 0 ↔ b.readable = [] := by
  rw [← length_readable, List.length_eq_zero_iff]

/-- `maintain_all_index()`. -/
def maintainAllIndex (b : Buffer) : Buffer :=
  ⟨b.buffer, kCheapPrepend, kCheapPrepend, Nat.le_refl _, Nat.le_refl _, by
    have := b.prepend_le; have := b.read_le_write; have := b.write_le_size; omega⟩

/-- `maintain_read_index(len)`. -/
def maintainReadIndex (b : Buffer) (len : Nat) : Buffer :=
  if h : len < b.readableBytes then
    ⟨b.buffer, b.readIndex + len, b.writeIndex, by have := b.prepend_le; omega,
      by unfold readableBytes at h; omega, b.write_le_size⟩
  else b.maintainAllIndex

/-- `advance_read_index(len)`; the source asserts `len <= readable_bytes()`. -/
def advanceReadIndex (b : Buffer) (len : Nat) : Buffer := b.maintainReadIndex len

/-- `read_from_buffer(len)`, truncating `len` to what is readable. -/
def readFromBuffer (b : Buffer) (len : Nat) : Bytes × Buffer :=
  let len := if b.readableBytes < len then b.readableBytes else len
  (b.readable.take len, b.maintainReadIndex len)

/-- `read_from_buffer()`: everything readable. -/
def readAllFromBuffer (b : Buffer) : Bytes × Buffer := b.readFromBuffer b.readableBytes

/-- `make_space(len)`: move the readable bytes to the front, or grow the vector. -/
def makeSpace (b : Buffer) (len : Nat) : Buffer :=
  if b.writableBytes + b.prependableBytes < len + kCheapPrepend then
    ⟨b.buffer.take (b.writeIndex + len) ++ List.replicate (b.writeIndex + len - b.buffer.length) 0,
      b.readIndex, b.writeIndex, b.prepend_le, b.read_le_write, by
        have := b.write_le_size
        simp only [List.length_append, List.length_take, List.length_replicate]; omega⟩
  else
    ⟨b.buffer.take kCheapPrepend ++ b.readable ++ b.buffer.drop (kCheapPrepend + b.readableBytes),
      kCheapPrepend, kCheapPrepend + b.readableBytes, Nat.le_refl _, by omega, by
        have h1 := b.prepend_le
        have h2 := b.read_le_write
        have h3 := b.write_le_size
        simp only [List.length_append, List.length_take, List.length_drop, length_readable,
          readableBytes]
        omega⟩

theorem makeSpace_writable (b : Buffer) (len : Nat) : len ≤ (b.makeSpace len).writableBytes := by
  have h1 := b.prepend_le
  have h2 := b.read_le_write
  have h3 := b.write_le_size
  unfold makeSpace
  split
  · simp only [writableBytes, List.length_append, List.length_take, List.length_replicate]
    omega
  · rename_i h
    simp only [writableBytes, prependableBytes] at h
    simp only [writableBytes, List.length_append, List.length_take, List.length_drop,
      length_readable, readableBytes]
    omega

theorem readable_makeSpace (b : Buffer) (len : Nat) : (b.makeSpace len).readable = b.readable := by
  have h1 := b.prepend_le
  have h2 := b.read_le_write
  have h3 := b.write_le_size
  unfold makeSpace
  split
  · rename_i h
    simp only [writableBytes, prependableBytes] at h
    have hlen : b.buffer.length ≤ b.writeIndex + len := by omega
    simp only [readable, readableBytes, List.take_of_length_le hlen]
    rw [List.drop_append_of_le_length (by omega), List.take_append_of_le_length (by
      simp only [List.length_drop]; omega)]
  · have hpre : (b.buffer.take kCheapPrepend).length = kCheapPrepend := by
      rw [List.length_take]; omega
    have hlen : kCheapPrepend + b.readableBytes - kCheapPrepend = b.readable.length := by
      rw [length_readable]; omega
    show List.take (kCheapPrepend + b.readableBytes - kCheapPrepend) (List.drop kCheapPrepend
      (b.buffer.take kCheapPrepend ++ b.readable ++ _)) = b.readable
    rw [hlen, List.append_assoc, List.drop_left' hpre, List.take_left' rfl]

/-- Copy `data` behind the readable bytes, where there is room for it. -/
def append (b : Buffer) (data : Bytes) (h : data.length ≤ b.writableBytes) : Buffer :=
  ⟨b.buffer.take b.writeIndex ++ data ++ b.buffer.drop (b.writeIndex + data.length),
    b.readIndex, b.writeIndex + data.length, b.prepend_le, by have := b.read_le_write; omega, by
      have h1 := b.write_le_size
      have h2 : data.length ≤ b.buffer.length - b.writeIndex := h
      simp only [List.length_append, List.length_take, List.length_drop]; omega⟩

theorem readable_append (b : Buffer) (data : Bytes) (h : data.length ≤ b.writableBytes) :
    (b.append data h).readable = b.readable ++ data := by
  have h2 := b.read_le_write
  have h3 := b.write_le_size
  have hw : (b.buffer.take b.writeIndex).length = b.writeIndex := by rw [List.length_take]; omega
  have hr : (b.buffer.take b.writeIndex).drop b.readIndex = b.readable := by
    rw [readable, readableBytes, List.drop_take]
  have hlen : b.writeIndex + data.length - b.readIndex = (b.readable ++ data).length := by
    rw [List.length_append, length_readable, readableBytes]; omega
  show List.take (b.writeIndex + data.length - b.readIndex) (List.drop b.readIndex
    (b.buffer.take b.writeIndex ++ data ++ _)) = b.readable ++ data
  rw [hlen, List.append_assoc, List.drop_append_of_le_length (by omega), hr, ← List.append_assoc,
    List.take_left' rfl]

/-- `write_to_buffer(data, len)`. -/
def writeToBuffer (b : Buffer) (data : Bytes) : Buffer :=
  if h : b.writableBytes < data.length then
    (b.makeSpace data.length).append data (b.makeSpace_writable _)
  else b.append data (by omega)

/-- **Writing appends to the readable bytes.** -/
@[simp] theorem readable_writeToBuffer (b : Buffer) (data : Bytes) :
    (b.writeToBuffer data).readable = b.readable ++ data := by
  unfold writeToBuffer
  split
  · rw [readable_append, readable_makeSpace]
  · rw [readable_append]

/-- **Advancing the read index drops from the front of the readable bytes.** -/
@[simp] theorem readable_maintainReadIndex (b : Buffer) (len : Nat) :
    (b.maintainReadIndex len).readable = b.readable.drop len := by
  have h2 := b.read_le_write
  unfold maintainReadIndex
  split
  · rename_i h
    simp only [readable, readableBytes] at h ⊢
    rw [List.drop_take, List.drop_drop]
    congr 1
    omega
  · rename_i h
    rw [List.drop_of_length_le (by rw [length_readable]; omega)]
    simp [readable, maintainAllIndex, readableBytes]

@[simp] theorem readable_advanceReadIndex (b : Buffer) (len : Nat) :
    (b.advanceReadIndex len).readable = b.readable.drop len :=
  readable_maintainReadIndex b len

theorem readFromBuffer_spec (b : Buffer) (len : Nat) :
    (b.readFromBuffer len).1 = b.readable.take len ∧
      (b.readFromBuffer len).2.readable = b.readable.drop len := by
  unfold readFromBuffer
  simp only [readable_maintainReadIndex]
  split
  · rename_i h
    have hl : b.readable.length ≤ len := by rw [length_readable]; omega
    rw [← length_readable, List.take_length, List.drop_length, List.take_of_length_le hl,
      List.drop_of_length_le hl]
    exact ⟨rfl, rfl⟩
  · exact ⟨rfl, rfl⟩

@[simp] theorem readAllFromBuffer_fst (b : Buffer) : b.readAllFromBuffer.1 = b.readable := by
  rw [readAllFromBuffer, (b.readFromBuffer_spec _).1, ← length_readable, List.take_length]

@[simp] theorem readable_readAllFromBuffer (b : Buffer) : b.readAllFromBuffer.2.readable = [] := by
  rw [readAllFromBuffer, (b.readFromBuffer_spec _).2, ← length_readable, List.drop_length]

@[simp] theorem readable_ofSize (n : Nat) : (ofSize n).readable = [] := by
  simp [readable, readableBytes, ofSize]

@[simp] theorem readable_empty : empty.readable = [] := readable_ofSize _

/-- `read_from_fd`: `readv` into the writable bytes and a 64 KiB stack buffer; what overflows
into the stack buffer is appended afterwards. -/
def readFromFd (b : Buffer) (r : ReadResult) : Buffer :=
  match r with
  | .failed _ => b
  | .data bytes =>
    if h : bytes.length ≤ b.writableBytes then b.append bytes h
    else
      (b.append (bytes.take b.writableBytes) (by rw [List.length_take]; omega)).writeToBuffer
        (bytes.drop b.writableBytes)

/-- The most one `read_from_fd` can be given: the iovecs it offers. -/
def readCapacity (b : Buffer) : Nat :=
  if b.writableBytes < kStackBufSize then b.writableBytes + kStackBufSize else b.writableBytes

/-- **Reading from the socket appends what was read.** -/
@[simp] theorem readFromFd_data (b : Buffer) (bytes : Bytes) :
    (b.readFromFd (.data bytes)).readable = b.readable ++ bytes := by
  unfold readFromFd
  simp only
  split
  · rw [readable_append]
  · rw [readable_writeToBuffer, readable_append, List.append_assoc, List.take_append_drop]

/-- `write_to_fd`: consume what `::write` accepted. -/
def writeToFd (b : Buffer) (r : WriteResult) : Buffer :=
  match r with
  | .failed _ => b
  | .accepted n => b.maintainReadIndex n

/-- **Writing to the socket drops what was accepted.** -/
@[simp] theorem writeToFd_accepted (b : Buffer) (n : Nat) :
    (b.writeToFd (.accepted n)).readable = b.readable.drop n :=
  readable_maintainReadIndex b n

end Buffer

end Tudou
