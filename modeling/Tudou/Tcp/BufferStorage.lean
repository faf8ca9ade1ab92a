import Mathlib.Algebra.Group.Nat.Defs
import Tudou.Tcp.Buffer

/-!
# `Buffer` on machine sizes

`src/tudou/tcp/Buffer.cpp` once more, one level down: the indices are `size_t`, every subtraction and
every copy is checked, and memory can run out.

* `RawBuffer` — the three members, without any invariant.
* `RawBuffer.step` — the code of the operations; a `BufferFault` is what must never happen.
* `QueueStep` — the reference: a queue of bytes under the same operations.
* `RefinesQueue` — along a run, the layout holds, the readable bytes are the queue's and nothing faults.
* `toRaw_step` — each operation does on a well-formed buffer what `Buffer` says.
* `refinesQueue_iff` — **the buffer refines the queue exactly when `initialSize` leaves room for the
  prepend bytes and no `readv` overflows into memory that is not there.**
-/

namespace Tudou

/-- `PTRDIFF_MAX`: no object is larger, and `max_size()` of the vector. -/
def kMaxObjectSize : Nat := 2 ^ 63 - 1

/-- What a correct run never does. -/
inductive BufferFault where
  | underflow
  | outOfBounds
  deriving DecidableEq, Repr

/-- How an operation ends: with the bytes it hands out, or in `bad_alloc` or `length_error`. -/
inductive BufferEnd where
  | returned (bytes : Bytes)
  | thrown
  deriving DecidableEq, Repr

/-- `a + b` of `size_t`. -/
def sizeAdd (a b : Nat) : Nat := (a + b) % 2 ^ 64

/-- `a - b` of `size_t`, checked. -/
def sizeSub (a b : Nat) : Except BufferFault Nat :=
  if b ≤ a then .ok (a - b) else .error .underflow

/-- `len` bytes from `start` on. -/
def copyFrom (buffer : Bytes) (start len : Nat) : Except BufferFault Bytes :=
  if start + len ≤ buffer.length then .ok ((buffer.drop start).take len) else .error .outOfBounds

/-- Overwrite the bytes from `start` on. -/
def copyTo (buffer : Bytes) (start : Nat) (data : Bytes) : Except BufferFault Bytes :=
  if start + data.length ≤ buffer.length then
    .ok (buffer.take start ++ data ++ buffer.drop (start + data.length))
  else .error .outOfBounds

/-- An operation with what the system does: the result of the system call, and whether the memory that
it asks for, if any, is there. -/
inductive BufferOp where
  /-- `data` is `none` for a null pointer. -/
  | writeToBuffer (data : Option Bytes) (allocates : Bool)
  | readFromBuffer (len : Nat) (allocates : Bool)
  | advanceReadIndex (len : Nat)
  | readFromFd (r : ReadResult) (allocates : Bool)
  | writeToFd (r : WriteResult)

/-- `buffer_`, `readIndex_` and `writeIndex_`. -/
structure RawBuffer where
  buffer : Bytes
  readIndex : Nat
  writeIndex : Nat
  deriving DecidableEq, Repr

namespace RawBuffer

/-- `Buffer::Buffer(initialSize)`; `none` where the vector throws. Its assertion
`writable_bytes() == initialSize` wraps like the sum, so it never fails. -/
def create (initialSize : UInt64) (allocates : Bool) : Option RawBuffer :=
  let size := sizeAdd kCheapPrepend initialSize.toNat
  if allocates = true ∧ size ≤ kMaxObjectSize then
    some ⟨List.replicate size 0, kCheapPrepend, kCheapPrepend⟩
  else none

def readableBytes (b : RawBuffer) : Except BufferFault Nat := sizeSub b.writeIndex b.readIndex
def writableBytes (b : RawBuffer) : Except BufferFault Nat := sizeSub b.buffer.length b.writeIndex
def prependableBytes (b : RawBuffer) : Nat := b.readIndex

def maintainAllIndex (b : RawBuffer) : RawBuffer := ⟨b.buffer, kCheapPrepend, kCheapPrepend⟩

def maintainReadIndex (b : RawBuffer) (len : Nat) : Except BufferFault RawBuffer := do
  if len < (← b.readableBytes) then
    return { b with readIndex := sizeAdd b.readIndex len }
  return b.maintainAllIndex

/-- `buffer_.resize(size)`; where it throws, nothing has changed. -/
def resize (b : RawBuffer) (size : Nat) (allocates : Bool) : Option RawBuffer :=
  if allocates = true ∧ size ≤ kMaxObjectSize then
    some { b with buffer := b.buffer.take size ++ List.replicate (size - b.buffer.length) 0 }
  else none

def makeSpace (b : RawBuffer) (len : Nat) (allocates : Bool) : Except BufferFault (Option RawBuffer) := do
  let available := sizeAdd (← b.writableBytes) b.prependableBytes
  let needed := sizeAdd len kCheapPrepend
  if available < needed then
    return b.resize (sizeAdd b.writeIndex len) allocates
  let readableBytes ← b.readableBytes
  let moved ← copyFrom b.buffer b.readIndex readableBytes
  let buffer ← copyTo b.buffer kCheapPrepend moved
  return some ⟨buffer, kCheapPrepend, sizeAdd kCheapPrepend readableBytes⟩

/-- `std::copy` to the writable bytes, and `writeIndex_ += len`. -/
def append (b : RawBuffer) (data : Bytes) : Except BufferFault RawBuffer := do
  let buffer ← copyTo b.buffer b.writeIndex data
  return ⟨buffer, b.readIndex, sizeAdd b.writeIndex data.length⟩

def writeToBuffer (b : RawBuffer) (data : Option Bytes) (allocates : Bool) :
    Except BufferFault (BufferEnd × RawBuffer) := do
  match data with
  | none => return (.returned [], b)
  | some data =>
    if data.length = 0 then
      return (.returned [], b)
    if (← b.writableBytes) < data.length then
      match ← b.makeSpace data.length allocates with
      | none => return (.thrown, b)
      | some b => return (.returned [], ← b.append data)
    return (.returned [], ← b.append data)

def readFromBuffer (b : RawBuffer) (len : Nat) (allocates : Bool) :
    Except BufferFault (BufferEnd × RawBuffer) := do
  let readableBytes ← b.readableBytes
  let len := if readableBytes < len then readableBytes else len
  let str ← copyFrom b.buffer b.readIndex len
  if allocates then
    return (.returned str, ← b.maintainReadIndex len)
  return (.thrown, b)

def advanceReadIndex (b : RawBuffer) (len : Nat) : Except BufferFault (BufferEnd × RawBuffer) := do
  return (.returned [], ← b.maintainReadIndex len)

/-- `read_from_fd`: `readv` has stored the first bytes behind `writeIndex_` and the others in
`extraBuf`. -/
def readFromFd (b : RawBuffer) (r : ReadResult) (allocates : Bool) :
    Except BufferFault (BufferEnd × RawBuffer) := do
  let writableBytes ← b.writableBytes
  match r with
  | .failed _ => return (.returned [], b)
  | .data bytes =>
    let n := bytes.length
    let buffer ← copyTo b.buffer b.writeIndex (bytes.take writableBytes)
    if n ≤ writableBytes then
      return (.returned [], ⟨buffer, b.readIndex, sizeAdd b.writeIndex n⟩)
    let extra := (bytes.drop writableBytes).take (← sizeSub n writableBytes)
    RawBuffer.writeToBuffer ⟨buffer, b.readIndex, buffer.length⟩ (some extra) allocates

/-- `write_to_fd`; what it hands out are the bytes that `::write` took. -/
def writeToFd (b : RawBuffer) (r : WriteResult) : Except BufferFault (BufferEnd × RawBuffer) := do
  let offered ← copyFrom b.buffer b.readIndex (← b.readableBytes)
  match r with
  | .failed _ => return (.returned [], b)
  | .accepted n => return (.returned (offered.take n), ← b.maintainReadIndex n)

def step (b : RawBuffer) : BufferOp → Except BufferFault (BufferEnd × RawBuffer)
  | .writeToBuffer data allocates => b.writeToBuffer data allocates
  | .readFromBuffer len allocates => b.readFromBuffer len allocates
  | .advanceReadIndex len => b.advanceReadIndex len
  | .readFromFd r allocates => b.readFromFd r allocates
  | .writeToFd r => b.writeToFd r

/-! ## The reference -/

/-- The readable bytes. -/
def readable (b : RawBuffer) : Bytes := (b.buffer.drop b.readIndex).take (b.writeIndex - b.readIndex)

/-- The operations that a caller and the kernel may come up with: `advance_read_index` asserts its
bound, `readv` fills what it is offered, `::write` takes what it is given. -/
def Admits (b : RawBuffer) : BufferOp → Prop
  | .writeToBuffer (some data) _ => data.length ≤ kMaxObjectSize
  | .writeToBuffer none _ => True
  | .readFromBuffer _ _ => True
  | .advanceReadIndex len => len ≤ b.writeIndex - b.readIndex
  | .readFromFd (.data bytes) _ =>
    let writable := b.buffer.length - b.writeIndex
    bytes.length ≤ if writable < kStackBufSize then writable + kStackBufSize else writable
  | .readFromFd (.failed _) _ => True
  | .writeToFd (.accepted n) => n ≤ b.writeIndex - b.readIndex
  | .writeToFd (.failed _) => True

end RawBuffer

/-- A queue of bytes under the same operations. An operation that fails leaves it alone; but what
`readv` has taken from the socket is in it, there is no other place for it. -/
inductive QueueStep : Bytes → BufferOp → BufferEnd → Bytes → Prop
  | write (queue data : Bytes) (allocates : Bool) :
      QueueStep queue (.writeToBuffer (some data) allocates) (.returned []) (queue ++ data)
  | writeNull (queue : Bytes) (allocates : Bool) :
      QueueStep queue (.writeToBuffer none allocates) (.returned []) queue
  | writeThrown (queue : Bytes) (data : Option Bytes) (allocates : Bool) :
      QueueStep queue (.writeToBuffer data allocates) .thrown queue
  | read (queue : Bytes) (len : Nat) (allocates : Bool) :
      QueueStep queue (.readFromBuffer len allocates) (.returned (queue.take len)) (queue.drop len)
  | readThrown (queue : Bytes) (len : Nat) (allocates : Bool) :
      QueueStep queue (.readFromBuffer len allocates) .thrown queue
  | advance (queue : Bytes) (len : Nat) :
      QueueStep queue (.advanceReadIndex len) (.returned []) (queue.drop len)
  | fill (queue bytes : Bytes) (allocates : Bool) :
      QueueStep queue (.readFromFd (.data bytes) allocates) (.returned []) (queue ++ bytes)
  | fillFailed (queue : Bytes) (e : Errno) (allocates : Bool) :
      QueueStep queue (.readFromFd (.failed e) allocates) (.returned []) queue
  | flush (queue : Bytes) (n : Nat) :
      QueueStep queue (.writeToFd (.accepted n)) (.returned (queue.take n)) (queue.drop n)
  | flushFailed (queue : Bytes) (e : Errno) :
      QueueStep queue (.writeToFd (.failed e)) (.returned []) queue

/-- What is left in the queue depends on how the operation ends only. -/
theorem QueueStep.unique {queue queue₁ queue₂ : Bytes} {op : BufferOp} {e : BufferEnd}
    (h₁ : QueueStep queue op e queue₁) (h₂ : QueueStep queue op e queue₂) : queue₁ = queue₂ := by
  cases h₁ with
  | _ =>
    cases h₂ with
    | _ => rfl

namespace RawBuffer

/-- **The state of the buffer is that of the queue**: the layout of the header comment, the readable
bytes, and room wherever `make_space` returns. -/
structure Agrees (b : RawBuffer) (queue : Bytes) : Prop where
  prepend_le : kCheapPrepend ≤ b.readIndex
  read_le_write : b.readIndex ≤ b.writeIndex
  write_le_size : b.writeIndex ≤ b.buffer.length
  readable : b.readable = queue
  makes_space : ∀ len ≤ kMaxObjectSize, ∀ allocates, ∃ made, b.makeSpace len allocates = .ok made ∧
    ∀ b', made = some b' → ∃ writable, b'.writableBytes = .ok writable ∧ len ≤ writable

/-- **The buffer refines the queue along a run**: they agree, every operation does to the buffer what it
does to the queue, and none faults. -/
def RefinesQueue : RawBuffer → Bytes → List BufferOp → Prop
  | b, queue, [] => b.Agrees queue
  | b, queue, op :: ops =>
    b.Agrees queue ∧ (b.Admits op →
      match b.step op with
      | .error _ => False
      | .ok (e, b') => ∃ queue', QueueStep queue op e queue' ∧ RefinesQueue b' queue' ops)

/-- A `readv` that overflows into `extraBuf` finds the room for what is there: in front of the readable
bytes, or in a larger vector. -/
def Grows (b : RawBuffer) : BufferOp → Prop
  | .readFromFd (.data bytes) allocates =>
    let extra := bytes.length - (b.buffer.length - b.writeIndex)
    0 < extra → b.readIndex < extra + kCheapPrepend →
      allocates = true ∧ b.buffer.length + extra ≤ kMaxObjectSize
  | _ => True

/-- Along a run, they all do. -/
def ReadsGrow : RawBuffer → List BufferOp → Prop
  | _, [] => True
  | b, op :: ops =>
    b.Admits op → b.Grows op ∧
      match b.step op with
      | .error _ => True
      | .ok (_, b') => ReadsGrow b' ops

end RawBuffer

/-! ## Checked arithmetic -/

theorem sizeAdd_of_lt {a b : Nat} (h : a + b < 2 ^ 64) : sizeAdd a b = a + b := Nat.mod_eq_of_lt h

theorem sizeSub_of_le {a b : Nat} (h : b ≤ a) : sizeSub a b = .ok (a - b) := if_pos h

theorem copyFrom_of_le {buffer : Bytes} {start len : Nat} (h : start + len ≤ buffer.length) :
    copyFrom buffer start len = .ok ((buffer.drop start).take len) := if_pos h

theorem copyTo_of_le {buffer data : Bytes} {start : Nat} (h : start + data.length ≤ buffer.length) :
    copyTo buffer start data =
      .ok (buffer.take start ++ data ++ buffer.drop (start + data.length)) := if_pos h

namespace Buffer

/-- The members of a well-formed buffer. -/
def toRaw (b : Buffer) : RawBuffer := ⟨b.buffer, b.readIndex, b.writeIndex⟩

/-- Its vector is one that can exist. -/
def Fits (b : Buffer) : Prop := b.buffer.length ≤ kMaxObjectSize

theorem toRaw_readableBytes (b : Buffer) : b.toRaw.readableBytes = .ok b.readableBytes :=
  sizeSub_of_le b.read_le_write

theorem toRaw_writableBytes (b : Buffer) : b.toRaw.writableBytes = .ok b.writableBytes :=
  sizeSub_of_le b.write_le_size

theorem toRaw_maintainReadIndex {b : Buffer} (hb : b.Fits) (len : Nat) :
    b.toRaw.maintainReadIndex len = .ok (b.maintainReadIndex len).toRaw := by
  have h1 := b.read_le_write
  have h2 := b.write_le_size
  unfold Fits kMaxObjectSize at hb
  unfold RawBuffer.maintainReadIndex maintainReadIndex
  rw [toRaw_readableBytes]
  simp only [bind, Except.bind, pure, Except.pure]
  split
  · rename_i hlen
    have hsum : sizeAdd b.readIndex len = b.readIndex + len := by
      refine sizeAdd_of_lt ?_
      unfold readableBytes at hlen
      omega
    simp only [toRaw, hsum]
  · rfl

theorem toRaw_append {b : Buffer} (hb : b.Fits) {data : Bytes} (h : data.length ≤ b.writableBytes) :
    b.toRaw.append data = .ok (b.append data h).toRaw := by
  have h1 := b.write_le_size
  unfold Fits kMaxObjectSize at hb
  unfold writableBytes at h
  unfold RawBuffer.append
  have hcopy : copyTo b.toRaw.buffer b.toRaw.writeIndex data = .ok (b.append data h).buffer :=
    copyTo_of_le (by simp only [toRaw]; omega)
  have hsum : sizeAdd b.toRaw.writeIndex data.length = b.writeIndex + data.length :=
    sizeAdd_of_lt (by simp only [toRaw]; omega)
  rw [hcopy, hsum]
  rfl

/-- Where `make_space` has to grow the vector. -/
def NeedsGrowth (b : Buffer) (len : Nat) : Prop :=
  b.writableBytes + b.prependableBytes < len + kCheapPrepend

instance (b : Buffer) (len : Nat) : Decidable (b.NeedsGrowth len) := inferInstanceAs (Decidable (_ < _))

/-- **`make_space`** is that of `Buffer`, unless the vector cannot grow. -/
theorem toRaw_makeSpace {b : Buffer} (hb : b.Fits) {len : Nat} (hlen : len ≤ kMaxObjectSize)
    (allocates : Bool) :
    b.toRaw.makeSpace len allocates =
      .ok (if b.NeedsGrowth len ∧ ¬(allocates = true ∧ b.writeIndex + len ≤ kMaxObjectSize) then none
        else some (b.makeSpace len).toRaw) := by
  have h0 := b.prepend_le
  have h1 := b.read_le_write
  have h2 := b.write_le_size
  unfold Fits kMaxObjectSize at hb
  unfold kMaxObjectSize at hlen
  have havailable : sizeAdd b.writableBytes b.toRaw.prependableBytes =
      b.writableBytes + b.prependableBytes := by
    refine sizeAdd_of_lt ?_
    simp only [writableBytes, RawBuffer.prependableBytes, toRaw]
    omega
  have hneeded : sizeAdd len kCheapPrepend = len + kCheapPrepend :=
    sizeAdd_of_lt (by unfold kCheapPrepend; omega)
  have hsize : sizeAdd b.toRaw.writeIndex len = b.writeIndex + len :=
    sizeAdd_of_lt (by simp only [toRaw]; omega)
  unfold RawBuffer.makeSpace
  rw [toRaw_writableBytes, toRaw_readableBytes]
  simp only [bind, Except.bind, pure, Except.pure, havailable, hneeded, hsize]
  unfold makeSpace NeedsGrowth
  split
  · rename_i hneeds
    simp only [RawBuffer.resize]
    split
    · rename_i hgrows
      rw [if_neg fun h => h.2 hgrows]
      rfl
    · rename_i hgrows
      rw [if_pos ⟨hneeds, hgrows⟩]
  · rename_i hneeds
    have hmoved : copyFrom b.toRaw.buffer b.toRaw.readIndex b.readableBytes = .ok b.readable :=
      copyFrom_of_le (by simp only [toRaw, readableBytes]; omega)
    have hlength := b.length_readable
    have hcopy : copyTo b.toRaw.buffer kCheapPrepend b.readable = .ok (b.buffer.take kCheapPrepend ++
        b.readable ++ b.buffer.drop (kCheapPrepend + b.readableBytes)) := by
      rw [← hlength]
      refine copyTo_of_le ?_
      simp only [toRaw, hlength, readableBytes]
      omega
    have hindex : sizeAdd kCheapPrepend b.readableBytes = kCheapPrepend + b.readableBytes :=
      sizeAdd_of_lt (by simp only [readableBytes]; omega)
    simp only [hmoved, hcopy, hindex]
    rw [if_neg fun h => hneeds h.1]
    rfl

/-- Growing stays within bounds where it succeeds, and moving changes no size. -/
theorem fits_makeSpace {b : Buffer} (hb : b.Fits) {len : Nat}
    (h : b.NeedsGrowth len → b.writeIndex + len ≤ kMaxObjectSize) : (b.makeSpace len).Fits := by
  have h0 := b.prepend_le
  have h1 := b.read_le_write
  have h2 := b.write_le_size
  unfold Fits at hb ⊢
  unfold makeSpace
  split
  · rename_i hneeds
    have hsize := h hneeds
    simp only [writableBytes, prependableBytes] at hneeds
    simp only [List.length_append, List.length_take, List.length_replicate]
    omega
  · simp only [List.length_append, List.length_take, List.length_drop, length_readable, readableBytes]
    omega

theorem fits_append {b : Buffer} (hb : b.Fits) {data : Bytes} (h : data.length ≤ b.writableBytes) :
    (b.append data h).Fits := by
  have h2 := b.write_le_size
  unfold Fits at hb ⊢
  unfold writableBytes at h
  simp only [append, List.length_append, List.length_take, List.length_drop]
  omega

theorem fits_maintainReadIndex {b : Buffer} (hb : b.Fits) (len : Nat) : (b.maintainReadIndex len).Fits := by
  unfold maintainReadIndex
  split
  · exact hb
  · exact hb

/-- The condition under which `write_to_buffer` cannot go on: no room, and no memory. -/
def CannotGrow (b : Buffer) (len : Nat) (allocates : Bool) : Prop :=
  b.writableBytes < len ∧ b.NeedsGrowth len ∧ ¬(allocates = true ∧ b.writeIndex + len ≤ kMaxObjectSize)

instance (b : Buffer) (len : Nat) (allocates : Bool) : Decidable (b.CannotGrow len allocates) :=
  inferInstanceAs (Decidable (_ ∧ _ ∧ _))

/-- Nothing appended is nothing changed. -/
theorem writeToBuffer_nil (b : Buffer) : b.writeToBuffer [] = b := by
  obtain ⟨buffer, readIndex, writeIndex, _, _, _⟩ := b
  unfold writeToBuffer append
  simp only [List.length_nil, Nat.not_lt_zero, dite_false, List.append_nil, Nat.add_zero,
    List.take_append_drop]

theorem toRaw_writeToBuffer {b : Buffer} (hb : b.Fits) {data : Bytes}
    (hdata : data.length ≤ kMaxObjectSize) (allocates : Bool) :
    b.toRaw.writeToBuffer (some data) allocates =
      .ok (if b.CannotGrow data.length allocates then (.thrown, b.toRaw)
        else (.returned [], (b.writeToBuffer data).toRaw)) := by
  by_cases hempty : data.length = 0
  · obtain rfl := List.length_eq_zero_iff.mp hempty
    rw [if_neg fun h => Nat.not_lt_zero _ h.1, writeToBuffer_nil]
    rfl
  unfold RawBuffer.writeToBuffer
  simp only [bind, Except.bind, pure, Except.pure, toRaw_writableBytes, toRaw_makeSpace hb hdata,
    if_neg hempty]
  by_cases hroom : b.writableBytes < data.length
  · rw [if_pos hroom]
    by_cases hgrows : b.NeedsGrowth data.length ∧
      ¬(allocates = true ∧ b.writeIndex + data.length ≤ kMaxObjectSize)
    · rw [if_pos (show b.CannotGrow data.length allocates from ⟨hroom, hgrows⟩)]
      simp only [if_pos hgrows]
    · rw [if_neg (show ¬b.CannotGrow data.length allocates from fun h => hgrows h.2)]
      have hfits : (b.makeSpace data.length).Fits := by
        refine fits_makeSpace hb fun hneeds => ?_
        by_contra hsize
        exact hgrows ⟨hneeds, fun h => hsize h.2⟩
      simp only [if_neg hgrows, toRaw_append hfits (b.makeSpace_writable _)]
      unfold writeToBuffer
      rw [dif_pos hroom]
  · rw [if_neg hroom, if_neg (show ¬b.CannotGrow data.length allocates from fun h => hroom h.1)]
    simp only [toRaw_append hb (Nat.le_of_not_lt hroom)]
    unfold writeToBuffer
    rw [dif_neg hroom]

theorem fits_writeToBuffer {b : Buffer} (hb : b.Fits) {data : Bytes} {allocates : Bool}
    (h : ¬b.CannotGrow data.length allocates) : (b.writeToBuffer data).Fits := by
  unfold writeToBuffer
  split
  · rename_i hroom
    refine fits_append (fits_makeSpace hb fun hneeds => ?_) _
    by_contra hsize
    exact h ⟨hroom, hneeds, fun hgrows => hsize hgrows.2⟩
  · exact fits_append hb _

theorem toRaw_readFromBuffer {b : Buffer} (hb : b.Fits) (len : Nat) (allocates : Bool) :
    b.toRaw.readFromBuffer len allocates =
      .ok (if allocates then (.returned (b.readFromBuffer len).1, (b.readFromBuffer len).2.toRaw)
        else (.thrown, b.toRaw)) := by
  have h1 := b.read_le_write
  have h2 := b.write_le_size
  unfold RawBuffer.readFromBuffer readFromBuffer
  simp only [bind, Except.bind, pure, Except.pure, toRaw_readableBytes, toRaw_maintainReadIndex hb]
  generalize hmin : (if b.readableBytes < len then b.readableBytes else len) = taken
  have htaken : taken ≤ b.readableBytes := by
    rw [← hmin]
    split
    · exact Nat.le_refl _
    · omega
  have hcopy : copyFrom b.toRaw.buffer b.toRaw.readIndex taken = .ok (b.readable.take taken) := by
    rw [copyFrom_of_le (by simp only [toRaw]; unfold readableBytes at htaken; omega), readable,
      List.take_take, Nat.min_eq_left htaken]
    rfl
  simp only [hcopy]
  split
  · rfl
  · rfl

/-- What `readv` leaves in the vector. -/
def filled (b : Buffer) (bytes : Bytes) : Buffer :=
  b.append (bytes.take b.writableBytes) (by rw [List.length_take]; omega)

/-- An overflow leaves no byte unused. -/
theorem filled_full (b : Buffer) {bytes : Bytes} (h : b.writableBytes < bytes.length) :
    (b.filled bytes).writeIndex = b.buffer.length ∧ (b.filled bytes).buffer.length = b.buffer.length := by
  have h2 := b.write_le_size
  unfold writableBytes at h
  simp only [filled, append, writableBytes, List.length_append, List.length_take, List.length_drop]
  omega

theorem toRaw_readFromFd {b : Buffer} (hb : b.Fits) {bytes : Bytes} {allocates : Bool}
    (hadmits : b.toRaw.Admits (.readFromFd (.data bytes) allocates)) :
    b.toRaw.readFromFd (.data bytes) allocates =
      .ok (if (b.filled bytes).CannotGrow (bytes.drop b.writableBytes).length allocates then
          (.thrown, (b.filled bytes).toRaw)
        else (.returned [], (b.readFromFd (.data bytes)).toRaw)) := by
  have h2 := b.write_le_size
  have hfits : b.buffer.length ≤ kMaxObjectSize := hb
  unfold kMaxObjectSize at hfits
  have hstored : (bytes.take b.writableBytes).length ≤ b.writableBytes := by
    rw [List.length_take]
    omega
  have hcopy : copyTo b.toRaw.buffer b.toRaw.writeIndex (bytes.take b.writableBytes) =
      .ok (b.filled bytes).buffer := by
    refine copyTo_of_le ?_
    simp only [toRaw]
    unfold writableBytes at hstored ⊢
    omega
  unfold RawBuffer.readFromFd readFromFd
  simp only [bind, Except.bind, pure, Except.pure, toRaw_writableBytes, hcopy]
  by_cases hroom : bytes.length ≤ b.writableBytes
  · have hdrop : (bytes.drop b.writableBytes).length = 0 := by
      rw [List.length_drop]
      omega
    have hsum : sizeAdd b.toRaw.writeIndex bytes.length = b.writeIndex + bytes.length := by
      refine sizeAdd_of_lt ?_
      simp only [toRaw]
      unfold writableBytes at hroom
      omega
    rw [if_pos hroom, hdrop, if_neg fun h => Nat.not_lt_zero _ h.1, dif_pos hroom, hsum]
    simp only [filled, List.take_of_length_le hroom]
    rfl
  · have hextra : sizeSub bytes.length b.writableBytes = .ok (bytes.length - b.writableBytes) :=
      sizeSub_of_le (Nat.le_of_not_le hroom)
    have htake : (bytes.drop b.writableBytes).take (bytes.length - b.writableBytes) =
        bytes.drop b.writableBytes := by
      exact List.take_of_length_le (Nat.le_of_eq List.length_drop)
    have hsmall : (bytes.drop b.writableBytes).length ≤ kMaxObjectSize := by
      have hoffered : bytes.length ≤
          if b.writableBytes < kStackBufSize then b.writableBytes + kStackBufSize else b.writableBytes := hadmits
      rw [List.length_drop]
      unfold kStackBufSize at hoffered
      unfold kMaxObjectSize
      split at hoffered
      · omega
      · omega
    have hfull : (⟨(b.filled bytes).buffer, b.toRaw.readIndex, (b.filled bytes).buffer.length⟩ : RawBuffer) =
        (b.filled bytes).toRaw := by
      obtain ⟨hindex, hlength⟩ := b.filled_full (Nat.lt_of_not_le hroom)
      simp only [toRaw, hindex, hlength]
      rfl
    rw [if_neg hroom, hextra, dif_neg hroom]
    simp only [htake, hfull]
    exact toRaw_writeToBuffer (fits_append hb _) hsmall allocates

theorem toRaw_writeToFd {b : Buffer} (hb : b.Fits) (r : WriteResult) :
    b.toRaw.writeToFd r = .ok (.returned (match r with | .failed _ => [] | .accepted n => b.readable.take n),
      (b.writeToFd r).toRaw) := by
  have h1 := b.read_le_write
  have h2 := b.write_le_size
  have hoffered : copyFrom b.toRaw.buffer b.toRaw.readIndex b.readableBytes = .ok b.readable :=
    copyFrom_of_le (by simp only [toRaw, readableBytes]; omega)
  unfold RawBuffer.writeToFd writeToFd
  simp only [bind, Except.bind, pure, Except.pure, toRaw_readableBytes, hoffered]
  cases r with
  | failed e => rfl
  | accepted n => simp only [toRaw_maintainReadIndex hb]

/-- The overflow cannot be stored exactly when the read does not grow. -/
theorem grows_iff (b : Buffer) (bytes : Bytes) (allocates : Bool) :
    b.toRaw.Grows (.readFromFd (.data bytes) allocates) ↔
      ¬(b.filled bytes).CannotGrow (bytes.drop b.writableBytes).length allocates := by
  have hextra : bytes.length - (b.toRaw.buffer.length - b.toRaw.writeIndex) =
      (bytes.drop b.writableBytes).length := (List.length_drop).symm
  unfold RawBuffer.Grows CannotGrow
  simp only [hextra]
  by_cases hroom : bytes.length ≤ b.writableBytes
  · have hdrop : (bytes.drop b.writableBytes).length = 0 := by
      rw [List.length_drop]
      omega
    rw [hdrop]
    exact iff_of_true (fun h => absurd h (Nat.lt_irrefl 0)) fun h => Nat.not_lt_zero _ h.1
  · obtain ⟨hindex, hlength⟩ := b.filled_full (Nat.lt_of_not_le hroom)
    have hwritable : (b.filled bytes).writableBytes = 0 := by
      rw [writableBytes, hindex, hlength, Nat.sub_self]
    have hprepend : (b.filled bytes).prependableBytes = b.toRaw.readIndex := rfl
    unfold NeedsGrowth
    rw [hwritable, hprepend, hindex, Nat.zero_add]
    have hsize : b.toRaw.buffer.length = b.buffer.length := rfl
    rw [hsize]
    tauto

/-! ## Steps and runs -/

theorem fits_readFromFd {b : Buffer} (hb : b.Fits) {bytes : Bytes} {allocates : Bool}
    (h : ¬(b.filled bytes).CannotGrow (bytes.drop b.writableBytes).length allocates) :
    (b.readFromFd (.data bytes)).Fits := by
  unfold readFromFd
  simp only
  split
  · exact fits_append hb _
  · exact fits_writeToBuffer (fits_append hb _) h

/-- **Step**: an operation on a well-formed buffer leaves one and does to the readable bytes what it does
to the queue. -/
theorem toRaw_step {b : Buffer} (hb : b.Fits) {op : BufferOp} (hadmits : b.toRaw.Admits op)
    (hgrows : b.toRaw.Grows op) :
    ∃ e, ∃ b' : Buffer, b.toRaw.step op = .ok (e, b'.toRaw) ∧ b'.Fits ∧
      QueueStep b.readable op e b'.readable := by
  cases op with
  | writeToBuffer data allocates =>
    cases data with
    | none => exact ⟨.returned [], b, rfl, hb, .writeNull _ _⟩
    | some data =>
      have hstep := toRaw_writeToBuffer hb hadmits allocates
      by_cases hcannot : b.CannotGrow data.length allocates
      · rw [if_pos hcannot] at hstep
        exact ⟨.thrown, b, hstep, hb, .writeThrown _ _ _⟩
      · rw [if_neg hcannot] at hstep
        refine ⟨.returned [], _, hstep, fits_writeToBuffer hb hcannot, ?_⟩
        rw [readable_writeToBuffer]
        exact .write _ _ _
  | readFromBuffer len allocates =>
    have hstep := toRaw_readFromBuffer hb len allocates
    obtain ⟨hbytes, hrest⟩ := b.readFromBuffer_spec len
    cases allocates with
    | false => exact ⟨.thrown, b, hstep, hb, .readThrown _ _ _⟩
    | true =>
      refine ⟨_, _, hstep, fits_maintainReadIndex hb _, ?_⟩
      rw [hbytes, hrest]
      exact .read _ _ _
  | advanceReadIndex len =>
    have hstep : b.toRaw.advanceReadIndex len = .ok (.returned [], (b.advanceReadIndex len).toRaw) := by
      unfold RawBuffer.advanceReadIndex
      rw [toRaw_maintainReadIndex hb]
      rfl
    refine ⟨_, _, hstep, fits_maintainReadIndex hb _, ?_⟩
    rw [readable_advanceReadIndex]
    exact .advance _ _
  | readFromFd r allocates =>
    cases r with
    | failed e =>
      have hstep : b.toRaw.readFromFd (.failed e) allocates = .ok (.returned [], b.toRaw) := by
        unfold RawBuffer.readFromFd
        rw [toRaw_writableBytes]
        rfl
      exact ⟨_, b, hstep, hb, .fillFailed _ _ _⟩
    | data bytes =>
      have hstep := toRaw_readFromFd hb hadmits
      have hcan := (b.grows_iff bytes allocates).mp hgrows
      rw [if_neg hcan] at hstep
      refine ⟨_, _, hstep, fits_readFromFd hb hcan, ?_⟩
      rw [readFromFd_data]
      exact .fill _ _ _
  | writeToFd r =>
    have hstep := toRaw_writeToFd hb r
    cases r with
    | failed e => exact ⟨_, b, hstep, hb, .flushFailed _ _⟩
    | accepted n =>
      refine ⟨_, _, hstep, fits_maintainReadIndex hb _, ?_⟩
      rw [writeToFd_accepted]
      exact .flush _ _

/-- A read that cannot grow throws, and what did not fit into the vector is lost. -/
theorem thrown_of_not_grows {b : Buffer} (hb : b.Fits) {op : BufferOp} (hadmits : b.toRaw.Admits op)
    (hgrows : ¬b.toRaw.Grows op) : ∃ bytes allocates b', op = .readFromFd (.data bytes) allocates ∧
      b.toRaw.step op = .ok (.thrown, b') := by
  cases op with
  | readFromFd r allocates =>
    cases r with
    | failed e => exact absurd trivial hgrows
    | data bytes =>
      have hstep := toRaw_readFromFd hb hadmits
      rw [if_pos (not_not.mp fun hcan => hgrows ((b.grows_iff bytes allocates).mpr hcan))] at hstep
      exact ⟨bytes, allocates, _, rfl, hstep⟩
  | _ => exact absurd trivial hgrows

/-- A well-formed buffer agrees with the queue of its readable bytes. -/
theorem agrees_toRaw {b : Buffer} (hb : b.Fits) : b.toRaw.Agrees b.readable where
  prepend_le := b.prepend_le
  read_le_write := b.read_le_write
  write_le_size := b.write_le_size
  readable := rfl
  makes_space := by
    intro len hlen allocates
    refine ⟨_, toRaw_makeSpace hb hlen allocates, fun b' hb' => ?_⟩
    split at hb'
    · cases hb'
    · cases hb'
      exact ⟨_, toRaw_writableBytes _, b.makeSpace_writable len⟩

/-- **Run**: from a well-formed buffer on, the only thing that can go wrong is a read that cannot grow. -/
theorem refinesQueue_toRaw_iff {b : Buffer} (hb : b.Fits) (ops : List BufferOp) :
    b.toRaw.RefinesQueue b.readable ops ↔ b.toRaw.ReadsGrow ops := by
  induction ops generalizing b with
  | nil => exact iff_of_true (agrees_toRaw hb) trivial
  | cons op ops ih =>
    unfold RawBuffer.RefinesQueue RawBuffer.ReadsGrow
    rw [and_iff_right (agrees_toRaw hb)]
    refine imp_congr_right fun hadmits => ?_
    by_cases hgrows : b.toRaw.Grows op
    · obtain ⟨e, b', hstep, hb', hqueue⟩ := toRaw_step hb hadmits hgrows
      simp only [hstep, ← ih hb', and_iff_right hgrows]
      constructor
      · rintro ⟨queue', hqueue', hrest⟩
        rw [hqueue'.unique hqueue] at hrest
        exact hrest
      · exact fun h => ⟨_, hqueue, h⟩
    · obtain ⟨bytes, allocates, b', rfl, hstep⟩ := thrown_of_not_grows hb hadmits hgrows
      simp only [hstep, hgrows, false_and, iff_false]
      rintro ⟨queue', hqueue, -⟩
      cases hqueue

end Buffer

namespace RawBuffer

/-- Without a wrap, the constructor builds a well-formed buffer. -/
theorem create_toRaw {initialSize : UInt64} {allocates : Bool} {b : RawBuffer}
    (h : create initialSize allocates = some b)
    (hsize : initialSize.toNat + kCheapPrepend < 2 ^ 64) :
    (Buffer.ofSize initialSize.toNat).Fits ∧ b = (Buffer.ofSize initialSize.toNat).toRaw := by
  have hsum : sizeAdd kCheapPrepend initialSize.toNat = kCheapPrepend + initialSize.toNat :=
    sizeAdd_of_lt (by omega)
  unfold create at h
  rw [hsum] at h
  simp only at h
  split at h
  · rename_i hfits
    cases h
    refine ⟨?_, rfl⟩
    unfold Buffer.Fits Buffer.ofSize
    rw [List.length_replicate]
    exact hfits.2
  · cases h

/-- **The buffer is a queue exactly when `kCheapPrepend + initialSize` does not wrap and no read that
overflows into `extraBuf` fails to grow the vector**: for every initial size and every run. -/
theorem refines_queue_iff {initialSize : UInt64} {allocates : Bool} {b : RawBuffer}
    (h : create initialSize allocates = some b) (ops : List BufferOp) :
    b.RefinesQueue [] ops ↔ initialSize.toNat + kCheapPrepend < 2 ^ 64 ∧ b.ReadsGrow ops := by
  by_cases hsize : initialSize.toNat + kCheapPrepend < 2 ^ 64
  · obtain ⟨hfits, rfl⟩ := create_toRaw h hsize
    have hrun := Buffer.refinesQueue_toRaw_iff hfits ops
    rw [Buffer.readable_ofSize] at hrun
    rw [hrun, and_iff_right hsize]
  · refine iff_of_false (fun hrefines => ?_) fun hcondition => hsize hcondition.1
    -- the vector has less than `kCheapPrepend` bytes
    have hagrees : b.Agrees [] := by
      cases ops with
      | nil => exact hrefines
      | cons op ops => exact hrefines.1
    have hlayout := hagrees.write_le_size
    have hwraps : sizeAdd kCheapPrepend initialSize.toNat < kCheapPrepend := by
      have hlt := initialSize.toNat_lt
      unfold sizeAdd
      unfold kCheapPrepend at hsize ⊢
      omega
    unfold create at h
    simp only at h
    split at h
    · cases h
      rw [List.length_replicate] at hlayout
      exact absurd hwraps (Nat.not_lt.mpr hlayout)
    · cases h

/-- The bytes of `BufferTest`: written, partly read, moved to the front, and read from a socket. -/
def reuseOps : List BufferOp :=
  [.writeToBuffer (some [97, 98, 99, 100, 101, 102]) true, .readFromBuffer 4 true,
    .writeToBuffer (some [103, 104, 105, 106, 107, 108]) true,
    .readFromFd (.data (List.replicate 12 120)) true, .writeToFd (.accepted 3)]

theorem refines_queue_reuseOps :
    RefinesQueue ⟨List.replicate 16 0, 8, 8⟩ [] reuseOps := by
  have hcreate : create 8 true = some ⟨List.replicate 16 0, 8, 8⟩ := by decide
  refine (refines_queue_iff hcreate reuseOps).mpr ⟨by decide, ?_⟩
  exact fun _ => ⟨trivial, fun _ => ⟨trivial, fun _ => ⟨trivial, fun _ =>
    ⟨fun _ _ => ⟨rfl, by decide⟩, fun _ => ⟨trivial, trivial⟩⟩⟩⟩⟩

/-- **An initial size near `SIZE_MAX` wraps**: seven bytes, and indices behind their end. -/
theorem initialSize_wraps :
    ¬∀ (initialSize : UInt64) (b : RawBuffer) (ops : List BufferOp),
      create initialSize true = some b → b.RefinesQueue [] ops := by
  intro h
  have hagrees : Agrees ⟨List.replicate 7 0, 8, 8⟩ [] :=
    h 18446744073709551615 ⟨List.replicate 7 0, 8, 8⟩ [] (by decide)
  exact absurd hagrees.write_le_size (by decide)

end RawBuffer

end Tudou
