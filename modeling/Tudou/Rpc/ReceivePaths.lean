import Tudou.Rpc.BinaryRpcCodec

/-!
# `BinaryRpcChannel`: the two receive paths

`receive_loop` of thread mode decodes after each read; `on_read` of loop mode reads until the socket
has nothing more and decodes then.  Model of both in `src/tudou/rpc/binary/BinaryRpcChannel.cpp`, with
the real decoder, over everything the socket can deliver up to its end.

* `Receiving` — what the receive paths read and write.
* `decodeLoop` — the `while (running_)` around `decode`, the same in both.
* `receiveLoop`, `onRead` — the two paths; `received_receiveLoop`, `received_onReads` say what a path
  has decoded in terms of the bytes it has read.
* `receive_paths_agree_iff` — **the paths agree exactly where no response comes with the end of the
  connection**.
-/

namespace Tudou

open Framing

/-- What a read delivers before the end: some bytes, or `EINTR`. -/
inductive ReadChunk where
  | data (first : Byte) (more : Bytes)
  | interrupted
  deriving DecidableEq, Repr

/-- How the stream ends: EOF, or an error other than `EINTR` and `EAGAIN`. -/
inductive ReadEnd where
  | eof
  | error (code : Nat)
  deriving DecidableEq, Repr

def ReadChunk.result : ReadChunk → ReadResult
  | .data first more => .data (first :: more)
  | .interrupted => .failed .eintr

def ReadChunk.bytes : ReadChunk → Bytes
  | .data first more => first :: more
  | .interrupted => []

def ReadEnd.result : ReadEnd → ReadResult
  | .eof => .data []
  | .error code => .failed (.other code)

/-- `pendingRequests_` by sequence id, and what has been completed: with the body a response was
parsed from, or with an exception. -/
structure Requests where
  pending : List UInt64
  completions : List (UInt64 × Except String Bytes)
  deriving Repr

structure Receiving where
  running : Bool
  readBuf : Buffer
  requests : Requests

namespace Requests

/-- A frame for a pending request completes it; `parses seq` is `ParseFromString` of its response. -/
def deliver (parses : UInt64 → Bytes → Bool) (r : Requests) (f : RpcFrame) : Requests :=
  if f.header.sequenceId ∈ r.pending then
    { pending := r.pending.filter fun seq => seq ≠ f.header.sequenceId
      completions := r.completions ++ [(f.header.sequenceId,
        if parses f.header.sequenceId f.bodyBytes then .ok f.bodyBytes
        else .error "BinaryRpcChannel: Failed to parse Response Message")] }
  else r

/-- `cleanup_pending_requests(reason)`. -/
def cleanup (r : Requests) (reason : String) : Requests where
  pending := []
  completions := r.completions ++ r.pending.map fun seq => (seq, .error reason)

/-- The outcome of a request: a response, or a failure of any kind. -/
def outcome (r : Requests) (seq : UInt64) : Option (Option Bytes) :=
  (r.completions.find? fun c => c.1 = seq).map fun c => c.2.toOption

end Requests

namespace Receiving

/-- A fresh channel with some requests pending. -/
def start (pending : List UInt64) : Receiving := ⟨true, Buffer.empty, ⟨pending, []⟩⟩

def cleanup (r : Receiving) (reason : String) : Receiving :=
  { r with requests := r.requests.cleanup reason }

section Paths

variable (parses : UInt64 → Bytes → Bool)

/-- `while (running_)` around `decode`; each round takes a frame off, so the bytes bound it. -/
def decodeLoop (decodeError : String) : Nat → Receiving → Receiving
  | 0, r => r
  | fuel + 1, r =>
    if r.running then
      match BinaryRpcCodec.decode r.readBuf with
      | .success header metaBytes bodyBytes buf =>
        decodeLoop decodeError fuel
          { r with readBuf := buf, requests := r.requests.deliver parses ⟨header, metaBytes, bodyBytes⟩ }
      | .empty | .halfPack => r
      | .error => { r.cleanup decodeError with running := false }
    else r

/-- All rounds. -/
def decodeAll (decodeError : String) (r : Receiving) : Receiving :=
  decodeLoop parses decodeError (r.readBuf.readableBytes + 1) r

/-- `receive_loop()`, given the results of its reads. -/
def receiveLoop : List ReadResult → Receiving → Receiving
  | [], r => r
  | x :: xs, r =>
    if r.running then
      match x with
      | .failed .eintr | .failed .eagain => receiveLoop xs r
      | .failed (.other _) | .data [] =>
        r.cleanup "BinaryRpcChannel: Connection closed prematurely"
      | .data (b :: bs) =>
        receiveLoop xs (decodeAll parses "BinaryRpcChannel: Detected binary protocol decode error"
          { r with readBuf := r.readBuf.writeToBuffer (b :: bs) })
    else r

/-- The reads of `on_read()` in one event, and whether they ended in `socketErrorOrEOF`. -/
def readEvent : List ReadResult → Receiving → Receiving × Bool
  | [], r => (r, false)
  | x :: xs, r =>
    if r.running then
      match x with
      | .failed .eintr => readEvent xs r
      | .failed .eagain => (r, false)
      | .failed (.other _) | .data [] => (r, true)
      | .data (b :: bs) => readEvent xs { r with readBuf := r.readBuf.writeToBuffer (b :: bs) }
    else (r, false)

/-- `on_read()`. -/
def onRead (event : List ReadResult) (r : Receiving) : Receiving :=
  match readEvent event r with
  | (r, true) => { r.cleanup "BinaryRpcChannel: Connection closed or read error" with running := false }
  | (r, false) => decodeAll parses "BinaryRpcChannel: Protocol decode error" r

end Paths

end Receiving

/-- What arrives on a connection, grouped into readiness events: `last` is what the event that finds
the end of the connection reads before it. -/
structure Arrivals where
  events : List (List ReadChunk)
  last : List ReadChunk
  ending : ReadEnd
  deriving DecidableEq, Repr

namespace Arrivals

/-- The reads of `receive_loop`, whose socket blocks. -/
def reads (a : Arrivals) : List ReadResult :=
  (a.events.flatten ++ a.last).map ReadChunk.result ++ [a.ending.result]

/-- The reads of `on_read`, event by event; each one but the last reads until `EAGAIN`. -/
def eventReads (a : Arrivals) : List (List ReadResult) :=
  (a.events.map fun event => event.map ReadChunk.result ++ [.failed .eagain]) ++
    [a.last.map ReadChunk.result ++ [a.ending.result]]

/-- The bytes of all events before the last one. -/
def early (a : Arrivals) : Bytes := a.events.flatten.flatMap ReadChunk.bytes

/-- All bytes. -/
def bytes (a : Arrivals) : Bytes := a.early ++ a.last.flatMap ReadChunk.bytes

/-- The frames that are complete only with the bytes of the last event. -/
def lateFrames (a : Arrivals) : List RpcFrame :=
  (frames.split a.bytes).1.drop (frames.split a.early).1.length

/-- Request `seq` has its response come with the end of the connection: no frame for it came before,
and the first one that comes then parses. -/
def AnsweredAtEnd (parses : UInt64 → Bytes → Bool) (a : Arrivals) (seq : UInt64) : Prop :=
  (∀ f ∈ (frames.split a.early).1, f.header.sequenceId ≠ seq) ∧
    ∃ f ∈ a.lateFrames.find? (fun f => f.header.sequenceId = seq), parses seq f.bodyBytes = true

end Arrivals

namespace Receiving

/-- `receive_loop` from a fresh channel. -/
def threadMode (parses : UInt64 → Bytes → Bool) (pending : List UInt64) (a : Arrivals) : Requests :=
  (receiveLoop parses a.reads (start pending)).requests

/-- `on_read`, event by event, from a fresh channel. -/
def loopMode (parses : UInt64 → Bytes → Bool) (pending : List UInt64) (a : Arrivals) : Requests :=
  (a.eventReads.foldl (fun r event => onRead parses event r) (start pending)).requests

end Receiving

/-! ## Outcomes -/

namespace Requests

variable {parses : UInt64 → Bytes → Bool}

/-- The response of request `seq` among some frames: the first frame for it, if it parses. -/
def answer (parses : UInt64 → Bytes → Bool) (seq : UInt64) (fs : List RpcFrame) : Option Bytes :=
  match fs.find? fun f => f.header.sequenceId = seq with
  | none => none
  | some f => if parses seq f.bodyBytes then some f.bodyBytes else none

theorem outcome_append (pending : List UInt64) (old new : List (UInt64 × Except String Bytes))
    (seq : UInt64) : outcome ⟨pending, old ++ new⟩ seq =
      (outcome ⟨pending, old⟩ seq).or (outcome ⟨pending, new⟩ seq) := by
  unfold outcome
  rw [List.find?_append, Option.map_or]

/-- A frame for another request. -/
theorem outcome_deliver_other (r : Requests) {f : RpcFrame} {seq : UInt64}
    (h : f.header.sequenceId ∈ r.pending → f.header.sequenceId ≠ seq) :
    (r.deliver parses f).outcome seq = r.outcome seq := by
  unfold deliver
  split
  · rename_i hmem
    rw [outcome_append]
    have hnone : outcome ⟨r.pending.filter fun seq => seq ≠ f.header.sequenceId,
        [(f.header.sequenceId, if parses f.header.sequenceId f.bodyBytes then Except.ok f.bodyBytes
          else Except.error "BinaryRpcChannel: Failed to parse Response Message")]⟩ seq = none := by
      simp [outcome, h hmem]
    rw [hnone, Option.or_none]
    rfl
  · rfl

theorem not_mem_pending_deliver {r : Requests} {f : RpcFrame} {seq : UInt64} (h : seq ∉ r.pending) :
    seq ∉ (r.deliver parses f).pending := by
  unfold deliver
  split
  · simp [h]
  · exact h

theorem outcome_cleanup_of_not_mem {r : Requests} {seq : UInt64} (h : seq ∉ r.pending) (reason : String) :
    (r.cleanup reason).outcome seq = r.outcome seq := by
  have hnone : outcome ⟨[], r.pending.map fun seq => (seq, Except.error reason)⟩ seq = none := by
    simp only [outcome, Option.map_eq_none_iff, List.find?_eq_none, List.mem_map]
    rintro _ ⟨seq', hmem, rfl⟩
    simp only [decide_eq_true_eq]
    rintro rfl
    exact h hmem
  rw [cleanup, outcome_append, hnone, Option.or_none]
  rfl

/-- A request that is not pending keeps its outcome. -/
theorem outcome_of_not_mem (fs : List RpcFrame) {r : Requests} {seq : UInt64} (h : seq ∉ r.pending)
    (reason : String) : ((fs.foldl (deliver parses) r).cleanup reason).outcome seq = r.outcome seq := by
  induction fs generalizing r with
  | nil => exact outcome_cleanup_of_not_mem h reason
  | cons f fs ih =>
    rw [List.foldl_cons, ih (not_mem_pending_deliver h)]
    apply outcome_deliver_other
    rintro hmem rfl
    exact h hmem

/-- **A pending request ends with the first frame for it, or fails in the cleanup.** -/
theorem outcome_of_mem (fs : List RpcFrame) {r : Requests} {seq : UInt64} (h : seq ∈ r.pending)
    (hfresh : r.outcome seq = none) (reason : String) :
    ((fs.foldl (deliver parses) r).cleanup reason).outcome seq = some (answer parses seq fs) := by
  induction fs generalizing r with
  | nil =>
    show (r.cleanup reason).outcome seq = some none
    have hfails : outcome ⟨[], r.pending.map fun seq => (seq, Except.error reason)⟩ seq = some none := by
      have hsome : ((r.pending.map fun seq => (seq, (Except.error reason : Except String Bytes))).find?
          fun c => c.1 = seq).isSome := by
        rw [List.find?_isSome]
        exact ⟨_, List.mem_map_of_mem h, by simp⟩
      obtain ⟨c, hc⟩ := Option.isSome_iff_exists.mp hsome
      obtain ⟨seq', -, rfl⟩ := List.mem_map.mp (List.mem_of_find?_eq_some hc)
      simp only [outcome, hc]
      rfl
    have hold : outcome ⟨[], r.completions⟩ seq = none := hfresh
    rw [cleanup, outcome_append, hfails, hold]
    rfl
  | cons f fs ih =>
    rw [List.foldl_cons]
    by_cases hf : f.header.sequenceId = seq
    · subst hf
      have hnot : f.header.sequenceId ∉ (r.deliver parses f).pending := by
        unfold deliver
        rw [if_pos h]
        simp
      have hold : outcome ⟨r.pending.filter fun seq => seq ≠ f.header.sequenceId, r.completions⟩
          f.header.sequenceId = none := hfresh
      rw [outcome_of_not_mem fs hnot, deliver, if_pos h, outcome_append, hold, Option.none_or]
      by_cases hparses : parses f.header.sequenceId f.bodyBytes = true
      · simp [outcome, answer, hparses, Except.toOption]
      · simp [outcome, answer, hparses, Except.toOption]
    · have hmem : seq ∈ (r.deliver parses f).pending := by
        unfold deliver
        split
        · simp [h, Ne.symm hf]
        · exact h
      have hsame : outcome (r.deliver parses f) seq = outcome r seq :=
        outcome_deliver_other r fun _ => hf
      rw [ih hmem (hsame.trans hfresh)]
      simp [answer, hf]

end Requests

/-! ## What a path has decoded -/

namespace Receiving

variable {parses : UInt64 → Bytes → Bool}

/-- The requests after the frames of some bytes. -/
def received (parses : UInt64 → Bytes → Bool) (pending : List UInt64) (bytes : Bytes) : Requests :=
  (frames.split bytes).1.foldl (Requests.deliver parses) ⟨pending, []⟩

/-- Everything that can be decoded from some bytes has been: the rest is buffered, or a bad frame has
ended the channel. -/
inductive Decoded (parses : UInt64 → Bytes → Bool) (pending : List UInt64) (bytes : Bytes)
    (r : Receiving) : Prop where
  | more (left : Bytes) (hsplit : (frames.split bytes).2 = some left) (hrunning : r.running = true)
      (hbuf : r.readBuf.readable = left) (hrequests : r.requests = received parses pending bytes)
  | corrupt (reason : String) (hsplit : (frames.split bytes).2 = none) (hrunning : r.running = false)
      (hrequests : r.requests = (received parses pending bytes).cleanup reason)

/-- **The decode loop takes off all frames of the buffer**, up to a bad one. -/
theorem decodeLoop_ends (decodeError : String) (fuel : Nat) {r : Receiving} (hrunning : r.running = true)
    (hfuel : r.readBuf.readable.length < fuel) :
    let r' := decodeLoop parses decodeError fuel r
    let requests := (frames.split r.readBuf.readable).1.foldl (Requests.deliver parses) r.requests
    match (frames.split r.readBuf.readable).2 with
    | some left => r'.running = true ∧ r'.readBuf.readable = left ∧ r'.requests = requests
    | none => r'.running = false ∧ r'.requests = requests.cleanup decodeError := by
  induction fuel generalizing r with
  | zero => omega
  | succ fuel ih =>
    have hends := decode_ends r.readBuf
    simp only [decodeLoop, if_pos hrunning]
    cases hdecode : BinaryRpcCodec.decode r.readBuf with
    | success header metaBytes bodyBytes buf =>
      rw [hdecode] at hends
      have hscan : frames.scan r.readBuf.readable = .message ⟨header, metaBytes, bodyBytes⟩ buf.readable :=
        hends
      have hlt := frames.length_lt hscan
      have hrest := ih (r := { r with
        readBuf := buf, requests := r.requests.deliver parses ⟨header, metaBytes, bodyBytes⟩ }) hrunning
        (show buf.readable.length < fuel by omega)
      rw [Splitter.split_of_message hscan]
      exact hrest
    | empty | halfPack =>
      rw [hdecode] at hends
      have hscan : frames.scan r.readBuf.readable = .more := hends
      rw [Splitter.split_of_more hscan]
      exact ⟨hrunning, rfl, rfl⟩
    | error =>
      rw [hdecode] at hends
      have hscan : frames.scan r.readBuf.readable = .corrupt := hends
      rw [Splitter.split_of_corrupt hscan]
      exact ⟨rfl, rfl⟩

theorem received_of_corrupt {pending : List UInt64} {bytes : Bytes} (more : Bytes)
    (h : (frames.split bytes).2 = none) :
    received parses pending (bytes ++ more) = received parses pending bytes := by
  rw [received, received, Splitter.split_append_of_corrupt more h]

/-- After a bad frame nothing counts. -/
theorem Decoded.append_of_not_running {pending : List UInt64} {bytes : Bytes} {r : Receiving}
    (h : Decoded parses pending bytes r) (hstopped : r.running = false) (more : Bytes) :
    Decoded parses pending (bytes ++ more) r := by
  cases h with
  | more left _ hrunning _ _ =>
    rw [hstopped] at hrunning
    cases hrunning
  | corrupt reason hsplit hrunning hrequests =>
    refine .corrupt reason ?_ hrunning ?_
    · rw [Splitter.split_append_of_corrupt more hsplit]
      exact hsplit
    · rw [received_of_corrupt more hsplit]
      exact hrequests

/-- **More bytes are read, and then decoded.** -/
theorem Decoded.decodeAll {pending : List UInt64} {bytes : Bytes} {r : Receiving}
    (h : Decoded parses pending bytes r) (hrunning : r.running = true) (decodeError : String) {more : Bytes}
    {buf : Buffer} (hbuf : buf.readable = r.readBuf.readable ++ more) :
    Decoded parses pending (bytes ++ more) (decodeAll parses decodeError { r with readBuf := buf }) := by
  cases h with
  | corrupt _ _ hstopped _ =>
    rw [hstopped] at hrunning
    cases hrunning
  | more left hsplit _ hleft hrequests =>
    subst hleft
    have hall := Splitter.split_append more hsplit
    have hends := @decodeLoop_ends parses decodeError (buf.readableBytes + 1) { r with readBuf := buf }
      hrunning (by rw [Buffer.length_readable]; exact Nat.lt_succ_self _)
    have hreceived : received parses pending (bytes ++ more) =
        (frames.split buf.readable).1.foldl (Requests.deliver parses) r.requests := by
      rw [received, hall, List.foldl_append, ← hbuf, hrequests]
      rfl
    cases hsplit' : (frames.split buf.readable).2 with
    | some left' =>
      simp only [hsplit'] at hends
      obtain ⟨hrunning', hleft', hrequests'⟩ := hends
      refine .more left' ?_ hrunning' hleft' (hrequests'.trans hreceived.symm)
      rw [hall, ← hbuf]
      exact hsplit'
    | none =>
      simp only [hsplit'] at hends
      obtain ⟨hstopped, hrequests'⟩ := hends
      refine .corrupt decodeError ?_ hstopped (by rw [hreceived]; exact hrequests')
      rw [hall, ← hbuf]
      exact hsplit'

theorem decoded_start (pending : List UInt64) : Decoded parses pending [] (start pending) := by
  have hscan : frames.scan [] = .more := rfl
  refine .more [] ?_ rfl Buffer.readable_empty ?_
  · rw [Splitter.split_of_more hscan]
  · rw [received, Splitter.split_of_more hscan]
    rfl

theorem receiveLoop_of_not_running {r : Receiving} (h : r.running = false) (xs : List ReadResult) :
    receiveLoop parses xs r = r := by
  cases xs with
  | nil => rfl
  | cons x xs => simp only [receiveLoop, h, if_neg, Bool.false_eq_true, not_false_eq_true]

/-- **Thread mode**: all frames are delivered, and the rest fails. -/
theorem receiveLoop_ends {pending : List UInt64} (ending : ReadEnd) (chunks : List ReadChunk)
    {bytes : Bytes} {r : Receiving} (h : Decoded parses pending bytes r) :
    ∃ reason, (receiveLoop parses (chunks.map ReadChunk.result ++ [ending.result]) r).requests =
      (received parses pending (bytes ++ chunks.flatMap ReadChunk.bytes)).cleanup reason := by
  induction chunks generalizing bytes r with
  | nil =>
    rw [List.flatMap_nil, List.append_nil]
    cases h with
    | corrupt reason _ hstopped hrequests =>
      rw [receiveLoop_of_not_running hstopped]
      exact ⟨reason, hrequests⟩
    | more left _ hrunning _ hrequests =>
      refine ⟨"BinaryRpcChannel: Connection closed prematurely", ?_⟩
      rw [← hrequests]
      cases ending with
      | eof | error code =>
        simp only [List.map_nil, List.nil_append, receiveLoop, ReadEnd.result, if_pos hrunning]
        rfl
  | cons chunk chunks ih =>
    rw [List.map_cons, List.cons_append, List.flatMap_cons, ← List.append_assoc]
    cases hrunning : r.running with
    | false =>
      rw [receiveLoop_of_not_running hrunning]
      have hrest := ih (h.append_of_not_running hrunning chunk.bytes)
      rw [receiveLoop_of_not_running hrunning] at hrest
      exact hrest
    | true =>
      cases chunk with
      | interrupted =>
        simp only [receiveLoop, ReadChunk.result, if_pos hrunning, ReadChunk.bytes, List.append_nil]
        exact ih h
      | data first rest =>
        simp only [receiveLoop, ReadChunk.result, if_pos hrunning, ReadChunk.bytes]
        exact ih (h.decodeAll hrunning _ (Buffer.readable_writeToBuffer _ _))

theorem readEvent_interrupted {r : Receiving} (hrunning : r.running = true) (xs : List ReadResult) :
    readEvent (.failed .eintr :: xs) r = readEvent xs r := by
  rw [readEvent, if_pos hrunning]

theorem readEvent_data {r : Receiving} (hrunning : r.running = true) (b : Byte) (bs : Bytes)
    (xs : List ReadResult) : readEvent (.data (b :: bs) :: xs) r =
      readEvent xs { r with readBuf := r.readBuf.writeToBuffer (b :: bs) } := by
  rw [readEvent, if_pos hrunning]

/-- The reads of one event append what they deliver. -/
theorem readEvent_ends (x : ReadResult) (chunks : List ReadChunk) {r : Receiving}
    (hrunning : r.running = true) :
    ∃ buf : Buffer, buf.readable = r.readBuf.readable ++ chunks.flatMap ReadChunk.bytes ∧
      readEvent (chunks.map ReadChunk.result ++ [x]) r = readEvent [x] { r with readBuf := buf } := by
  induction chunks generalizing r with
  | nil => exact ⟨r.readBuf, by simp, rfl⟩
  | cons chunk chunks ih =>
    rw [List.map_cons, List.cons_append, List.flatMap_cons, ← List.append_assoc]
    cases chunk with
    | interrupted =>
      rw [ReadChunk.result, ReadChunk.bytes, List.append_nil, readEvent_interrupted hrunning]
      exact ih hrunning
    | data first rest =>
      obtain ⟨buf, hbuf, hread⟩ :=
        ih (r := { r with readBuf := r.readBuf.writeToBuffer (first :: rest) }) hrunning
      refine ⟨buf, ?_, ?_⟩
      · rw [hbuf]
        show (r.readBuf.writeToBuffer (first :: rest)).readable ++ _ = _
        rw [Buffer.readable_writeToBuffer]
        rfl
      · rw [ReadChunk.result, readEvent_data hrunning]
        exact hread

theorem onRead_of_not_running {r : Receiving} (h : r.running = false) (event : List ReadResult) :
    onRead parses event r = r := by
  have hread : readEvent event r = (r, false) := by
    cases event with
    | nil => rfl
    | cons x xs => simp only [readEvent, h, if_neg, Bool.false_eq_true, not_false_eq_true]
  simp only [onRead, hread, Receiving.decodeAll, decodeLoop, h, if_neg, Bool.false_eq_true, not_false_eq_true]

/-- **An event that ends with `EAGAIN` is decoded.** -/
theorem Decoded.onRead {pending : List UInt64} {bytes : Bytes} {r : Receiving}
    (h : Decoded parses pending bytes r) (chunks : List ReadChunk) :
    Decoded parses pending (bytes ++ chunks.flatMap ReadChunk.bytes)
      (onRead parses (chunks.map ReadChunk.result ++ [.failed .eagain]) r) := by
  cases hrunning : r.running with
  | false =>
    rw [onRead_of_not_running hrunning]
    exact h.append_of_not_running hrunning _
  | true =>
    obtain ⟨buf, hbuf, hread⟩ := readEvent_ends (.failed .eagain) chunks hrunning
    have hagain : readEvent [.failed .eagain] { r with readBuf := buf } =
        ({ r with readBuf := buf }, false) := by
      simp only [readEvent, if_pos hrunning]
    rw [hagain] at hread
    simp only [Receiving.onRead, hread]
    exact h.decodeAll hrunning _ hbuf

/-- **An event that finds the end of the connection is not decoded.** -/
theorem Decoded.onRead_end {pending : List UInt64} {bytes : Bytes} {r : Receiving}
    (h : Decoded parses pending bytes r) (chunks : List ReadChunk) (ending : ReadEnd) :
    ∃ reason, (Receiving.onRead parses (chunks.map ReadChunk.result ++ [ending.result]) r).requests =
      (received parses pending bytes).cleanup reason := by
  cases h with
  | corrupt reason _ hstopped hrequests =>
    rw [onRead_of_not_running hstopped]
    exact ⟨reason, hrequests⟩
  | more left _ hrunning _ hrequests =>
    obtain ⟨buf, -, hread⟩ := readEvent_ends ending.result chunks hrunning
    have hends : readEvent [ending.result] { r with readBuf := buf } = ({ r with readBuf := buf }, true) := by
      cases ending with
      | eof | error code => simp only [readEvent, ReadEnd.result, if_pos hrunning]
    rw [hends] at hread
    refine ⟨"BinaryRpcChannel: Connection closed or read error", ?_⟩
    simp only [Receiving.onRead, hread]
    rw [← hrequests]
    rfl

theorem Decoded.onReads {pending : List UInt64} (events : List (List ReadChunk)) {bytes : Bytes}
    {r : Receiving} (h : Decoded parses pending bytes r) :
    Decoded parses pending (bytes ++ events.flatten.flatMap ReadChunk.bytes)
      ((events.map fun event => event.map ReadChunk.result ++ [.failed .eagain]).foldl
        (fun r event => Receiving.onRead parses event r) r) := by
  induction events generalizing bytes r with
  | nil =>
    simp only [List.flatten_nil, List.flatMap_nil, List.append_nil, List.map_nil, List.foldl_nil]
    exact h
  | cons event events ih =>
    rw [List.flatten_cons, List.flatMap_append, ← List.append_assoc, List.map_cons, List.foldl_cons]
    exact ih (h.onRead event)

/-! ## Agreement -/

theorem threadMode_ends (parses : UInt64 → Bytes → Bool) (pending : List UInt64) (a : Arrivals) :
    ∃ reason, threadMode parses pending a = (received parses pending a.bytes).cleanup reason := by
  have hstart : Decoded parses pending [] (start pending) := decoded_start pending
  obtain ⟨reason, hends⟩ := receiveLoop_ends a.ending (a.events.flatten ++ a.last) hstart
  refine ⟨reason, ?_⟩
  rw [List.nil_append, List.flatMap_append] at hends
  exact hends

theorem loopMode_ends (parses : UInt64 → Bytes → Bool) (pending : List UInt64) (a : Arrivals) :
    ∃ reason, loopMode parses pending a = (received parses pending a.early).cleanup reason := by
  have hstart : Decoded parses pending [] (start pending) := decoded_start pending
  have hearly := hstart.onReads a.events
  rw [List.nil_append] at hearly
  obtain ⟨reason, hends⟩ := hearly.onRead_end a.last a.ending
  refine ⟨reason, ?_⟩
  rw [loopMode, Arrivals.eventReads, List.foldl_append, List.foldl_cons, List.foldl_nil]
  exact hends

/-- The frames of all bytes begin with those of the earlier events. -/
theorem frames_bytes (a : Arrivals) :
    (frames.split a.bytes).1 = (frames.split a.early).1 ++ a.lateFrames := by
  have hpre : (frames.split a.early).1 <+: (frames.split a.bytes).1 := by
    rw [Arrivals.bytes]
    cases hsplit : (frames.split a.early).2 with
    | some left =>
      rw [Splitter.split_append _ hsplit]
      exact List.prefix_append _ _
    | none =>
      refine ⟨[], ?_⟩
      rw [Splitter.split_append_of_corrupt _ hsplit, List.append_nil]
  obtain ⟨late, hlate⟩ := hpre
  rw [Arrivals.lateFrames, ← hlate, List.drop_left]

/-- The outcome of a request whose frames have been delivered and whose rest has failed. -/
theorem outcome_received (pending : List UInt64) (bytes : Bytes) (reason : String) (seq : UInt64) :
    ((received parses pending bytes).cleanup reason).outcome seq =
      if seq ∈ pending then some (Requests.answer parses seq (frames.split bytes).1) else none := by
  split
  · rename_i hmem
    exact Requests.outcome_of_mem _ hmem rfl reason
  · rename_i hmem
    exact Requests.outcome_of_not_mem _ hmem reason

/-- **What the last event adds to the answer of a request.** -/
theorem answer_bytes_eq_iff (a : Arrivals) (seq : UInt64) :
    Requests.answer parses seq (frames.split a.bytes).1 = Requests.answer parses seq (frames.split a.early).1 ↔
      ¬ a.AnsweredAtEnd parses seq := by
  unfold Requests.answer Arrivals.AnsweredAtEnd
  rw [frames_bytes, List.find?_append]
  cases hearly : (frames.split a.early).1.find? fun f => f.header.sequenceId = seq with
  | some f =>
    have hmem := List.mem_of_find?_eq_some hearly
    have hseq : f.header.sequenceId = seq := by simpa using List.find?_some hearly
    simp only [Option.some_or, true_iff]
    rintro ⟨hnone, -⟩
    exact hnone f hmem hseq
  | none =>
    have hnone : ∀ f ∈ (frames.split a.early).1, f.header.sequenceId ≠ seq := by
      rw [List.find?_eq_none] at hearly
      intro f hf
      simpa using hearly f hf
    rw [Option.none_or]
    cases hlate : a.lateFrames.find? fun f => f.header.sequenceId = seq with
    | none => simp
    | some f =>
      by_cases hparses : parses seq f.bodyBytes = true
      · simp only [hparses, if_true, reduceCtorEq, false_iff, not_not]
        exact ⟨hnone, f, rfl, hparses⟩
      · simp [hparses]

/-- **The receive paths agree exactly where no response comes with the end of the connection**: for
the same bytes, however cut into chunks and events, and however they end, thread mode and loop mode
complete the same requests with the same outcomes if and only if no pending request has its first frame
complete in the event that finds EOF or an error, and parse. -/
theorem receive_paths_agree_iff (parses : UInt64 → Bytes → Bool) (pending : List UInt64) (a : Arrivals) :
    (∀ seq, (threadMode parses pending a).outcome seq = (loopMode parses pending a).outcome seq) ↔
      ∀ seq ∈ pending, ¬ a.AnsweredAtEnd parses seq := by
  obtain ⟨reason, hthread⟩ := threadMode_ends parses pending a
  obtain ⟨reason', hloop⟩ := loopMode_ends parses pending a
  rw [hthread, hloop]
  simp only [outcome_received, ← answer_bytes_eq_iff]
  constructor
  · intro h seq hmem
    have hseq := h seq
    rw [if_pos hmem, if_pos hmem] at hseq
    exact Option.some.inj hseq
  · intro h seq
    split
    · rename_i hmem
      rw [h seq hmem]
    · rfl

/-- A peer that answers and closes: the response and EOF come in one event. -/
def answerThenClose : Arrivals where
  events := []
  last := [.data 84 [68, 1, 2, 0, 0, 0, 0, 0, 0, 0, 1, 0, 0, 0, 0, 0, 0, 0, 1, 7]]
  ending := .eof

/-- **A response that comes with EOF is a success in thread mode and a failure in loop mode.** -/
theorem answer_lost_at_end :
    ¬ ∀ parses pending a seq,
      (threadMode parses pending a).outcome seq = (loopMode parses pending a).outcome seq := by
  intro h
  have hlost : (threadMode (fun _ body => body = [7]) [1] answerThenClose).outcome 1 = some (some [7]) ∧
      (loopMode (fun _ body => body = [7]) [1] answerThenClose).outcome 1 = some none := by
    decide +kernel
  have hsame := h (fun _ body => body = [7]) [1] answerThenClose 1
  rw [hlost.1, hlost.2] at hsame
  cases hsame

end Receiving

end Tudou
