import Tudou.Foundation.TaggedStream
import Tudou.Foundation.Run
import Tudou.Reactor.Channel
import Tudou.Rpc.BinaryRpcChannel
import Tudou.Rpc.BinaryRpcCodec

/-!
# `BinaryRpcChannel`: how requests get onto the socket

Model of the sending side of `src/tudou/rpc/binary/BinaryRpcChannel.cpp`: the blocking send of
`CallMethod`, `write_request_nonblocking`, `on_write`, and what of `on_read` changes the interest of
the channel.  What happens under `sendMutex_` is one step.  Every byte carries the number of its call.

* `writeLoop` — the three `while (totalSent < size)` loops; they differ in how they take an answer.
* `system` — calls on any thread, event dispatches and queued tasks in any order, with any answers of
  the kernel.
* `queued_output_has_write_interest` — **what is queued gets flushed**, if no coroutine sends after
  write interest has been dropped.
* `stranded_of_late_send`, `late_send_stranded` — a coroutine that does has its request stranded.
-/

namespace Tudou

open Transition TaggedStream

/-- What a write loop does with the answer of one `::write`. -/
inductive WriteReaction where
  | sent (n : Nat)
  | retry
  | again
  | failed

/-- The blocking send: `n <= 0` is an error, unless it is `EINTR`. -/
def blockingReaction : WriteResult → WriteReaction
  | .accepted 0 => .failed
  | .accepted (n + 1) => .sent (n + 1)
  | .failed .eintr => .retry
  | .failed _ => .failed

/-- `on_write` and `write_request_nonblocking`. -/
def nonblockingReaction : WriteResult → WriteReaction
  | .accepted n => .sent n
  | .failed .eintr => .retry
  | .failed .eagain => .again
  | .failed (.other _) => .failed

/-- How a write loop ends: everything is sent, `EAGAIN`, or another error. -/
inductive LoopEnd where
  | finished
  | again
  | failed
  deriving DecidableEq, Repr

/-- `while (totalSent < size)` over the kernel's answers; `none` where they do not end it, or accept
more than is offered. -/
def writeLoop (react : WriteResult → WriteReaction) (size : Nat) :
    Nat → List WriteResult → Option (Nat × LoopEnd)
  | totalSent, [] => if totalSent < size then none else some (totalSent, .finished)
  | totalSent, r :: answers =>
    if totalSent < size then
      match react r with
      | .sent n =>
        if totalSent + n ≤ size then writeLoop react size (totalSent + n) answers else none
      | .retry => writeLoop react size totalSent answers
      | .again => some (totalSent, .again)
      | .failed => some (totalSent, .failed)
    else some (totalSent, .finished)

/-- `encode_request(method, request, seq)`, from the two serialized messages. -/
def encodeRequest (seq : UInt64) (metaRaw bodyRaw : Bytes) : Bytes :=
  (BinaryRpcCodec.encode Buffer.empty .request seq metaRaw bodyRaw).readAllFromBuffer.1

/-- A `CallMethod` that has registered and encoded its request; `sent` once it has sent it. -/
structure RequestCall where
  coroutine : Bool
  seq : UInt64
  metaRaw : Bytes
  bodyRaw : Bytes
  sent : Bool
  deriving DecidableEq, Repr

def RequestCall.frame (call : RequestCall) : Bytes := encodeRequest call.seq call.metaRaw call.bodyRaw

structure RequestWriter where
  connected : Bool
  running : Bool
  writeBuffer : List (Nat × Byte)
  channel : Channel
  /-- The handlers of the current event that have not run. -/
  dispatch : List Handler
  /-- Tasks on the loop that call `enable_writing()`. -/
  enableTasks : Nat
  calls : List RequestCall
  /-- What the socket has accepted. -/
  wire : List (Nat × Byte)

inductive WriterLabel where
  /-- `CallMethod` up to its send. -/
  | call (coroutine : Bool) (seq : UInt64) (metaRaw bodyRaw : Bytes)
  /-- The blocking send of call `c`. -/
  | send (c : Nat) (answers : List WriteResult)
  | writeRequestNonblocking (c : Nat) (onLoop : Bool) (answers : List WriteResult)
  | poll (revents : EpollEvents)
  /-- `on_read`, with an error, EOF or a bad frame, or without. -/
  | onRead (broken : Bool)
  | onWrite (connectFails : Bool) (answers : List WriteResult)
  /-- A close or error handler: the channel sets no callback for them. -/
  | unset
  /-- The loop runs a queued `enable_writing()`. -/
  | enableWriting
  /-- `running_` is cleared by `receive_loop` or the destructor. -/
  | close
  deriving DecidableEq, Repr

/-- `epoll_wait` reports what the channel asks for, and errors and hang-ups. -/
def EpollEvents.reportable (revents events : EpollEvents) : Bool :=
  (!revents.epollin || events.epollin) && (!revents.epollpri || events.epollpri) &&
    (!revents.epollout || events.epollout)

namespace RequestWriter

/-- The state after the constructor. -/
def create (mode : ChannelMode) : RequestWriter where
  connected := match mode with
    | .thread => true
    | .loop => false
  running := true
  writeBuffer := []
  channel := match mode with
    | .thread => {}
    | .loop => ({} : Channel).enableReading.enableWriting
  dispatch := []
  enableTasks := 0
  calls := []
  wire := []

/-- The encoded request of call `c`. -/
def frame (s : RequestWriter) (c : Nat) : Bytes :=
  match s.calls[c]? with
  | none => []
  | some call => call.frame

def isSent (s : RequestWriter) (c : Nat) : Bool :=
  match s.calls[c]? with
  | none => false
  | some call => call.sent

/-- Call `c`, still to be sent on the given path. -/
def unsentCall (s : RequestWriter) (c : Nat) (coroutine : Bool) : Option RequestCall :=
  match s.calls[c]? with
  | none => none
  | some call => if call.coroutine = coroutine ∧ call.sent = false then some call else none

def markSent (s : RequestWriter) (c : Nat) (call : RequestCall) : RequestWriter :=
  { s with calls := s.calls.set c { call with sent := true } }

/-- `running_ = false; channel_->disable_all();`. -/
def tearDown (s : RequestWriter) : RequestWriter :=
  { s with running := false, channel := s.channel.disableAll }

/-- The send of `CallMethod` on the thread path, which throws on an error. -/
def blockingSend (s : RequestWriter) (c : Nat) (call : RequestCall) (answers : List WriteResult) :
    Option RequestWriter :=
  match writeLoop blockingReaction call.frame.length 0 answers with
  | none => none
  | some (totalSent, _) =>
    some { s.markSent c call with wire := s.wire ++ (tagged s.frame c).take totalSent }

/-- `write_request_nonblocking(data)`. -/
def writeRequestNonblocking (s : RequestWriter) (c : Nat) (call : RequestCall) (onLoop : Bool)
    (answers : List WriteResult) : Option RequestWriter :=
  if !s.connected ∨ s.writeBuffer ≠ [] then
    some { s.markSent c call with writeBuffer := s.writeBuffer ++ tagged s.frame c }
  else
    match writeLoop nonblockingReaction call.frame.length 0 answers with
    | none => none
    | some (totalSent, .again) =>
      let s := { s.markSent c call with
        wire := s.wire ++ (tagged s.frame c).take totalSent
        writeBuffer := s.writeBuffer ++ (tagged s.frame c).drop totalSent }
      -- `run_in_loop` runs the task at once on the loop thread
      some (if onLoop then { s with channel := s.channel.enableWriting }
        else { s with enableTasks := s.enableTasks + 1 })
    | some (totalSent, _) =>
      some { s.markSent c call with wire := s.wire ++ (tagged s.frame c).take totalSent }

/-- `on_write()`. -/
def onWrite (s : RequestWriter) (connectFails : Bool) (answers : List WriteResult) :
    Option RequestWriter :=
  if connectFails then some s.tearDown
  else if s.writeBuffer = [] then some { s with channel := s.channel.disableWriting }
  else
    match writeLoop nonblockingReaction s.writeBuffer.length 0 answers with
    | none => none
    | some (totalSent, .finished) =>
      some { s with
        wire := s.wire ++ s.writeBuffer.take totalSent
        writeBuffer := []
        channel := s.channel.disableWriting }
    | some (totalSent, .again) =>
      some { s with
        wire := s.wire ++ s.writeBuffer.take totalSent
        writeBuffer := s.writeBuffer.drop totalSent }
    | some (totalSent, .failed) =>
      some { s.tearDown with wire := s.wire ++ s.writeBuffer.take totalSent }

/-- The loop thread is about to run the given handler. -/
def handling (s : RequestWriter) (h : Handler) : Option RequestWriter :=
  match s.dispatch with
  | h' :: rest => if h' = h then some { s with dispatch := rest } else none
  | [] => none

def step (mode : ChannelMode) (s : RequestWriter) : WriterLabel → Option RequestWriter
  | .call coroutine seq metaRaw bodyRaw =>
    if s.running then
      some { s with calls := s.calls ++
        [⟨coroutine && mode = .loop, seq, metaRaw, bodyRaw, false⟩] }
    else none
  | .send c answers =>
    match s.unsentCall c false with
    | none => none
    | some call => s.blockingSend c call answers
  | .writeRequestNonblocking c onLoop answers =>
    match s.unsentCall c true with
    | none => none
    | some call => s.writeRequestNonblocking c call onLoop answers
  | .poll revents =>
    if mode = .loop ∧ s.dispatch = [] ∧ revents.reportable s.channel.events then
      some { s with dispatch := handleEventsWithGuard revents }
    else none
  | .onRead broken =>
    match s.handling .read with
    | none => none
    | some s => some (if broken then s.tearDown else s)
  | .onWrite connectFails answers =>
    match s.handling .write with
    | none => none
    | some s => s.onWrite connectFails answers
  | .unset =>
    match s.dispatch with
    | .close :: rest | .error :: rest => some { s with dispatch := rest }
    | _ => none
  | .enableWriting =>
    if 0 < s.enableTasks then
      some { s with enableTasks := s.enableTasks - 1, channel := s.channel.enableWriting }
    else none
  | .close => if mode = .thread then some { s with running := false } else none

def system (mode : ChannelMode) : System RequestWriter WriterLabel := ⟨create mode, step mode⟩

end RequestWriter

/-! ## The write loops -/

/-- **A write loop sends all of its data, or a proper part.** -/
theorem writeLoop_ends {react : WriteResult → WriteReaction} {size n : Nat} {e : LoopEnd}
    (answers : List WriteResult) {totalSent : Nat} (hle : totalSent ≤ size)
    (h : writeLoop react size totalSent answers = some (n, e)) :
    totalSent ≤ n ∧ (e = .finished ∧ n = size ∨ e ≠ .finished ∧ n < size) := by
  induction answers generalizing totalSent with
  | nil =>
    simp only [writeLoop] at h
    split at h
    · cases h
    · cases h
      exact ⟨Nat.le_refl _, .inl ⟨rfl, by omega⟩⟩
  | cons r answers ih =>
    simp only [writeLoop] at h
    split at h
    · rename_i hlt
      split at h
      · rename_i k _
        split at h
        · rename_i hfits
          obtain ⟨hk, hend⟩ := ih hfits h
          exact ⟨by omega, hend⟩
        · cases h
      · exact ih hle h
      · cases h
        exact ⟨Nat.le_refl _, .inr ⟨by simp, hlt⟩⟩
      · cases h
        exact ⟨Nat.le_refl _, .inr ⟨by simp, hlt⟩⟩
    · cases h
      exact ⟨Nat.le_refl _, .inl ⟨rfl, by omega⟩⟩

theorem encodeRequest_eq (seq : UInt64) (metaRaw bodyRaw : Bytes) :
    encodeRequest seq metaRaw bodyRaw = (RpcFrame.of .request seq metaRaw bodyRaw).bytes := by
  rw [encodeRequest, Buffer.readAllFromBuffer_fst, BinaryRpcCodec.readable_encode, Buffer.readable_empty,
    List.nil_append]

/-- An encoded request is never empty. -/
theorem length_frame (call : RequestCall) : kRpcHeaderSize ≤ call.frame.length := by
  rw [RequestCall.frame, encodeRequest_eq, RpcFrame.length_bytes]
  omega

namespace RequestWriter

/-! ## What a step does -/

/-- Call `c` is still to be sent on the given path. -/
structure Unsent (s : RequestWriter) (c : Nat) (coroutine : Bool) (call : RequestCall) : Prop where
  found : s.calls[c]? = some call
  path : call.coroutine = coroutine
  unsent : call.sent = false

inductive StepEnds (mode : ChannelMode) (s : RequestWriter) : WriterLabel → RequestWriter → Prop where
  | called (call : RequestCall) {coroutine : Bool} {seq : UInt64} {metaRaw bodyRaw : Bytes}
      (hnew : call.sent = false) (hpath : call.coroutine = true → mode = .loop) :
    StepEnds mode s (.call coroutine seq metaRaw bodyRaw) { s with calls := s.calls ++ [call] }
  | sent {c n : Nat} {e : LoopEnd} {call : RequestCall} {answers : List WriteResult}
      (hcall : s.Unsent c false call)
      (hloop : writeLoop blockingReaction call.frame.length 0 answers = some (n, e)) :
    StepEnds mode s (.send c answers)
      { s.markSent c call with wire := s.wire ++ (tagged s.frame c).take n }
  | appended {c : Nat} {call : RequestCall} {onLoop : Bool} {answers : List WriteResult}
      (hcall : s.Unsent c true call) (hbuffered : s.connected = false ∨ s.writeBuffer ≠ []) :
    StepEnds mode s (.writeRequestNonblocking c onLoop answers)
      { s.markSent c call with writeBuffer := s.writeBuffer ++ tagged s.frame c }
  | sentAtOnce {c n : Nat} {call : RequestCall} {onLoop : Bool} {answers : List WriteResult}
      (hcall : s.Unsent c true call) (hconnected : s.connected = true) :
    StepEnds mode s (.writeRequestNonblocking c onLoop answers)
      { s.markSent c call with wire := s.wire ++ (tagged s.frame c).take n }
  | sentInPart {c n : Nat} {call : RequestCall} {onLoop : Bool} {answers : List WriteResult}
      {channel : Channel} {enableTasks : Nat} (hcall : s.Unsent c true call)
      (hconnected : s.connected = true) (hinterest : channel.isWriting = true ∨ 0 < enableTasks) :
    StepEnds mode s (.writeRequestNonblocking c onLoop answers)
      { s.markSent c call with
        wire := s.wire ++ (tagged s.frame c).take n
        writeBuffer := s.writeBuffer ++ (tagged s.frame c).drop n
        channel := channel
        enableTasks := enableTasks }
  | polled {revents : EpollEvents} (hloop : mode = .loop) (hidle : s.dispatch = [])
      (hreportable : revents.reportable s.channel.events = true) :
    StepEnds mode s (.poll revents) { s with dispatch := handleEventsWithGuard revents }
  | read {rest : List Handler} (hdispatch : s.dispatch = .read :: rest) :
    StepEnds mode s (.onRead false) { s with dispatch := rest }
  | readBroken {rest : List Handler} (hdispatch : s.dispatch = .read :: rest) :
    StepEnds mode s (.onRead true) { s with dispatch := rest }.tearDown
  | connectFailed {rest : List Handler} {answers : List WriteResult}
      (hdispatch : s.dispatch = .write :: rest) :
    StepEnds mode s (.onWrite true answers) { s with dispatch := rest }.tearDown
  | nothingToWrite {rest : List Handler} {answers : List WriteResult}
      (hdispatch : s.dispatch = .write :: rest) (hempty : s.writeBuffer = []) :
    StepEnds mode s (.onWrite false answers)
      { s with dispatch := rest, channel := s.channel.disableWriting }
  | drained {rest : List Handler} {answers : List WriteResult} (hdispatch : s.dispatch = .write :: rest)
      (hloop : writeLoop nonblockingReaction s.writeBuffer.length 0 answers =
        some (s.writeBuffer.length, .finished)) :
    StepEnds mode s (.onWrite false answers) { s with
      dispatch := rest
      wire := s.wire ++ s.writeBuffer
      writeBuffer := []
      channel := s.channel.disableWriting }
  | drainedPart {n : Nat} {rest : List Handler} {answers : List WriteResult}
      (hdispatch : s.dispatch = .write :: rest) (hnonempty : s.writeBuffer ≠ [])
      (hloop : writeLoop nonblockingReaction s.writeBuffer.length 0 answers = some (n, .again)) :
    StepEnds mode s (.onWrite false answers) { s with
      dispatch := rest
      wire := s.wire ++ s.writeBuffer.take n
      writeBuffer := s.writeBuffer.drop n }
  | writeFailed {n : Nat} {rest : List Handler} {answers : List WriteResult}
      (hdispatch : s.dispatch = .write :: rest)
      (hloop : writeLoop nonblockingReaction s.writeBuffer.length 0 answers = some (n, .failed)) :
    StepEnds mode s (.onWrite false answers)
      { { s with dispatch := rest }.tearDown with wire := s.wire ++ s.writeBuffer.take n }
  | unset {h : Handler} {rest : List Handler} (hdispatch : s.dispatch = h :: rest) :
    StepEnds mode s .unset { s with dispatch := rest }
  | enabled (htask : 0 < s.enableTasks) :
    StepEnds mode s .enableWriting
      { s with enableTasks := s.enableTasks - 1, channel := s.channel.enableWriting }
  | closed : StepEnds mode s .close { s with running := false }

theorem unsent_of_unsentCall {s : RequestWriter} {c : Nat} {coroutine : Bool} {call : RequestCall}
    (h : s.unsentCall c coroutine = some call) : s.Unsent c coroutine call := by
  unfold unsentCall at h
  split at h
  · cases h
  · rename_i call' hcall
    split at h
    · rename_i hpath
      cases h
      exact ⟨hcall, hpath.1, hpath.2⟩
    · cases h

theorem handling_eq {s s' : RequestWriter} {h : Handler} (hs : s.handling h = some s') :
    ∃ rest, s.dispatch = h :: rest ∧ s' = { s with dispatch := rest } := by
  unfold handling at hs
  split at hs
  · rename_i h' rest hdispatch
    split at hs
    · rename_i heq
      cases hs
      subst heq
      exact ⟨rest, hdispatch, rfl⟩
    · cases hs
  · cases hs

theorem onWrite_ends {mode : ChannelMode} {s s' : RequestWriter} {rest : List Handler}
    {connectFails : Bool} {answers : List WriteResult} (hdispatch : s.dispatch = .write :: rest)
    (h : RequestWriter.onWrite { s with dispatch := rest } connectFails answers = some s') :
    StepEnds mode s (.onWrite connectFails answers) s' := by
  unfold onWrite at h
  cases connectFails with
  | true =>
    cases h
    exact .connectFailed hdispatch
  | false =>
    rw [if_neg (by simp)] at h
    split at h
    · rename_i hempty
      cases h
      exact .nothingToWrite hdispatch hempty
    · rename_i hnonempty
      split at h
      · cases h
      · rename_i n hloop
        cases h
        have hall : n = s.writeBuffer.length := by
          rcases (writeLoop_ends answers (Nat.zero_le _) hloop).2 with ⟨-, hn⟩ | ⟨hne, -⟩
          · exact hn
          · exact absurd rfl hne
        subst hall
        simp only [List.take_length]
        exact .drained hdispatch hloop
      · rename_i n hloop
        cases h
        exact .drainedPart hdispatch hnonempty hloop
      · rename_i n hloop
        cases h
        exact .writeFailed hdispatch hloop

theorem writeRequestNonblocking_ends {mode : ChannelMode} {s s' : RequestWriter} {c : Nat}
    {call : RequestCall} {onLoop : Bool} {answers : List WriteResult} (hcall : s.Unsent c true call)
    (h : s.writeRequestNonblocking c call onLoop answers = some s') :
    StepEnds mode s (.writeRequestNonblocking c onLoop answers) s' := by
  unfold writeRequestNonblocking at h
  split at h
  · rename_i hbuffered
    cases h
    exact .appended hcall (by simpa using hbuffered)
  · rename_i hdirect
    have hconnected : s.connected = true := by
      simp only [not_or] at hdirect
      simpa using hdirect.1
    split at h
    · cases h
    · rename_i n _
      cases onLoop with
      | true =>
        cases h
        exact .sentInPart hcall hconnected (.inl rfl)
      | false =>
        cases h
        exact .sentInPart hcall hconnected (.inr (Nat.succ_pos _))
    · cases h
      exact .sentAtOnce hcall hconnected

theorem step_ends {mode : ChannelMode} {s s' : RequestWriter} {l : WriterLabel}
    (h : s.step mode l = some s') : StepEnds mode s l s' := by
  cases l with
  | call coroutine seq metaRaw bodyRaw =>
    simp only [step] at h
    split at h
    · cases h
      exact .called _ rfl (by simp)
    · cases h
  | send c answers =>
    simp only [step] at h
    split at h
    · cases h
    · rename_i call hcall
      unfold blockingSend at h
      split at h
      · cases h
      · rename_i n e hloop
        cases h
        exact .sent (unsent_of_unsentCall hcall) hloop
  | writeRequestNonblocking c onLoop answers =>
    simp only [step] at h
    split at h
    · cases h
    · rename_i call hcall
      exact writeRequestNonblocking_ends (unsent_of_unsentCall hcall) h
  | poll revents =>
    simp only [step] at h
    split at h
    · rename_i hcan
      cases h
      exact .polled hcan.1 hcan.2.1 hcan.2.2
    · cases h
  | onRead broken =>
    simp only [step] at h
    split at h
    · cases h
    · rename_i s₁ hs₁
      obtain ⟨rest, hdispatch, rfl⟩ := handling_eq hs₁
      cases h
      cases broken with
      | false => exact .read hdispatch
      | true => exact .readBroken hdispatch
  | onWrite connectFails answers =>
    simp only [step] at h
    split at h
    · cases h
    · rename_i s₁ hs₁
      obtain ⟨rest, hdispatch, rfl⟩ := handling_eq hs₁
      exact onWrite_ends hdispatch h
  | unset =>
    simp only [step] at h
    split at h
    · rename_i hdispatch
      cases h
      exact .unset hdispatch
    · rename_i hdispatch
      cases h
      exact .unset hdispatch
    · cases h
  | enableWriting =>
    simp only [step] at h
    split at h
    · rename_i htask
      cases h
      exact .enabled htask
    · cases h
  | close =>
    simp only [step] at h
    split at h
    · cases h
      exact .closed
    · cases h

/-! ## Write interest -/

/-- Something is queued, the channel is not torn down, and nothing will make `on_write` run. -/
def Stranded (s : RequestWriter) : Prop :=
  s.running = true ∧ s.writeBuffer ≠ [] ∧ s.channel.isWriting = false ∧ s.enableTasks = 0

/-- No coroutine sends while write interest is off and will stay off. -/
def SendsInTime (s : RequestWriter) : WriterLabel → Prop
  | .writeRequestNonblocking _ _ _ =>
    s.running = true → s.channel.isWriting = true ∨ 0 < s.enableTasks
  | _ => True

/-- What is queued has write interest, now or by a queued task. -/
def Attended (s : RequestWriter) : Prop :=
  s.running = true → s.writeBuffer ≠ [] → s.channel.isWriting = true ∨ 0 < s.enableTasks

variable {mode : ChannelMode}

theorem Attended.step {s s' : RequestWriter} {l : WriterLabel} (h : s.Attended)
    (hg : s.SendsInTime l) (hs : StepEnds mode s l s') : s'.Attended := by
  intro hrunning hqueued
  cases hs with
  | called _ _ _ | sent _ _ | sentAtOnce _ _ | polled _ _ _ | read _ | unset _ => exact h hrunning hqueued
  | appended _ _ => exact hg hrunning
  | sentInPart _ _ hinterest => exact hinterest
  | readBroken _ | connectFailed _ | writeFailed _ _ | closed => cases hrunning
  | nothingToWrite _ hempty => exact absurd hempty hqueued
  | drained _ _ => exact absurd rfl hqueued
  | drainedPart _ hnonempty _ => exact h hrunning hnonempty
  | enabled _ => exact .inl rfl

/-- **What is queued gets flushed**: while the channel is not torn down, a non-empty `writeBuffer_` has
write interest or a task that will enable it. -/
theorem queued_output_has_write_interest {s : RequestWriter}
    (h : (system .loop).Reaches SendsInTime s) :
    s.running = true → s.writeBuffer ≠ [] → s.channel.isWriting = true ∨ 0 < s.enableTasks := by
  have hattended : s.Attended := by
    apply h.invariant
    · intro _ hqueued
      exact absurd rfl hqueued
    · intro s l s' hs hg hstep
      exact hs.step hg (step_ends hstep)
  exact hattended

/-- The connection comes up, a coroutine sends before `on_write` has run, and the socket takes a part. -/
def sendWhileConnecting : List WriterLabel :=
  [.call true 1 [1] [2, 3], .writeRequestNonblocking 0 true [], .poll { epollout := true },
    .onWrite false [.failed .eintr, .accepted 21, .failed .eagain], .call true 2 [] [],
    .writeRequestNonblocking 1 true []]

instance (s : RequestWriter) : ∀ l, Decidable (SendsInTime s l)
  | .writeRequestNonblocking _ _ _ =>
    inferInstanceAs (Decidable (s.running = true → s.channel.isWriting = true ∨ 0 < s.enableTasks))
  | .call _ _ _ _ | .send _ _ | .poll _ | .onRead _ | .onWrite _ _ | .unset | .enableWriting
  | .close => inferInstanceAs (Decidable True)

theorem queued_output_sendWhileConnecting :
    ∃ s ∈ (system .loop).run (create .loop) sendWhileConnecting,
      s.writeBuffer.length = 22 ∧ (s.channel.isWriting = true ∨ 0 < s.enableTasks) := by
  obtain ⟨s, hs, hrunning, hlen⟩ : ∃ s ∈ (system .loop).run (create .loop) sendWhileConnecting,
      s.running = true ∧ s.writeBuffer.length = 22 := by decide +kernel
  have hg : (system .loop).Admits SendsInTime (create .loop) sendWhileConnecting := by decide +kernel
  refine ⟨s, hs, hlen, queued_output_has_write_interest (.of_run _ hs hg) hrunning ?_⟩
  intro hempty
  rw [hempty] at hlen
  cases hlen

/-! ## The first `on_write` drops write interest for good -/

/-- Coroutines only call in loop mode, where the channel never learns that it is connected: each of
their requests goes through `writeBuffer_`, and no task ever enables writing. -/
structure Buffered (mode : ChannelMode) (s : RequestWriter) : Prop where
  connected : s.connected = true → mode = .thread
  coroutines : ∀ call ∈ s.calls, call.coroutine = true → mode = .loop
  enableTasks : s.enableTasks = 0

theorem Buffered.not_connected {s : RequestWriter} (h : Buffered mode s) {c : Nat} {call : RequestCall}
    (hcall : s.Unsent c true call) : s.connected = false := by
  have hloop := h.coroutines call (List.mem_of_getElem? hcall.found) hcall.path
  rw [Bool.eq_false_iff]
  intro hconnected
  have hthread := h.connected hconnected
  rw [hloop] at hthread
  cases hthread

theorem Buffered.markSent {s : RequestWriter} (h : Buffered mode s) {c : Nat} {coroutine : Bool}
    {call : RequestCall} (hcall : s.Unsent c coroutine call) : Buffered mode (s.markSent c call) where
  connected := h.connected
  coroutines := by
    intro call' hmem hcoroutine
    rcases List.mem_or_eq_of_mem_set hmem with hmem | rfl
    · exact h.coroutines call' hmem hcoroutine
    · exact h.coroutines call (List.mem_of_getElem? hcall.found) hcoroutine
  enableTasks := h.enableTasks

theorem Buffered.step {s s' : RequestWriter} {l : WriterLabel} (h : Buffered mode s)
    (hs : StepEnds mode s l s') : Buffered mode s' := by
  cases hs with
  | called call _ hpath =>
    refine ⟨h.connected, ?_, h.enableTasks⟩
    intro call' hmem hcoroutine
    rcases List.mem_append.mp hmem with hmem | hmem
    · exact h.coroutines call' hmem hcoroutine
    · rw [List.mem_singleton.mp hmem] at hcoroutine
      exact hpath hcoroutine
  | sent hcall _ | appended hcall _ =>
    have hsent := h.markSent hcall
    exact ⟨hsent.connected, hsent.coroutines, hsent.enableTasks⟩
  | sentAtOnce hcall hconnected | sentInPart hcall hconnected _ =>
    rw [h.not_connected hcall] at hconnected
    cases hconnected
  | enabled htask =>
    rw [h.enableTasks] at htask
    cases htask
  | polled _ _ _ | read _ | readBroken _ | connectFailed _ | nothingToWrite _ _ | drained _ _
  | drainedPart _ _ _ | writeFailed _ _ | unset _ | closed =>
    exact ⟨h.connected, h.coroutines, h.enableTasks⟩

theorem buffered_create (mode : ChannelMode) : Buffered mode (create mode) := by
  refine ⟨?_, ?_, rfl⟩
  · cases mode with
    | thread => exact fun _ => rfl
    | loop => exact fun h => by cases h
  · intro call hmem
    cases hmem

theorem buffered_of_reachable {s : RequestWriter} (h : (system mode).Reachable s) : Buffered mode s :=
  h.invariant (buffered_create mode) fun _ _ _ hs _ hstep => hs.step (step_ends hstep)

/-- **A coroutine that sends when write interest is off strands its request.** -/
theorem stranded_of_late_send {s s' : RequestWriter} (h : (system .loop).Reachable s) {c : Nat}
    {onLoop : Bool} {answers : List WriteResult}
    (hlate : ¬ s.SendsInTime (.writeRequestNonblocking c onLoop answers))
    (hs : s.step .loop (.writeRequestNonblocking c onLoop answers) = some s') : s'.Stranded := by
  have hbuffered := buffered_of_reachable h
  simp only [SendsInTime, not_forall, not_or] at hlate
  obtain ⟨hrunning, hoff, -⟩ := hlate
  cases step_ends hs with
  | @appended _ call _ _ hcall _ =>
    have hoff : s.channel.isWriting = false := by simpa using hoff
    have hframe : s.frame c = call.frame := by simp only [frame, hcall.found]
    have hpos := length_frame call
    refine ⟨hrunning, ?_, hoff, hbuffered.enableTasks⟩
    intro hempty
    have hlen := congrArg List.length hempty
    simp only [List.length_append, length_tagged, hframe, List.length_nil, kRpcHeaderSize] at hlen hpos
    omega
  | sentAtOnce hcall hconnected | sentInPart hcall hconnected _ =>
    rw [hbuffered.not_connected hcall] at hconnected
    cases hconnected

/-- The connection comes up with nothing to send; then a coroutine calls. -/
def sendAfterConnect : List WriterLabel :=
  [.poll { epollout := true }, .onWrite false [], .call true 1 [1] [2, 3],
    .writeRequestNonblocking 0 true []]

/-- **A request sent after the connection came up is stranded.** -/
theorem late_send_stranded :
    ¬ ∀ s, (system .loop).Reachable s → s.running = true → s.writeBuffer ≠ [] →
      s.channel.isWriting = true ∨ 0 < s.enableTasks := by
  intro h
  obtain ⟨s, hs, hrunning, hqueued, hoff, htasks⟩ :
      ∃ s ∈ (system .loop).run (create .loop) sendAfterConnect,
        s.running = true ∧ s.writeBuffer ≠ [] ∧ s.channel.isWriting = false ∧ s.enableTasks = 0 := by
    decide +kernel
  rcases h s (.of_run _ hs) hrunning hqueued with hon | htask
  · rw [hoff] at hon
    cases hon
  · omega

end RequestWriter

end Tudou
