import Tudou.Foundation.Run
import Tudou.Reactor.Channel
import Tudou.Tcp.Buffer

/-!
# `TcpConnection` on its loop thread, with re-entrant callbacks

Model of `src/tudou/tcp/TcpConnection.{h,cpp}`: the bodies of `send_in_loop`,
`send_file_in_loop`, `send_file_with_header_in_loop`, `force_close`, `on_read`, `on_write`,
`on_close`, `on_error` and everything they call.

User callbacks run in the middle of these bodies and may call back into the connection.  Each
body is therefore cut at its callbacks: a function computes up to the next callback and returns
the `Task`s that remain, in order.  `Machine` executes tasks from a stack, and between two tasks
of a user callback the user may issue any request.

* `TcpConnection`, `Session` — the members of the class; what the socket accepted, what callers
  passed in and which callbacks were invoked.
* `sendInLoop`, `sendFileInLoop`, `sendFileWithHeaderInLoop`, `sendPendingFileInLoop`, `onRead`,
  `onWrite`, `closeConnection` — the bodies; `none` stands for an answer the kernel cannot give
  (more bytes accepted than offered).
* `connection` — the transition system of event batches, requests, callbacks and their returns,
  for arbitrary kernel answers.
-/

namespace Tudou

open Transition

inductive Callback where
  | message
  | close
  | error
  | writeComplete
  | highWaterMark
  deriving DecidableEq, Repr

/-- A `std::shared_ptr<ScopedFd>` with what `fstat` and reads of it show. -/
structure ScopedFd where
  valid : Bool
  isRegularFile : Bool
  content : Bytes
  deriving DecidableEq, Repr

structure PendingFileSend where
  file : ScopedFd
  offset : Nat
  remaining : Nat
  deriving DecidableEq, Repr

/-- The bytes of `file` from `offset` on, `size` of them. -/
def ScopedFd.segment (file : ScopedFd) (size offset : Nat) : Bytes :=
  (file.content.drop offset).take size

def PendingFileSend.unsent (p : PendingFileSend) : Bytes := p.file.segment p.remaining p.offset

/-- The members of `TcpConnection`; `pendingFile` is `pendingFile_` while `hasPendingFile_`. -/
structure TcpConnection where
  channel : Channel
  readBuffer : Buffer
  writeBuffer : Buffer
  highWaterMark : Nat
  pendingFile : Option PendingFileSend
  registered : Callback → Bool
  isClosed : Bool

/-- A connection and what has been seen of it from outside. -/
structure Session where
  conn : TcpConnection
  /-- The bytes the socket accepted so far. -/
  wire : Bytes
  /-- All messages, headers and file segments passed to the send operations so far. -/
  passed : Bytes
  /-- The callbacks invoked so far, oldest first. -/
  trace : List Callback

/-- `create_connection`: a fresh connection reads, does not write and has nothing to send. -/
def Session.fresh (registered : Callback → Bool) (highWaterMark : Nat) : Session where
  conn :=
    { channel := ({} : Channel).enableReading, readBuffer := Buffer.empty, writeBuffer := Buffer.empty,
      highWaterMark := highWaterMark, pendingFile := none, registered := registered,
      isClosed := false }
  wire := []
  passed := []
  trace := []

/-- What a user of the connection can ask for on the loop thread. -/
inductive Request where
  | send (msg : Bytes)
  | sendFile (file : ScopedFd) (size offset : Nat)
  | sendFileWithHeader (header : Bytes) (file : ScopedFd) (size offset : Nat)
  | forceClose
  | receive
  deriving DecidableEq, Repr

/-- The bytes a request adds to the output stream. -/
def Request.payload : Request → Bytes
  | .send msg => msg
  | .sendFile file size offset => file.segment size offset
  | .sendFileWithHeader header file size offset => header ++ file.segment size offset
  | .forceClose | .receive => []

/-- A piece of work on the loop thread's stack. -/
inductive Task where
  | request (r : Request)
  | handler (h : Handler)
  /-- A `handle_*_callback()` call. -/
  | callback (cb : Callback)
  /-- The user code inside a callback. -/
  | user (cb : Callback)
  | closeConnection
  /-- The end of `send_file_in_loop`, after `send_pending_file_in_loop`. -/
  | sendFileRest
  /-- The end of `on_write`, after `send_pending_file_in_loop`. -/
  | onWriteRest
  /-- A request or handler is about to return to its caller. -/
  | ret
  deriving DecidableEq, Repr

/-- The kernel's answers to the system calls one task makes. -/
structure Syscalls where
  /-- `::write` or `::writev`. -/
  write : WriteResult := .failed .eagain
  sendfile : WriteResult := .failed .eagain
  /-- `::readv`. -/
  read : ReadResult := .failed .eagain
  deriving DecidableEq, Repr

/-- `n >= 0 ? n : 0`. -/
def WriteResult.count : WriteResult → Nat
  | .accepted n => n
  | .failed _ => 0

/-- `n < 0 && errno != EAGAIN && errno != EWOULDBLOCK`. -/
def WriteResult.fatal : WriteResult → Bool
  | .accepted _ => false
  | .failed e => e != .eagain

/-- `handle_error_callback(); close_connection(*channel_);`. -/
def errorPath : List Task := [.callback .error, .closeConnection]

namespace TcpConnection

def hasPendingFile (c : TcpConnection) : Bool := c.pendingFile.isSome

def enableWriting (c : TcpConnection) : TcpConnection := { c with channel := c.channel.enableWriting }

def disableWriting (c : TcpConnection) : TcpConnection := { c with channel := c.channel.disableWriting }

/-- Everything accepted from callers and not yet by the socket. -/
def unsent (c : TcpConnection) : Bytes :=
  c.writeBuffer.readable ++ (c.pendingFile.map PendingFileSend.unsent).getD []

end TcpConnection

namespace Session

/-- Offer `data` to the socket. -/
def offer (s : Session) (data : Bytes) (r : WriteResult) : Option Session :=
  if r.count ≤ data.length then some { s with wire := s.wire ++ data.take r.count } else none

def modify (s : Session) (f : TcpConnection → TcpConnection) : Session := { s with conn := f s.conn }

end Session

open TcpConnection

/-- The end of `send_in_loop`: buffer what was not written, ask for `EPOLLOUT`, and report a
backlog that has just crossed the high-water mark. -/
def queueUnsent (oldLen writtenLen : Nat) (msg : Bytes) (s : Session) : Session × List Task :=
  let s :=
    if writtenLen < msg.length then
      s.modify fun c => { c with writeBuffer := c.writeBuffer.writeToBuffer (msg.drop writtenLen) }
    else s
  let s := s.modify enableWriting
  let newLen := s.conn.writeBuffer.readableBytes
  (s, if s.conn.registered .highWaterMark ∧ oldLen < s.conn.highWaterMark ∧ s.conn.highWaterMark ≤ newLen
    then [.callback .highWaterMark] else [])

def sendInLoop (msg : Bytes) (r : WriteResult) (s : Session) : Option (Session × List Task) :=
  if s.conn.isClosed then some (s, [])
  else if s.conn.hasPendingFile then some (s, errorPath)
  else
    let oldLen := s.conn.writeBuffer.readableBytes
    if oldLen = 0 ∧ s.conn.channel.isWriting = false then
      match s.offer msg r with
      | none => none
      | some s =>
        if r.fatal then some (s, errorPath)
        else if r.count = msg.length then some (s, [.callback .writeComplete])
        else some (queueUnsent oldLen r.count msg s)
    else if 0 < oldLen then
      match s.offer (s.conn.writeBuffer.readable ++ msg) r with
      | none => none
      | some s =>
        if r.fatal then some (s, errorPath)
        else match r with
        | .failed _ => some (queueUnsent oldLen 0 msg s)
        | .accepted n =>
          if oldLen ≤ n then
            let s := s.modify fun c => { c with writeBuffer := c.writeBuffer.advanceReadIndex oldLen }
            if n - oldLen = msg.length then some (s.modify disableWriting, [.callback .writeComplete])
            else some (queueUnsent oldLen (n - oldLen) msg s)
          else
            let s := s.modify fun c => { c with writeBuffer := c.writeBuffer.advanceReadIndex n }
            some (queueUnsent oldLen 0 msg s)
    else some (queueUnsent oldLen 0 msg s)

def sendPendingFileInLoop (r : WriteResult) (s : Session) : Option (Session × List Task) :=
  match s.conn.pendingFile with
  | none => some (s, [])
  | some p =>
    match s.offer p.unsent r with
    | none => none
    | some s =>
      match r with
      | .failed e =>
        if e = .eagain then some (s.modify enableWriting, []) else some (s, errorPath)
      | .accepted n =>
        if n = 0 ∨ p.remaining - n = 0 then some (s.modify fun c => { c with pendingFile := none }, [])
        else
          let p' : PendingFileSend := { p with offset := p.offset + n, remaining := p.remaining - n }
          some (s.modify fun c => { c with pendingFile := some p' }.enableWriting, [])

/-- The end of `send_file_in_loop`. -/
def sendFileRest (s : Session) : Session × List Task :=
  (s, if s.conn.hasPendingFile then [] else [.callback .writeComplete])

def sendFileInLoop (file : ScopedFd) (size offset : Nat) (r : WriteResult) (s : Session) :
    Option (Session × List Task) :=
  if s.conn.isClosed ∨ size = 0 then some (s, [])
  else if !file.valid then some (s, errorPath)
  else if !file.isRegularFile then some (s, errorPath)
  else if s.conn.hasPendingFile then some (s, errorPath)
  else
    let s := s.modify fun c => { c with pendingFile := some ⟨file, offset, size⟩ }
    if 0 < s.conn.writeBuffer.readableBytes ∨ s.conn.channel.isWriting then
      some (s.modify enableWriting, [])
    else
      match sendPendingFileInLoop r s with
      | none => none
      | some (s, ts) => some (s, ts ++ [.sendFileRest])

def sendFileWithHeaderInLoop (header : Bytes) (file : ScopedFd) (size offset : Nat) (r : WriteResult)
    (s : Session) : Option (Session × List Task) :=
  if s.conn.isClosed then some (s, [])
  else if size = 0 then sendInLoop header r s
  else if !file.valid then some (s, errorPath)
  else if !file.isRegularFile then some (s, errorPath)
  else if s.conn.hasPendingFile then some (s, errorPath)
  else
    let oldLen := s.conn.writeBuffer.readableBytes
    let s := s.modify fun c =>
      { c with
        writeBuffer := c.writeBuffer.writeToBuffer header
        pendingFile := some ⟨file, offset, size⟩ }.enableWriting
    let newLen := s.conn.writeBuffer.readableBytes
    some (s, if s.conn.registered .highWaterMark ∧ oldLen < s.conn.highWaterMark ∧
      s.conn.highWaterMark ≤ newLen then [.callback .highWaterMark] else [])

def closeConnection (s : Session) : Session × List Task :=
  if s.conn.isClosed then (s, [])
  else (s.modify fun c => { c with isClosed := true, channel := c.channel.disableAll },
    [.callback .close])

def onRead (r : ReadResult) (s : Session) : Option (Session × List Task) :=
  match r with
  | .failed e => some (s, if e = .eagain then [] else errorPath)
  | .data bytes =>
    if s.conn.readBuffer.readCapacity < bytes.length then none
    else
      some (s.modify fun c => { c with readBuffer := c.readBuffer.readFromFd (.data bytes) },
        if bytes = [] then [.closeConnection] else [.callback .message])

/-- The end of `on_write`: nothing is left to send. -/
def onWriteRest (s : Session) : Session × List Task :=
  if s.conn.hasPendingFile then (s, [])
  else (s.modify disableWriting, [.callback .writeComplete])

/-- `on_write(channel)` once the write buffer is drained. -/
def onWriteFile (r : WriteResult) (s : Session) : Option (Session × List Task) :=
  if s.conn.hasPendingFile then
    match sendPendingFileInLoop r s with
    | none => none
    | some (s, ts) => some (s, ts ++ [.onWriteRest])
  else some (onWriteRest s)

def onWrite (k : Syscalls) (s : Session) : Option (Session × List Task) :=
  if 0 < s.conn.writeBuffer.readableBytes then
    match s.offer s.conn.writeBuffer.readable k.write with
    | none => none
    | some s =>
      match k.write with
      | .failed e => some (s, if e = .eagain then [] else errorPath)
      | .accepted n =>
        let s := s.modify fun c => { c with writeBuffer := c.writeBuffer.writeToFd (.accepted n) }
        if 0 < s.conn.writeBuffer.readableBytes then some (s, []) else onWriteFile k.sendfile s
  else onWriteFile k.sendfile s

/-- The handlers `TcpConnection` registers with its channel. -/
def handle (h : Handler) (k : Syscalls) (s : Session) : Option (Session × List Task) :=
  match h with
  | .close => some (s, [.closeConnection])
  | .error => some (s, errorPath)
  | .read => onRead k.read s
  | .write => onWrite k s

/-- The loop-thread half of the public operations. -/
def serve (r : Request) (k : Syscalls) (s : Session) : Option (Session × List Task) :=
  match r with
  | .send msg => sendInLoop msg k.write s
  | .sendFile file size offset => sendFileInLoop file size offset k.sendfile s
  | .sendFileWithHeader header file size offset =>
    sendFileWithHeaderInLoop header file size offset k.write s
  | .forceClose => some (s, [.closeConnection])
  | .receive =>
    some (s.modify fun c => { c with readBuffer := c.readBuffer.readAllFromBuffer.2 }, [])

/-- `handle_*_callback()`: an unset callback is skipped, except that the message callback is
asserted to be set. -/
def invoke (cb : Callback) (s : Session) : Option (Session × List Task) :=
  if s.conn.registered cb then some ({ s with trace := s.trace ++ [cb] }, [.user cb])
  else if cb = .message then none
  else some (s, [])

/-- Execute one task up to its next callback. -/
def execTask (t : Task) (k : Syscalls) (s : Session) : Option (Session × List Task) :=
  match t with
  | .request r => serve r k { s with passed := s.passed ++ r.payload }
  | .handler h => handle h k s
  | .callback cb => invoke cb s
  | .closeConnection => some (closeConnection s)
  | .sendFileRest => some (sendFileRest s)
  | .onWriteRest => some (onWriteRest s)
  | .user _ | .ret => none

/-- The loop thread: the session, its stack of tasks, and the handlers the current event
dispatch has still to run. -/
structure Machine where
  session : Session
  stack : List Task
  handlers : List Handler

inductive Label where
  /-- The poller reports events for the channel. -/
  | events (revents : EpollEvents)
  | dispatch
  /-- A request, from the loop thread itself or from the user callback on top of the stack. -/
  | call (r : Request)
  /-- The task on top of the stack runs, with these kernel answers. -/
  | exec (k : Syscalls)
  | leave
  | ret
  deriving DecidableEq, Repr

namespace Machine

def step (m : Machine) (l : Label) : Option Machine :=
  match l, m.stack with
  | .events revents, [] =>
    if m.handlers = [] then some { m with handlers := handleEventsWithGuard revents } else none
  | .dispatch, [] =>
    match m.handlers with
    | [] => none
    | h :: hs => some { m with stack := [.handler h, .ret], handlers := hs }
  | .call r, [] => if m.handlers = [] then some { m with stack := [.request r, .ret] } else none
  | .call r, .user cb :: rest => some { m with stack := .request r :: .ret :: .user cb :: rest }
  | .exec k, t :: rest =>
    match execTask t k m.session with
    | none => none
    | some (s, ts) => some { m with session := s, stack := ts ++ rest }
  | .leave, .user _ :: rest => some { m with stack := rest }
  | .ret, .ret :: rest => some { m with stack := rest }
  | _, _ => none

end Machine

/-- **The connection on its loop thread**: every sequence of event batches, requests and
re-entrant calls, with every kernel answer. -/
def connection (registered : Callback → Bool) (highWaterMark : Nat) : System Machine Label where
  init := ⟨Session.fresh registered highWaterMark, [], []⟩
  step := Machine.step

end Tudou
