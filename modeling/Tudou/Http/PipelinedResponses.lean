import Tudou.Http.RequestStream
import Tudou.Tcp.Faultless
import Tudou.Tcp.OutputStream

/-!
# Pipelined responses

`HttpServer::on_message` on top of the connection of `Tudou.Tcp.TcpConnection`: the code runs in the
message callback, its calls go into the connection, and the socket takes what it likes in between.

* `PlainHttp`, `plainHttp` — the connection and the code running in its callbacks.
* `Serving` — the invariant of the runs in which no response is issued behind a file that is still
  pending; `Serving.step` — every such step keeps it.
* `pipelined_responses_whole` — **then the connection stays open, and what goes out is the responses,
  whole and in order.**
* `response_behind_file_fails` — otherwise the response is not sent, and the connection closes.
-/

namespace Tudou

open Transition Framing TcpConnection

/-- The code running in the message callback. -/
inductive HttpStage where
  | idle
  /-- `conn->receive()` has been called, with this result. -/
  | receiving (data : Bytes)
  /-- In the loop. -/
  | running
  deriving DecidableEq, Repr

/-- A connection without TLS and the `HttpServer` that serves it. -/
structure PlainHttp (P ω : Type*) where
  machine : Machine
  /-- The connection has an entry in `connectionStates_`. -/
  hasState : Bool
  stage : HttpStage
  code : OnMessage P ω Unit
  /-- All bytes read from the socket so far. -/
  received : Bytes

inductive HttpLabel where
  /-- The connection itself moves: events, dispatch, a task, a return. -/
  | tcp (l : Label)
  /-- The code in the callback on top of the stack goes on. -/
  | http
  deriving DecidableEq, Repr

/-- The connection callbacks an `HttpServer` sets. -/
def httpCallbacks (cb : Callback) : Bool := cb = .message || cb = .close

/-- What a task takes from the socket when it runs with these answers. -/
def Task.arriving (k : Syscalls) : Task → Bytes
  | .handler .read =>
    match k.read with
    | .data bytes => bytes
    | .failed _ => []
  | _ => []

/-- What a step takes from the socket. -/
def Machine.arriving (m : Machine) : Label → Bytes
  | .exec k => (m.stack.head?.map (Task.arriving k)).getD []
  | _ => []

namespace PlainHttp

variable {P ω : Type*} (L : Llhttp P) (handler : HttpHandler ω)

/-- The callback on top of the stack returns. -/
def leave (c : PlainHttp P ω) : Option (PlainHttp P ω) :=
  (c.machine.step .leave).map fun m => { c with machine := m, stage := .idle }

/-- `on_message(conn)` up to its next call into the connection. -/
def onMessage (c : PlainHttp P ω) : Option (PlainHttp P ω) :=
  match c.stage with
  | .idle =>
    (c.machine.step (.call .receive)).map fun m =>
      { c with machine := m, stage := .receiving c.machine.session.conn.readBuffer.readable }
  | .receiving data =>
    if data = [] ∨ c.hasState = false then c.leave
    else some { c with stage := .running, code := { c.code with phase := .loop data } }
  | .running =>
    if c.code.phase = .done then c.leave
    else
      let (code, request) := c.code.advance L handler plainReply c.hasState
      match request with
      | none => some { c with code := code }
      | some r => (c.machine.step (.call r)).map fun m => { c with machine := m, code := code }

def step (c : PlainHttp P ω) : HttpLabel → Option (PlainHttp P ω)
  | .tcp (.call _) | .tcp .leave => none
  | .tcp l =>
    (c.machine.step l).map fun m =>
      { c with machine := m, received := c.received ++ c.machine.arriving l }
  | .http =>
    match c.machine.stack with
    | .user .message :: _ => c.onMessage L handler
    -- `on_close(conn)`
    | .user .close :: _ =>
      (c.machine.step .leave).map fun m => { c with machine := m, hasState := false }
    | _ => none

/-- The bytes of a reply that are not yet with the connection. -/
def todo (c : PlainHttp P ω) : Bytes :=
  match c.code.phase with
  | .reply todo _ => (todo.map Request.payload).flatten
  | .loop _ | .done => []

/-- No response is issued while the file of an earlier one is pending. -/
def NoFilePending (c : PlainHttp P ω) : HttpLabel → Prop
  | .http =>
    match c.stage, c.code.phase with
    | .running, .reply (_ :: _) _ => c.machine.session.conn.pendingFile = none
    | _, _ => True
  | .tcp _ => True

/-- The kernel reports no error and the peer does not hang up. -/
def Faultless : HttpLabel → Prop
  | .tcp l => l.Faultless
  | .http => True

/-- What arrives is a stream of requests. -/
def WellFormed (hL : L.Incremental) (c : PlainHttp P ω) : HttpLabel → Prop
  | .tcp l => ((HttpSession.requests hL).split (c.received ++ c.machine.arriving l)).2 ≠ none
  | .http => True

end PlainHttp

/-- **The connection and its server**, from the moment the connection is established. -/
def plainHttp {P ω : Type*} (L : Llhttp P) (handler : HttpHandler ω) (highWaterMark : Nat) (w : ω) :
    System (PlainHttp P ω) HttpLabel where
  init := ⟨⟨Session.fresh httpCallbacks highWaterMark, [], []⟩, true, .idle,
    ⟨.create L, w, (), [], .done⟩, []⟩
  step := PlainHttp.step L handler

/-- The responses to requests, one after the other, and what they leave behind. -/
def answers {ω : Type*} (handler : HttpHandler ω) : ω → List HttpRequest → List HttpResponse × ω
  | w, [] => ([], w)
  | w, request :: requests =>
    let (response, w) := handler request w
    let (responses, w) := answers handler w requests
    (response :: responses, w)

theorem answers_append {ω : Type*} (handler : HttpHandler ω) (w : ω) (requests : List HttpRequest)
    (request : HttpRequest) :
    answers handler w (requests ++ [request]) =
      ((answers handler w requests).1 ++ [(handler request (answers handler w requests).2).1],
        (handler request (answers handler w requests).2).2) := by
  induction requests generalizing w with
  | nil => rfl
  | cons r requests ih => simp only [List.cons_append, answers, ih]

/-! ## The invariant -/

/-- A response that leaves the connection open, and whose file body can be sent. -/
structure KeepsOpen (r : HttpResponse) : Prop where
  keepAlive : r.closeConnection = false
  regular : ∀ file, r.validFile = some file → file.isRegularFile = true

/-- A request that sends a response. -/
def Request.Deliverable : Request → Prop
  | .send _ => True
  | .sendFileWithHeader _ file _ _ => file.valid = true ∧ file.isRegularFile = true
  | .sendFile .. | .forceClose | .receive => False

/-- **A response is one request**, which carries all of it. -/
theorem KeepsOpen.sendHttpResponse {r : HttpResponse} (h : KeepsOpen r) :
    ∃ request, r.sendHttpResponse = [request] ∧ request.Deliverable ∧
      request.payload = r.serialised := by
  refine ⟨_, ?_, ?_, r.payload_sendPlainResponse⟩
  · simp only [HttpResponse.sendHttpResponse, HttpResponse.withContentLength_closeConnection,
      h.keepAlive, Bool.false_eq_true, if_false]
    rfl
  · unfold HttpResponse.sendPlainResponse
    rw [HttpResponse.withContentLength_validFile]
    cases hfile : r.validFile with
    | none => trivial
    | some file =>
      refine ⟨?_, h.regular file hfile⟩
      unfold HttpResponse.validFile at hfile
      split at hfile
      · exact (Option.filter_eq_some_iff.mp hfile).2
      · cases hfile

namespace HttpStage

/-- What stands on the stack below the work of the stage. -/
def below : HttpStage → List Task
  | .idle => []
  | .receiving _ | .running => [.user .message, .ret]

/-- The tasks a stage can have on top of the stack. -/
def Allows (stage : HttpStage) (conn : TcpConnection) : Task → Prop
  | .request r =>
    match stage with
    | .idle => False
    | .receiving data => r = .receive ∧ conn.readBuffer.readable = data
    | .running => r.Deliverable ∧ conn.pendingFile = none
  | .handler h => stage = .idle ∧ (h = .read ∨ h = .write)
  | .callback cb =>
    match stage with
    | .idle => cb = .message ∨ cb = .writeComplete
    | .receiving _ => False
    | .running => cb = .writeComplete ∨ cb = .highWaterMark
  | .user cb => stage = .idle ∧ cb = .message
  | .onWriteRest => stage = .idle
  | .closeConnection | .sendFileRest | .ret => False

end HttpStage

/-- One task and its return, or the return, or nothing. -/
inductive Frames (T : Task → Prop) : List Task → Prop
  | nil : Frames T []
  | ret : Frames T [.ret]
  | task {t : Task} : T t → Frames T [t, .ret]

/-! ## One task -/

/-- What an allowed task does when nothing goes wrong. -/
structure Executed (stage : HttpStage) (t : Task) (k : Syscalls) (s s' : Session) (ts : List Task) :
    Prop where
  isOpen : s'.conn.isClosed = false
  registered : s'.conn.registered = httpCallbacks
  passed : s'.passed = s.passed ++ t.payload
  tasks : ts = [] ∨ ∃ t', ts = [t'] ∧ stage.Allows s'.conn t' ∧ t'.payload = []
  readable : s'.conn.readBuffer.readable =
    if t = .request .receive then [] else s.conn.readBuffer.readable ++ t.arriving k
  message : t.arriving k ≠ [] → ts = [.callback .message]
  user : t = .callback .message → ts = [.user .message]

/-- A sending body: its follow-ups are allowed, and it reads nothing. -/
theorem Executed.of_unhurt {stage : HttpStage} {t : Task} {k : Syscalls} {s s' : Session}
    {ts followUps : List Task} (h : Unhurt (s.pass t) s' ts followUps) (hframe : Frame (s.pass t) s')
    (hopen : s.conn.isClosed = false) (hreg : s.conn.registered = httpCallbacks)
    (hallow : ∀ t' ∈ followUps, stage.Allows s'.conn t' ∧ t'.payload = [])
    (ht : t ≠ .request .receive ∧ t ≠ .handler .read ∧ t ≠ .callback .message) :
    Executed stage t k s s' ts := by
  have harrive : t.arriving k = [] := by
    unfold Task.arriving
    split
    · exact absurd rfl ht.2.1
    · rfl
  refine ⟨hframe.isClosed.trans hopen, hframe.registered.trans hreg, hframe.passed, ?_, ?_, ?_, ?_⟩
  · refine h.tasks.imp id ?_
    rintro ⟨t', ht', rfl⟩
    exact ⟨t', rfl, hallow t' ht'⟩
  · rw [if_neg ht.1, harrive, List.append_nil, h.readBuffer]
    rfl
  · exact fun hne => absurd harrive hne
  · exact fun heq => absurd heq ht.2.2

/-- A task with a body changes at most the buffers, the pending file, the interest and the wire. -/
theorem frame_of_body {t : Task} {k : Syscalls} {s s' : Session} {ts : List Task}
    (h : execTask t k s = some (s', ts)) (hbody : t.isBody = true) : Frame (s.pass t) s' := by
  cases execTask_ends h with
  | body _ hends => exact hends.frame
  | finishing heq => rw [heq] at hbody; cases hbody
  | invoked heq => rw [heq] at hbody; cases hbody
  | skipped heq => rw [heq] at hbody; cases hbody
  | closedAlready heq => rw [heq] at hbody; cases hbody
  | closed heq => rw [heq] at hbody; cases hbody

section

variable {stage : HttpStage} {k : Syscalls} {s s' : Session} {ts : List Task}

theorem executed_request {r : Request} (ht : stage.Allows s.conn (.request r))
    (hopen : s.conn.isClosed = false) (hreg : s.conn.registered = httpCallbacks) (hk : k.Faultless)
    (h : execTask (.request r) k s = some (s', ts)) : Executed stage (.request r) k s s' ts := by
  have hopen' : (s.pass (.request r)).conn.isClosed = false := hopen
  cases stage with
  | idle => exact ht.elim
  | receiving data =>
    obtain ⟨rfl, -⟩ := ht
    cases h
    refine ⟨hopen, hreg, rfl, .inl rfl, ?_, fun hne => absurd rfl hne, nofun⟩
    exact (s.conn.readBuffer.readable_readAllFromBuffer).trans (if_pos rfl).symm
  | running =>
    obtain ⟨hr, hp⟩ := ht
    have hallow : ∀ t' ∈ [Task.callback .writeComplete, .callback .highWaterMark],
        HttpStage.running.Allows s'.conn t' ∧ t'.payload = [] := by
      intro t' ht'
      rcases List.mem_pair.mp ht' with rfl | rfl
      · exact ⟨.inl rfl, rfl⟩
      · exact ⟨.inr rfl, rfl⟩
    have hf := frame_of_body h rfl
    cases r with
    | send msg =>
      have h : sendInLoop msg k.write (s.pass (.request (.send msg))) = some (s', ts) := h
      exact .of_unhurt (sendInLoop_unhurt h hopen' hp hk.write) hf hopen hreg hallow
        ⟨nofun, nofun, nofun⟩
    | sendFileWithHeader header file size offset =>
      have h : sendFileWithHeaderInLoop header file size offset k.write
          (s.pass (.request (.sendFileWithHeader header file size offset))) = some (s', ts) := h
      exact .of_unhurt (sendFileWithHeaderInLoop_unhurt h hopen' hp hk.write hr.1 hr.2) hf
        hopen hreg hallow ⟨nofun, nofun, nofun⟩
    | sendFile _ _ _ => exact hr.elim
    | forceClose => exact hr.elim
    | receive => exact hr.elim

theorem executed_read (hopen : s.conn.isClosed = false) (hreg : s.conn.registered = httpCallbacks)
    (hk : k.Faultless) (h : execTask (.handler .read) k s = some (s', ts)) :
    Executed .idle (.handler .read) k s s' ts := by
  have hf := frame_of_body h rfl
  rcases onRead_unhurt h hk.read with ⟨bytes, hread, hbuf, rfl⟩ | ⟨hread, hbuf, rfl⟩
  · have harrive : (Task.handler .read).arriving k = bytes := by simp only [Task.arriving, hread]
    refine ⟨hf.isClosed.trans hopen, hf.registered.trans hreg, hf.passed,
      .inr ⟨_, rfl, .inl rfl, rfl⟩, ?_, fun _ => rfl, nofun⟩
    rw [if_neg nofun, harrive, hbuf]
  · have harrive : (Task.handler .read).arriving k = [] := by
      unfold Task.arriving
      cases hk : k.read with
      | data bytes => exact absurd hk (hread bytes)
      | failed e => rfl
    refine ⟨hf.isClosed.trans hopen, hf.registered.trans hreg, hf.passed, .inl rfl, ?_,
      fun hne => absurd harrive hne, nofun⟩
    rw [if_neg nofun, harrive, hbuf, List.append_nil]

theorem executed_write (hopen : s.conn.isClosed = false) (hreg : s.conn.registered = httpCallbacks)
    (hk : k.Faultless) (h : execTask (.handler .write) k s = some (s', ts)) :
    Executed .idle (.handler .write) k s s' ts := by
  have hsame : s.pass (.handler .write) = s := Session.pass_nil rfl s
  refine .of_unhurt (hsame ▸ onWrite_unhurt h hk) (frame_of_body h rfl) hopen hreg ?_
    ⟨nofun, nofun, nofun⟩
  intro t' ht'
  rcases List.mem_pair.mp ht' with rfl | rfl
  · exact ⟨.inr rfl, rfl⟩
  · exact ⟨rfl, rfl⟩

theorem executed_callback {cb : Callback} (ht : stage.Allows s.conn (.callback cb))
    (hopen : s.conn.isClosed = false) (hreg : s.conn.registered = httpCallbacks)
    (h : execTask (.callback cb) k s = some (s', ts)) : Executed stage (.callback cb) k s s' ts := by
  simp only [execTask, invoke, hreg] at h
  by_cases hcb : cb = .message
  · subst hcb
    obtain ⟨rfl, rfl⟩ := Prod.mk.inj (Option.some.inj h)
    obtain rfl : stage = .idle := by
      cases stage with
      | idle => rfl
      | receiving _ => exact ht.elim
      | running => rcases ht with h | h <;> cases h
    exact ⟨hopen, hreg, (List.append_nil _).symm, .inr ⟨_, rfl, ⟨rfl, rfl⟩, rfl⟩,
      (List.append_nil _).symm, fun hne => absurd rfl hne, fun _ => rfl⟩
  · have hclose : cb ≠ .close := by
      rintro rfl
      cases stage with
      | idle => rcases ht with h | h <;> cases h
      | receiving _ => exact ht.elim
      | running => rcases ht with h | h <;> cases h
    rw [if_neg (by simp [httpCallbacks, hcb, hclose]), if_neg hcb] at h
    obtain ⟨rfl, rfl⟩ := Prod.mk.inj (Option.some.inj h)
    exact ⟨hopen, hreg, (List.append_nil _).symm, .inl rfl, (List.append_nil _).symm,
      fun hne => absurd rfl hne, fun heq => absurd (Task.callback.inj heq) hcb⟩

theorem executed_onWriteRest (hopen : s.conn.isClosed = false)
    (hreg : s.conn.registered = httpCallbacks) (h : execTask .onWriteRest k s = some (s', ts)) :
    Executed .idle .onWriteRest k s s' ts := by
  have hrest : onWriteRest s = (s', ts) := Option.some.inj h
  have hunhurt := onWriteRest_unhurt s
  rw [hrest] at hunhurt
  have hf : Frame s s' := by
    rcases onWriteRest_ends hrest with ⟨_, rfl, _⟩ | ⟨_, rfl, _⟩
    · exact Frame.refl _
    · exact ⟨rfl, rfl, rfl, rfl⟩
  have hsame : s = s.pass .onWriteRest := (Session.pass_nil rfl s).symm
  rw [hsame] at hunhurt hf
  refine .of_unhurt hunhurt hf hopen hreg ?_ (by simp)
  intro t' ht'
  obtain rfl := List.mem_singleton.mp ht'
  exact ⟨.inr rfl, rfl⟩

/-- **What a task allowed at a stage does.** -/
theorem executed {t : Task} (ht : stage.Allows s.conn t) (hopen : s.conn.isClosed = false)
    (hreg : s.conn.registered = httpCallbacks) (hk : k.Faultless)
    (h : execTask t k s = some (s', ts)) : Executed stage t k s s' ts := by
  cases t with
  | request r => exact executed_request ht hopen hreg hk h
  | handler e =>
    obtain ⟨rfl, rfl | rfl⟩ := ht
    · exact executed_read hopen hreg hk h
    · exact executed_write hopen hreg hk h
  | callback cb => exact executed_callback ht hopen hreg h
  | user cb => cases h
  | closeConnection => exact ht.elim
  | sendFileRest => exact ht.elim
  | ret => exact ht.elim
  | onWriteRest =>
    obtain rfl : stage = .idle := ht
    exact executed_onWriteRest hopen hreg h

end

namespace PlainHttp

variable {P ω : Type*} {L : Llhttp P} {handler : HttpHandler ω} {highWaterMark : Nat} {w : ω}

/-- A message callback is about to run, or runs. -/
def Delivering (stack : List Task) : Prop :=
  stack = [.callback .message, .ret] ∨ stack = [.user .message, .ret]

/-- Where the bytes `ahead` are that the parser has not seen yet, with `left` read of a message. -/
def Reading (hL : L.Incremental) (c : PlainHttp P ω) (left ahead : Bytes) : Prop :=
  match c.stage with
  | .idle =>
    ahead = c.machine.session.conn.readBuffer.readable ∧ c.code.phase = .done ∧
      (HttpContext.httpParser hL).Reads c.code.context left ∧
      (Delivering c.machine.stack ∨ c.machine.session.conn.readBuffer.readable = [])
  | .receiving data =>
    ahead = data ∧ c.code.phase = .done ∧ (HttpContext.httpParser hL).Reads c.code.context left ∧
      (c.machine.stack = .request .receive :: .ret :: c.stage.below ∨
        c.machine.session.conn.readBuffer.readable = [])
  | .running =>
    c.machine.session.conn.readBuffer.readable = [] ∧
      match c.code.phase with
      | .loop rest => ahead = rest ∧ (HttpContext.httpParser hL).Reads c.code.context left
      | .reply todo (some rest) => ahead = rest ∧ left = [] ∧ ∀ r ∈ todo, r.Deliverable
      | .reply _ none => False
      | .done => ahead = [] ∧ (HttpContext.httpParser hL).Reads c.code.context left

/-- `requests` are answered, and what is to come is in `left ++ ahead`. -/
structure Progress (hL : L.Incremental) (handler : HttpHandler ω) (w : ω) (c : PlainHttp P ω)
    (answered : List HttpRequest) (left ahead : Bytes) : Prop where
  reading : c.Reading hL left ahead
  stream : (HttpSession.requests hL).split c.received =
    (answered ++ ((HttpSession.requests hL).split (left ++ ahead)).1,
      ((HttpSession.requests hL).split (left ++ ahead)).2)
  world : c.code.world = (answers handler w answered).2
  output : c.machine.session.passed ++ (c.machine.stack.map Task.payload).flatten ++ c.todo =
    ((answers handler w answered).1.map HttpResponse.serialised).flatten

/-- **The invariant**: the connection is open, nothing on its stack can fail, and the responses to
the requests seen so far are passed on in order. -/
structure Serving (hL : L.Incremental) (handler : HttpHandler ω) (highWaterMark : Nat) (w : ω)
    (c : PlainHttp P ω) : Prop where
  reaches : (connection httpCallbacks highWaterMark).Reaches
    (fun m l => ErrorsQuiet m l ∧ l.FilesLongEnough) c.machine
  isOpen : c.machine.session.conn.isClosed = false
  registered : c.machine.session.conn.registered = httpCallbacks
  handlers : ∀ h ∈ c.machine.handlers, h = .read ∨ h = .write
  hasState : c.hasState = true
  stack : ∃ frames, Frames (c.stage.Allows c.machine.session.conn) frames ∧
    c.machine.stack = frames ++ c.stage.below
  wellFormed : ((HttpSession.requests hL).split c.received).2 ≠ none
  progress : ∃ answered left ahead, c.Progress hL handler w answered left ahead

/-! ## The connection moves -/

/-- What arrives comes behind what is ahead. -/
theorem stream_append {hL : L.Incremental} {received ahead : Bytes} {answered : List HttpRequest}
    (h : (HttpSession.requests hL).split received =
      (answered ++ ((HttpSession.requests hL).split ahead).1, ((HttpSession.requests hL).split ahead).2))
    (hwell : ((HttpSession.requests hL).split received).2 ≠ none) (data : Bytes) :
    (HttpSession.requests hL).split (received ++ data) =
      (answered ++ ((HttpSession.requests hL).split (ahead ++ data)).1,
        ((HttpSession.requests hL).split (ahead ++ data)).2) := by
  obtain ⟨rest, hrest⟩ := Option.ne_none_iff_exists'.mp hwell
  have hahead : ((HttpSession.requests hL).split ahead).2 = some rest := by
    rw [h] at hrest
    exact hrest
  rw [Splitter.split_append data hrest, Splitter.split_append data hahead, h, List.append_assoc]

/-- The connection's own runs. -/
theorem Serving.reaches_tcp {hL : L.Incremental} {c : PlainHttp P ω} {l : Label} {m : Machine}
    (h : Serving hL handler highWaterMark w c) (hl : l.isCall = false) (hf : l.Faultless)
    (hm : c.machine.step l = some m) :
    (connection httpCallbacks highWaterMark).Reaches
      (fun m l => ErrorsQuiet m l ∧ l.FilesLongEnough) m := by
  refine h.reaches.step ⟨fun hcall => ?_, ?_⟩ hm
  · rw [hl] at hcall
    cases hcall
  · cases l with
    | exec k => exact hf.moves
    | events | dispatch | call | leave | ret => trivial

/-- Only an idle server has an empty stack. -/
theorem Serving.idle_of_nil {hL : L.Incremental} {c : PlainHttp P ω}
    (h : Serving hL handler highWaterMark w c) (hst : c.machine.stack = []) : c.stage = .idle := by
  obtain ⟨frames, -, hstack⟩ := h.stack
  rw [hst] at hstack
  cases hstage : c.stage with
  | idle => rfl
  | receiving data => simp [hstage, HttpStage.below] at hstack
  | running => simp [hstage, HttpStage.below] at hstack

/-- A task that runs is the one the stage allows. -/
theorem Serving.allows_of_exec {hL : L.Incremental} {c : PlainHttp P ω} {k : Syscalls} {t : Task}
    {rest ts : List Task} {s : Session} (h : Serving hL handler highWaterMark w c)
    (hst : c.machine.stack = t :: rest) (he : execTask t k c.machine.session = some (s, ts)) :
    c.stage.Allows c.machine.session.conn t ∧ rest = .ret :: c.stage.below := by
  obtain ⟨frames, hframes, hstack⟩ := h.stack
  rw [hst] at hstack
  cases hframes with
  | nil =>
    cases hstage : c.stage with
    | idle => simp [hstage, HttpStage.below] at hstack
    | receiving data =>
      simp only [hstage, HttpStage.below, List.nil_append, List.cons.injEq] at hstack
      rw [hstack.1] at he
      cases he
    | running =>
      simp only [hstage, HttpStage.below, List.nil_append, List.cons.injEq] at hstack
      rw [hstack.1] at he
      cases he
  | ret =>
    simp only [List.singleton_append, List.cons.injEq] at hstack
    rw [hstack.1] at he
    cases he
  | @task t' ht' =>
    simp only [List.cons_append, List.nil_append, List.cons.injEq] at hstack
    exact ⟨hstack.1 ▸ ht', hstack.2⟩

/-- While the received data is handed over, nothing else runs. -/
theorem HttpStage.Allows.eq_receive {data : Bytes} {conn : TcpConnection} {t : Task}
    (h : (HttpStage.receiving data).Allows conn t) : t = .request .receive := by
  cases t with
  | request r => exact congrArg Task.request h.1
  | handler _ => exact absurd h.1 nofun
  | callback _ => exact h.elim
  | user _ => exact absurd h.1 nofun
  | onWriteRest => exact absurd h nofun
  | closeConnection => exact h.elim
  | sendFileRest => exact h.elim
  | ret => exact h.elim

/-- While the HTTP loop runs, no task touches the received bytes. -/
theorem HttpStage.Allows.nothing_arrives {conn : TcpConnection} {t : Task}
    (h : HttpStage.running.Allows conn t) (k : Syscalls) :
    t ≠ .request .receive ∧ t.arriving k = [] := by
  cases t with
  | request r =>
    refine ⟨?_, rfl⟩
    rintro ⟨⟩
    exact h.1
  | handler _ => exact absurd h.1 nofun
  | callback _ | user _ | onWriteRest | closeConnection | sendFileRest | ret => exact ⟨nofun, rfl⟩

/-- **A task of the connection runs.** -/
theorem Serving.exec {hL : L.Incremental} {c : PlainHttp P ω} {k : Syscalls} {m : Machine}
    (h : Serving hL handler highWaterMark w c) (hk : k.Faultless)
    (hwell : ((HttpSession.requests hL).split (c.received ++ c.machine.arriving (.exec k))).2 ≠ none)
    (hm : c.machine.step (.exec k) = some m) :
    Serving hL handler highWaterMark w
      { c with machine := m, received := c.received ++ c.machine.arriving (.exec k) } := by
  have hreaches := h.reaches_tcp rfl (show (Label.exec k).Faultless from hk) hm
  obtain ⟨answered, left, ahead, hp⟩ := h.progress
  cases Machine.step_ends hm with
  | @exec _ t rest ts s hst he =>
    obtain ⟨hallows, hrest⟩ := h.allows_of_exec hst he
    have hex := executed hallows h.isOpen h.registered hk he
    have harrive : c.machine.arriving (.exec k) = t.arriving k := by
      simp only [Machine.arriving, hst, List.head?_cons, Option.map_some, Option.getD_some]
    rw [harrive] at hwell ⊢
    have hpayload : (ts.map Task.payload).flatten = [] := by
      rcases hex.tasks with rfl | ⟨t', rfl, -, ht'⟩
      · rfl
      · simp [ht']
    have hframes : ∃ frames, Frames (c.stage.Allows s.conn) frames ∧
        ts ++ rest = frames ++ c.stage.below := by
      rw [hrest]
      rcases hex.tasks with rfl | ⟨t', rfl, ht', -⟩
      · exact ⟨[.ret], .ret, rfl⟩
      · exact ⟨[t', .ret], .task ht', rfl⟩
    refine ⟨hreaches, hex.isOpen, hex.registered, h.handlers, h.hasState, hframes, hwell,
      answered, left, ?_⟩
    have houtput : s.passed ++ ((ts ++ rest).map Task.payload).flatten ++ c.todo =
        ((answers handler w answered).1.map HttpResponse.serialised).flatten := by
      rw [← hp.output, hst, hex.passed, List.map_append, List.flatten_append, hpayload, List.map_cons,
        List.flatten_cons, List.nil_append, List.append_assoc c.machine.session.passed]
    have hreading := hp.reading
    unfold Reading at hreading
    cases hstage : c.stage with
    | idle =>
      simp only [hstage] at hreading hallows
      obtain ⟨rfl, hphase, hreads, hdeliver⟩ := hreading
      have ht : t ≠ .request .receive := by
        rintro rfl
        exact hallows
      have hreadable := hex.readable
      rw [if_neg ht] at hreadable
      refine ⟨c.machine.session.conn.readBuffer.readable ++ t.arriving k, ?_, ?_, hp.world, houtput⟩
      · unfold Reading
        simp only
        refine ⟨hreadable.symm, hphase, hreads, ?_⟩
        by_cases harr : t.arriving k = []
        · rw [hreadable, harr, List.append_nil]
          refine hdeliver.imp_left fun hd => ?_
          rw [hst, hrest, hstage] at hd
          rcases hd with hd | hd
          · obtain rfl : t = .callback .message := (List.cons.inj hd).1
            rw [hex.user rfl, hrest, hstage]
            exact .inr rfl
          · obtain rfl : t = .user .message := (List.cons.inj hd).1
            cases he
        · rw [hex.message harr, hrest, hstage]
          exact .inl (.inl rfl)
      · have hstream := stream_append hp.stream h.wellFormed (t.arriving k)
        rw [List.append_assoc] at hstream
        exact hstream
    | receiving data =>
      simp only [hstage] at hreading hallows
      obtain ⟨rfl, hphase, hreads, -⟩ := hreading
      obtain rfl := HttpStage.Allows.eq_receive hallows
      have harr : (Task.request .receive).arriving k = [] := rfl
      refine ⟨ahead, ?_, ?_, hp.world, houtput⟩
      · unfold Reading
        simp only
        exact ⟨trivial, hphase, hreads, .inr (hex.readable.trans (if_pos rfl))⟩
      · rw [harr, List.append_nil]
        exact hp.stream
    | running =>
      simp only [hstage] at hreading hallows
      obtain ⟨hread, hphase⟩ := hreading
      obtain ⟨ht, harr⟩ := HttpStage.Allows.nothing_arrives hallows k
      refine ⟨ahead, ?_, ?_, hp.world, houtput⟩
      · unfold Reading
        simp only
        refine ⟨?_, hphase⟩
        rw [hex.readable, if_neg ht, harr, hread, List.append_nil]
      · rw [harr, List.append_nil]
        exact hp.stream

/-- A return is the last thing above what is below. -/
theorem Serving.below_of_ret {hL : L.Incremental} {c : PlainHttp P ω} {rest : List Task}
    (h : Serving hL handler highWaterMark w c) (hst : c.machine.stack = .ret :: rest) :
    rest = c.stage.below := by
  obtain ⟨frames, hframes, hstack⟩ := h.stack
  rw [hst] at hstack
  cases hframes with
  | nil =>
    cases hstage : c.stage with
    | idle => simp [hstage, HttpStage.below] at hstack
    | receiving data => simp [hstage, HttpStage.below] at hstack
    | running => simp [hstage, HttpStage.below] at hstack
  | ret => exact (List.cons.inj hstack).2
  | task ht =>
    rw [← (List.cons.inj hstack).1] at ht
    exact ht.elim

/-- A step of the connection alone; what it reads is noted. -/
theorem tcp_ends {c c' : PlainHttp P ω} {l : Label} (h : c.step L handler (.tcp l) = some c') :
    ∃ m, c.machine.step l = some m ∧
      { c with machine := m, received := c.received ++ c.machine.arriving l } = c' ∧
      l.isCall = false ∧ l ≠ .leave := by
  cases l with
  | call r => cases h
  | leave => cases h
  | events | dispatch | exec | ret =>
    obtain ⟨m, hm, rfl⟩ := Option.map_eq_some_iff.mp h
    exact ⟨m, hm, rfl, rfl, fun hl => by cases hl⟩

/-- **Step lemma** for the connection. -/
theorem Serving.tcp {hL : L.Incremental} {c c' : PlainHttp P ω} {l : Label}
    (h : Serving hL handler highWaterMark w c) (hf : l.Faultless)
    (hwell : ((HttpSession.requests hL).split (c.received ++ c.machine.arriving l)).2 ≠ none)
    (hs : c.step L handler (.tcp l) = some c') : Serving hL handler highWaterMark w c' := by
  obtain ⟨m, hm, rfl, hcall, hleave⟩ := tcp_ends hs
  have hreaches := h.reaches_tcp hcall hf hm
  obtain ⟨answered, left, ahead, hp⟩ := h.progress
  have hreading := hp.reading
  unfold Reading at hreading
  cases Machine.step_ends hm with
  | exec hst he => exact h.exec hf hwell hm
  | call => cases hcall
  | leave => exact absurd rfl hleave
  | @events revents hst hnil =>
    simp only [Machine.arriving, List.append_nil] at hwell ⊢
    exact ⟨hreaches, h.isOpen, h.registered, handlers_of_faultless hf, h.hasState, h.stack, hwell,
      answered, left, ahead, hp.reading, hp.stream, hp.world, hp.output⟩
  | @dispatch e es hst hes =>
    simp only [Machine.arriving, List.append_nil] at hwell ⊢
    have hstage := h.idle_of_nil hst
    have he := h.handlers
    rw [hes] at he
    obtain ⟨hhead, htail⟩ := List.forall_mem_cons.mp he
    refine ⟨hreaches, h.isOpen, h.registered, htail, h.hasState, ?_, hwell, answered, left, ahead, ?_,
      hp.stream, hp.world, ?_⟩
    · rw [hstage]
      exact ⟨[.handler e, .ret], .task ⟨rfl, hhead⟩, rfl⟩
    · unfold Reading
      simp only [hstage] at hreading ⊢
      obtain ⟨hahead, hphase, hreads, hdeliver⟩ := hreading
      refine ⟨hahead, hphase, hreads, .inr (hdeliver.resolve_left ?_)⟩
      rw [hst]
      rintro (hd | hd) <;> cases hd
    · have hold := hp.output
      rw [hst] at hold
      exact hold
  | @ret rest hst =>
    simp only [Machine.arriving, List.append_nil] at hwell ⊢
    obtain rfl := h.below_of_ret hst
    refine ⟨hreaches, h.isOpen, h.registered, h.handlers, h.hasState, ⟨[], .nil, rfl⟩, hwell,
      answered, left, ahead, ?_, hp.stream, hp.world, ?_⟩
    · unfold Reading
      cases hstage : c.stage with
      | idle =>
        simp only [hstage] at hreading ⊢
        obtain ⟨hahead, hphase, hreads, hdeliver⟩ := hreading
        refine ⟨hahead, hphase, hreads, .inr (hdeliver.resolve_left ?_)⟩
        rw [hst]
        rintro (hd | hd) <;> cases hd
      | receiving data =>
        simp only [hstage] at hreading ⊢
        obtain ⟨hahead, hphase, hreads, hdeliver⟩ := hreading
        refine ⟨hahead, hphase, hreads, .inr (hdeliver.resolve_left ?_)⟩
        rw [hst]
        exact nofun
      | running =>
        simp only [hstage] at hreading ⊢
        exact hreading
    · have hold := hp.output
      rw [hst] at hold
      exact hold

/-! ## The code goes on -/

/-- The only callback that runs is the message callback. -/
theorem Serving.stack_of_user {hL : L.Incremental} {c : PlainHttp P ω} {cb : Callback}
    {rest : List Task} (h : Serving hL handler highWaterMark w c)
    (hst : c.machine.stack = .user cb :: rest) : c.machine.stack = [.user .message, .ret] := by
  obtain ⟨frames, hframes, hstack⟩ := h.stack
  rw [hstack] at hst ⊢
  cases hframes with
  | nil =>
    cases hstage : c.stage with
    | idle => simp [hstage, HttpStage.below] at hst
    | receiving data => rfl
    | running => rfl
  | ret => cases hst
  | task ht =>
    obtain rfl := (List.cons.inj hst).1
    obtain ⟨hstage, rfl⟩ := ht
    rw [hstage]
    rfl

/-- `on_message` returns, with everything parsed that was received. -/
theorem Serving.leave {hL : L.Incremental} {c c' : PlainHttp P ω} {answered : List HttpRequest}
    {left : Bytes} (h : Serving hL handler highWaterMark w c)
    (hst : c.machine.stack = [.user .message, .ret]) (hp : c.Progress hL handler w answered left [])
    (hread : c.machine.session.conn.readBuffer.readable = []) (hphase : c.code.phase = .done)
    (hreads : (HttpContext.httpParser hL).Reads c.code.context left) (hs : c.leave = some c') :
    Serving hL handler highWaterMark w c' := by
  obtain ⟨m, hm, rfl⟩ := Option.map_eq_some_iff.mp hs
  have hreaches := h.reaches_tcp rfl (show Label.leave.Faultless from trivial) hm
  cases Machine.step_ends hm with
  | @leave cb rest hst' =>
    rw [hst] at hst'
    obtain rfl := (List.cons.inj hst').2
    refine ⟨hreaches, h.isOpen, h.registered, h.handlers, h.hasState, ⟨[.ret], .ret, rfl⟩,
      h.wellFormed, answered, left, [], ?_, hp.stream, hp.world, ?_⟩
    · exact ⟨hread.symm, hphase, hreads, .inr hread⟩
    · have hold := hp.output
      rw [hst] at hold
      exact hold

/-- `on_message` calls into the connection. -/
theorem Serving.call {hL : L.Incremental} {c : PlainHttp P ω} {r : Request} {m : Machine}
    (h : Serving hL handler highWaterMark w c) (hst : c.machine.stack = [.user .message, .ret])
    (hm : c.machine.step (.call r) = some m) :
    m = { c.machine with stack := [.request r, .ret, .user .message, .ret] } ∧
      (connection httpCallbacks highWaterMark).Reaches
        (fun m l => ErrorsQuiet m l ∧ l.FilesLongEnough) m := by
  have hlong : (Label.call r).FilesLongEnough := trivial
  refine ⟨?_, h.reaches.step ⟨fun _ => ?_, hlong⟩ hm⟩
  · cases Machine.step_ends hm with
    | call => rw [hst]
  · rw [hst]
    exact nofun

/-- `conn->receive()`. -/
theorem Serving.receive {hL : L.Incremental} {c c' : PlainHttp P ω}
    (h : Serving hL handler highWaterMark w c) (hst : c.machine.stack = [.user .message, .ret])
    (hstage : c.stage = .idle) (hs : c.onMessage L handler = some c') :
    Serving hL handler highWaterMark w c' := by
  obtain ⟨answered, left, ahead, hp⟩ := h.progress
  have hreading := hp.reading
  simp only [Reading, hstage] at hreading
  obtain ⟨rfl, hphase, hreads, -⟩ := hreading
  simp only [onMessage, hstage] at hs
  obtain ⟨m, hm, rfl⟩ := Option.map_eq_some_iff.mp hs
  obtain ⟨rfl, hreaches⟩ := h.call hst hm
  refine ⟨hreaches, h.isOpen, h.registered, h.handlers, h.hasState,
    ⟨[.request .receive, .ret], .task ⟨rfl, rfl⟩, rfl⟩, h.wellFormed, answered, left, _,
    ⟨rfl, hphase, hreads, .inl rfl⟩, hp.stream, hp.world, ?_⟩
  have hold := hp.output
  rw [hst] at hold
  exact hold

/-- The received data go to the loop. -/
theorem Serving.enter {hL : L.Incremental} {c c' : PlainHttp P ω} {data : Bytes}
    (h : Serving hL handler highWaterMark w c) (hst : c.machine.stack = [.user .message, .ret])
    (hstage : c.stage = .receiving data) (hs : c.onMessage L handler = some c') :
    Serving hL handler highWaterMark w c' := by
  obtain ⟨answered, left, ahead, hp⟩ := h.progress
  have hreading := hp.reading
  simp only [Reading, hstage] at hreading
  obtain ⟨rfl, hphase, hreads, hread⟩ := hreading
  have hread := hread.resolve_left (by rw [hst]; exact nofun)
  simp only [onMessage, hstage, h.hasState, reduceCtorEq, or_false] at hs
  split at hs
  · rename_i hdata
    rw [hdata] at hp
    exact h.leave hst hp hread hphase hreads hs
  · obtain rfl := Option.some.inj hs
    refine ⟨h.reaches, h.isOpen, h.registered, h.handlers, rfl, ⟨[], .nil, hst⟩,
      h.wellFormed, answered, left, ahead, ⟨hread, rfl, hreads⟩, hp.stream, hp.world, ?_⟩
    have hold := hp.output
    simp only [todo, hphase] at hold
    exact hold

/-- Code that went on without a call into the connection. -/
theorem Serving.code {hL : L.Incremental} {c : PlainHttp P ω} {code : OnMessage P ω Unit}
    (h : Serving hL handler highWaterMark w c) (answered : List HttpRequest) (left ahead : Bytes)
    (hp : Progress hL handler w { c with code := code } answered left ahead) :
    Serving hL handler highWaterMark w { c with code := code } :=
  ⟨h.reaches, h.isOpen, h.registered, h.handlers, h.hasState, h.stack, h.wellFormed,
    answered, left, ahead, hp⟩

/-- **One pass through the loop.** -/
theorem Serving.parseNext {hL : L.Incremental} {c : PlainHttp P ω} {rest : Bytes}
    (h : Serving hL handler highWaterMark w c) (hhandler : ∀ request w, KeepsOpen (handler request w).1)
    (hstage : c.stage = .running) (hphase : c.code.phase = .loop rest) (hrest : rest ≠ []) :
    Serving hL handler highWaterMark w { c with code := c.code.parseNext L handler plainReply rest } := by
  obtain ⟨answered, left, ahead, hp⟩ := h.progress
  have hreading := hp.reading
  simp only [Reading, hstage, hphase] at hreading
  obtain ⟨hread, rfl, hreads⟩ := hreading
  have hstream := hp.stream
  have hold := hp.output
  simp only [todo, hphase, List.append_nil] at hold
  cases hparse : c.code.context.parse L ahead with
  | mk context parsed =>
    obtain ⟨result, consumed⟩ := parsed
    have hfeed : (HttpContext.httpParser hL).feed c.code.context ahead =
        (context, HttpContext.verdictOf result consumed) := by
      show c.code.context.feed L ahead = _
      simp only [HttpContext.feed, hparse]
    cases result with
    | needMoreData =>
      obtain rfl := HttpContext.parse_needMoreData hL hreads.mid hrest hparse
      have hlen : ahead.length ≠ 0 := fun h0 => hrest (List.length_eq_zero_iff.mp h0)
      have hcode : c.code.parseNext L handler plainReply ahead =
          { c.code with context := context, phase := .loop [] } := by
        simp only [OnMessage.parseNext, hparse, if_neg hlen, List.drop_length]
      rw [hcode]
      refine h.code answered (left ++ ahead) [] ⟨?_, ?_, hp.world, ?_⟩
      · simp only [Reading, hstage]
        exact ⟨hread, trivial, hreads.more hrest hfeed⟩
      · rw [List.append_nil]
        exact hstream
      · simp only [todo, List.append_nil]
        exact hold
    | rejected =>
      have hsplit : (HttpSession.requests hL).split (left ++ ahead) = ([], none) :=
        hreads.failed hrest hfeed
      have hwell := h.wellFormed
      rw [hstream, hsplit] at hwell
      exact absurd rfl hwell
    | complete =>
      have hsplit : (HttpSession.requests hL).split (left ++ ahead) =
          (context.request :: ((HttpSession.requests hL).split (ahead.drop consumed)).1,
            ((HttpSession.requests hL).split (ahead.drop consumed)).2) := hreads.complete hfeed
      obtain ⟨r, hreply, hdeliver, hpayload⟩ :=
        (hhandler context.request c.code.world).sendHttpResponse
      have hcode : c.code.parseNext L handler plainReply ahead =
          { context := context
            world := (handler context.request c.code.world).2
            tls := c.code.tls
            log := c.code.log ++ [.dispatched context.request]
            phase := .reply [r] (some (ahead.drop consumed)) } := by
        simp only [OnMessage.parseNext, hparse, plainReply, hreply]
      rw [hcode]
      refine h.code (answered ++ [context.request]) [] (ahead.drop consumed) ⟨?_, ?_, ?_, ?_⟩
      · simp only [Reading, hstage]
        refine ⟨hread, trivial, trivial, ?_⟩
        intro r' hr'
        rwa [List.mem_singleton.mp hr']
      · rw [hstream, hsplit, List.nil_append, List.append_assoc, List.singleton_append]
      · rw [answers_append, ← hp.world]
      · simp only [todo, List.map_cons, List.map_nil, List.flatten_cons, List.flatten_nil,
          List.append_nil, hpayload]
        rw [answers_append, List.map_append, List.flatten_append, hold, ← hp.world, List.map_singleton,
          List.flatten_singleton]

/-- A response goes to the connection, which has no file pending. -/
theorem Serving.issue {hL : L.Incremental} {c : PlainHttp P ω} {r : Request} {todo : List Request}
    {rest : Option Bytes} {m : Machine} (h : Serving hL handler highWaterMark w c)
    (hst : c.machine.stack = [.user .message, .ret]) (hstage : c.stage = .running)
    (hphase : c.code.phase = .reply (r :: todo) rest)
    (hfile : c.machine.session.conn.pendingFile = none) (hm : c.machine.step (.call r) = some m) :
    Serving hL handler highWaterMark w
      { c with machine := m, code := { c.code with phase := .reply todo rest } } := by
  obtain ⟨answered, left, ahead, hp⟩ := h.progress
  have hreading := hp.reading
  simp only [Reading, hstage, hphase] at hreading
  obtain ⟨hread, hreading⟩ := hreading
  cases rest with
  | none => exact hreading.elim
  | some rest =>
    obtain ⟨rfl, rfl, hdeliver⟩ := hreading
    obtain ⟨hr, htodo⟩ := List.forall_mem_cons.mp hdeliver
    obtain ⟨rfl, hreaches⟩ := h.call hst hm
    refine ⟨hreaches, h.isOpen, h.registered, h.handlers, h.hasState, ?_, h.wellFormed,
      answered, [], ahead, ?_, hp.stream, hp.world, ?_⟩
    · rw [hstage]
      exact ⟨[.request r, .ret], .task ⟨hr, hfile⟩, rfl⟩
    · simp only [Reading, hstage]
      exact ⟨hread, trivial, trivial, htodo⟩
    · have hold := hp.output
      rw [hst] at hold
      simp only [PlainHttp.todo, hphase, List.map_cons, List.flatten_cons] at hold
      simpa [PlainHttp.todo, Task.payload] using hold

/-- The loop goes on to its next call. -/
theorem Serving.running {hL : L.Incremental} {c c' : PlainHttp P ω}
    (h : Serving hL handler highWaterMark w c) (hhandler : ∀ request w, KeepsOpen (handler request w).1)
    (hst : c.machine.stack = [.user .message, .ret]) (hstage : c.stage = .running)
    (hfile : c.NoFilePending .http) (hs : c.onMessage L handler = some c') :
    Serving hL handler highWaterMark w c' := by
  obtain ⟨machine, hasState, stage, code, received⟩ := c
  obtain rfl : stage = .running := hstage
  obtain rfl : hasState = true := h.hasState
  obtain ⟨answered, left, ahead, hp⟩ := h.progress
  obtain ⟨hread, hreading⟩ := hp.reading
  have hold := hp.output
  simp only [onMessage] at hs
  cases hphase : code.phase with
  | done =>
    simp only [hphase] at hreading hs
    obtain ⟨rfl, hreads⟩ := hreading
    rw [if_pos trivial] at hs
    exact h.leave hst hp hread hphase hreads hs
  | loop rest =>
    simp only [hphase] at hreading
    obtain ⟨rfl, hreads⟩ := hreading
    rw [if_neg (by rw [hphase]; exact HttpPhase.loop_ne_done _)] at hs
    simp only [OnMessage.advance, hphase] at hs
    split at hs
    · rename_i hrest
      obtain rfl := Option.some.inj hs
      subst hrest
      refine h.code answered left [] ⟨⟨hread, rfl, hreads⟩, hp.stream, hp.world, ?_⟩
      simpa only [todo, hphase] using hold
    · rename_i hrest
      obtain rfl := Option.some.inj hs
      exact h.parseNext hhandler rfl hphase hrest
  | reply todo rest =>
    rw [if_neg (by rw [hphase]; exact HttpPhase.reply_ne_done _ _)] at hs
    cases todo with
    | cons r todo =>
      simp only [NoFilePending, hphase] at hfile
      simp only [OnMessage.advance, hphase] at hs
      obtain ⟨m, hm, rfl⟩ := Option.map_eq_some_iff.mp hs
      exact h.issue hst rfl hphase hfile hm
    | nil =>
      cases rest with
      | none => simp only [hphase] at hreading
      | some rest =>
        simp only [hphase] at hreading
        obtain ⟨rfl, rfl, -⟩ := hreading
        simp only [OnMessage.advance, hphase, if_true] at hs
        obtain rfl := Option.some.inj hs
        refine h.code answered [] ahead ⟨⟨hread, rfl, ?_⟩, hp.stream, hp.world, ?_⟩
        · rw [HttpContext.reset_eq hL]
          exact .init
        · simpa only [PlainHttp.todo, hphase, List.map_nil, List.flatten_nil] using hold

/-- **Step lemma**: a step that issues no response behind a pending file keeps the invariant. -/
theorem Serving.step {hL : L.Incremental} {c c' : PlainHttp P ω} {l : HttpLabel}
    (h : Serving hL handler highWaterMark w c) (hhandler : ∀ request w, KeepsOpen (handler request w).1)
    (hf : Faultless l) (hwell : c.WellFormed L hL l) (hfile : c.NoFilePending l)
    (hs : c.step L handler l = some c') : Serving hL handler highWaterMark w c' := by
  cases l with
  | tcp l => exact h.tcp hf hwell hs
  | http =>
    simp only [PlainHttp.step] at hs
    split at hs
    · rename_i rest hst
      have hst := h.stack_of_user hst
      cases hstage : c.stage with
      | idle => exact h.receive hst hstage hs
      | receiving data => exact h.enter hst hstage hs
      | running => exact h.running hhandler hst hstage hfile hs
    · rename_i rest hst
      have hst' := h.stack_of_user hst
      rw [hst] at hst'
      cases hst'
    · cases hs

theorem Serving.init (hL : L.Incremental) :
    Serving hL handler highWaterMark w (plainHttp L handler highWaterMark w).init := by
  have hsplit : (HttpSession.requests hL).split [] = ([], some []) := Resumable.Reads.init.split
  refine ⟨.init, rfl, rfl, nofun, rfl, ⟨[], .nil, rfl⟩, ?_, [], [], [], ?_⟩
  · show ((HttpSession.requests hL).split []).2 ≠ none
    rw [hsplit]
    exact Option.some_ne_none _
  · refine ⟨⟨Buffer.readable_empty.symm, rfl, .init, .inr Buffer.readable_empty⟩, ?_, rfl, rfl⟩
    show (HttpSession.requests hL).split [] = _
    rw [List.append_nil, hsplit, List.nil_append]

/-- The socket has taken everything. -/
def Drained (c : PlainHttp P ω) : Prop :=
  c.machine.stack = [] ∧ c.machine.session.conn.writeBuffer.readable = [] ∧
    c.machine.session.conn.pendingFile = none

/-- **Pipelined responses come out whole and in order**, in every run in which no response is issued
while the file of an earlier one is pending: the connection stays open, and once the socket has
drained, its output is the responses to the requests received. -/
theorem pipelined_responses_whole (hL : L.Incremental)
    (hhandler : ∀ request w, KeepsOpen (handler request w).1) {c : PlainHttp P ω}
    (h : (plainHttp L handler highWaterMark w).Reaches
      (fun c l => Faultless l ∧ c.WellFormed L hL l ∧ c.NoFilePending l) c) :
    c.machine.session.conn.isClosed = false ∧ (c.Drained → c.machine.session.wire =
      ((answers handler w ((HttpSession.requests hL).split c.received).1).1.map
        HttpResponse.serialised).flatten) := by
  have hI : Serving hL handler highWaterMark w c := by
    refine h.invariant (.init hL) fun c l c' hI hg hs => ?_
    exact hI.step hhandler hg.1 hg.2.1 hg.2.2 hs
  refine ⟨hI.isOpen, ?_⟩
  rintro ⟨hst, hbuf, hfile⟩
  obtain ⟨answered, left, ahead, hp⟩ := hI.progress
  -- an empty stack: everything received is parsed, and every response passed on
  have hstage := hI.idle_of_nil hst
  have hreading := hp.reading
  simp only [Reading, hstage] at hreading
  obtain ⟨rfl, hphase, hreads, hdeliver⟩ := hreading
  have hread := hdeliver.resolve_left (by rw [hst]; rintro (hd | hd) <;> cases hd)
  have hanswered : ((HttpSession.requests hL).split c.received).1 = answered := by
    have hsplit : (HttpSession.requests hL).split left = ([], some left) := hreads.split
    rw [hp.stream, hread, List.append_nil, hsplit, List.append_nil]
  have hpassed : c.machine.session.passed =
      ((answers handler w answered).1.map HttpResponse.serialised).flatten := by
    have hold := hp.output
    simpa [hst, todo, hphase] using hold
  rw [hanswered, ← hpassed]
  -- and the pipe the connection stands for is empty
  obtain ⟨p, -, hab | hpipe⟩ := connection_refines_pipe.reaches hI.reaches
  · rcases hab with hc | hcl
    · rw [hI.isOpen] at hc
      cases hc
    · rw [hst] at hcl
      cases hcl
  · rw [← hpipe.delivered, ← hpipe.pushed, ← p.conserved, hpipe.queued, unsent_of_none hfile, hbuf,
      List.append_nil]

/-! ## Responses behind a file -/

instance (l : HttpLabel) : Decidable (Faultless l) :=
  match l with
  | .tcp l => inferInstanceAs (Decidable l.Faultless)
  | .http => inferInstanceAs (Decidable True)

instance (hL : L.Incremental) (c : PlainHttp P ω) (l : HttpLabel) : Decidable (c.WellFormed L hL l) :=
  match l with
  | .tcp l =>
    inferInstanceAs (Decidable (((HttpSession.requests hL).split
      (c.received ++ c.machine.arriving l)).2 ≠ none))
  | .http => inferInstanceAs (Decidable True)

instance (c : PlainHttp P ω) (l : HttpLabel) : Decidable (c.NoFilePending l) := by
  unfold NoFilePending
  split
  · split <;> infer_instance
  · infer_instance

/-- **A response behind a pending file is not sent**: the error path takes its place, and the
connection is as good as closed. -/
theorem response_behind_file_fails {m m' : Machine} {r : Request} {k : Syscalls} {rest : List Task}
    (hr : r.Deliverable) (hst : m.stack = .request r :: rest)
    (hfile : m.session.conn.pendingFile ≠ none) (hs : m.step (.exec k) = some m') :
    Abandoned m' ∧ m'.session.wire = m.session.wire := by
  obtain ⟨p, hp⟩ := Option.ne_none_iff_exists'.mp hfile
  have hpending : m.session.conn.hasPendingFile = true := hasPendingFile_of_some hp
  cases Machine.step_ends hs with
  | @exec _ t _ ts s hst' he =>
    rw [hst] at hst'
    obtain ⟨rfl, rfl⟩ := List.cons.inj hst'
    by_cases hopen : m.session.conn.isClosed = true
    · cases r with
      | send msg =>
        simp only [execTask, serve, sendInLoop, hopen, if_true] at he
        cases he
        exact ⟨.inl hopen, rfl⟩
      | sendFileWithHeader header file size offset =>
        simp only [execTask, serve, sendFileWithHeaderInLoop, hopen, if_true] at he
        cases he
        exact ⟨.inl hopen, rfl⟩
      | sendFile _ _ _ | forceClose | receive => exact hr.elim
    · cases r with
      | send msg =>
        simp only [execTask, serve, sendInLoop, hopen, hpending, if_true] at he
        cases he
        exact ⟨.inr .reporting, rfl⟩
      | sendFileWithHeader header file size offset =>
        simp only [execTask, serve, sendFileWithHeaderInLoop, sendInLoop, hopen, hpending, hr.1, hr.2,
          if_true, Bool.not_true, Bool.false_eq_true, if_false, ite_self] at he
        cases he
        exact ⟨.inr .reporting, rfl⟩
      | sendFile _ _ _ | forceClose | receive => exact hr.elim

/-- Three bytes of a file. -/
def fileResponse : HttpResponse := HttpResponse.setFileBody (some ⟨true, true, [1, 2, 3, 4]⟩) 3 1 {}

/-- The first answer from memory, the others from a file. -/
def okThenFile : HttpHandler Bool :=
  fun _ answered => (if answered then fileResponse else { body := .ofLiteral "ok" }, true)

/-- Two requests in one payload, up to the first response. -/
def twoRequests : List HttpLabel :=
  [.tcp (.events { epollin := true }), .tcp .dispatch,
    .tcp (.exec { read := .data ((HttpSession.getRequest ++ HttpSession.getRequest).map Prod.fst) }),
    .tcp (.exec {}), .http, .tcp (.exec {}), .tcp .ret, .http, .http]

/-- The first response goes out in part, the file behind it waits for `EPOLLOUT`. -/
def bothAnswered : List HttpLabel :=
  twoRequests ++
    [.http, .tcp (.exec { write := .accepted 5 }), .tcp .ret, .http, .http,
      .http, .tcp (.exec {}), .tcp .ret, .http, .http, .http, .tcp .ret,
      .tcp (.events { epollout := true }), .tcp .dispatch,
      .tcp (.exec { write := .accepted 73, sendfile := .accepted 3 }), .tcp (.exec {}),
      .tcp (.exec {}), .tcp .ret]

theorem pipelined_responses_whole_bothAnswered :
    let S := plainHttp (HttpSession.scripted HttpSession.getRequest) okThenFile 65536 false
    ∃ c ∈ S.run S.init bothAnswered, c.machine.session.conn.isClosed = false ∧
      c.machine.session.wire =
        (okThenFile HttpSession.getRoot false).1.serialised ++ fileResponse.serialised := by
  intro S
  have hg : S.Admits (fun c l => Faultless l ∧
      c.WellFormed _ HttpSession.complete_getRequest.incremental l ∧ c.NoFilePending l)
      S.init bothAnswered := by
    decide +kernel
  obtain ⟨c, hc, hdrained, hreceived⟩ : ∃ c ∈ S.run S.init bothAnswered,
      (c.machine.stack = [] ∧ c.machine.session.conn.writeBuffer.readable = [] ∧
        c.machine.session.conn.pendingFile = none) ∧
      ((HttpSession.requests HttpSession.complete_getRequest.incremental).split c.received).1 =
        [HttpSession.getRoot, HttpSession.getRoot] := by
    decide +kernel
  have hhandler : ∀ request w, KeepsOpen (okThenFile request w).1 := by
    intro request w
    cases w with
    | false => exact ⟨rfl, nofun⟩
    | true =>
      refine ⟨rfl, fun file hfile => ?_⟩
      obtain rfl := Option.some.inj hfile
      rfl
  obtain ⟨hopen, hwire⟩ := pipelined_responses_whole HttpSession.complete_getRequest.incremental
    hhandler (.of_run bothAnswered hc hg)
  refine ⟨c, hc, hopen, (hwire hdrained).trans ?_⟩
  rw [hreceived]
  simp [answers, okThenFile]

/-- Both answers come from a file: the second one closes the connection before a byte is sent. -/
def secondFails : List HttpLabel :=
  twoRequests ++
    [.http, .tcp (.exec {}), .tcp .ret, .http, .http,
      .http, .tcp (.exec {}), .tcp (.exec {}), .tcp (.exec {}), .tcp (.exec {}), .http, .tcp .ret,
      .http, .http, .tcp .ret]

/-- **Two pipelined requests for files close the connection**, on a network without faults. -/
theorem pipelined_files_close :
    let S := plainHttp (HttpSession.scripted HttpSession.getRequest) (fun _ w => (fileResponse, w)) 65536 ()
    ∃ c, S.Reaches (fun c l => Faultless l ∧
        c.WellFormed _ HttpSession.complete_getRequest.incremental l) c ∧
      ((HttpSession.requests HttpSession.complete_getRequest.incremental).split c.received).1 =
        [HttpSession.getRoot, HttpSession.getRoot] ∧
      c.machine.session.conn.isClosed = true ∧ c.machine.session.wire = [] := by
  intro S
  have hg : S.Admits (fun c l => Faultless l ∧
      c.WellFormed _ HttpSession.complete_getRequest.incremental l) S.init secondFails := by
    decide +kernel
  obtain ⟨c, hc, hreceived, hclosed, hwire⟩ : ∃ c ∈ S.run S.init secondFails,
      ((HttpSession.requests HttpSession.complete_getRequest.incremental).split c.received).1 =
        [HttpSession.getRoot, HttpSession.getRoot] ∧
      c.machine.session.conn.isClosed = true ∧ c.machine.session.wire = [] := by
    decide +kernel
  exact ⟨c, .of_run secondFails hc hg, hreceived, hclosed, hwire⟩

end PlainHttp

end Tudou
