import Tudou.Rpc.CallProgress
import Tudou.Rpc.Completion
import Tudou.Rpc.ServerHistory

/-!
# A channel and a server over one connection

`BinaryRpcChannel` in thread mode and `BinaryRpcServer`, joined by the two byte streams of a TCP
connection.  The callers' `write` loops, the receiver thread, the server's loop and the network take
their steps in any order, and the network cuts both streams anywhere.

* `BinaryRpcLink` — both ends and what is on its way; `LinkLabel` — one step of one party.
* `Orderly` — no frame is started behind one that broke off half-way, and the server does not read a
  connection it has closed.
* `Sound` — the invariant: what each side has read is a prefix of what the other wrote.
* `answers_own_request` — **a response completes the call whose request the server answered with it**.
* `requests_served_once` — **the server serves requests in the order they were sent, each at most once**.
-/

namespace Tudou

open Framing Transition

/-! ## The model -/

/-- What the calls of a client ask for, and what Protobuf makes of it. -/
structure RpcClient where
  serializeMeta : RpcMeta → Bytes
  /-- Method and serialised request of call `c`. -/
  asks : Nat → RpcMeta × Bytes
  /-- `ParseFromString` of the response of call `c`. -/
  parses : Nat → Bytes → Bool

namespace RpcClient

/-- What call `c` asks for, under its sequence id. -/
def ask (cl : RpcClient) (seq : UInt64) (c : Nat) : RpcCall := ⟨seq, (cl.asks c).1, (cl.asks c).2⟩

/-- `encode_request`. -/
def encodeRequest (cl : RpcClient) (call : RpcCall) : Bytes :=
  (BinaryRpcCodec.encode .empty .request call.sequenceId (cl.serializeMeta call.info)
    call.body).readAllFromBuffer.1

/-- The frames of `calls`, one after the other. -/
def stream (cl : RpcClient) (calls : List RpcCall) : Bytes := (calls.map cl.encodeRequest).flatten

/-- The server reads what the client serialises. -/
def Understood (cl : RpcClient) (env : RpcServices) : Prop :=
  ∀ seq c, Encodable cl.serializeMeta env ⟨.request, cl.ask seq c⟩

end RpcClient

structure BinaryRpcLink where
  client : BinaryRpcChannel
  server : BinaryRpcServer
  /-- The call that holds `sendMutex_`. -/
  writing : Option Nat
  /-- What its `write` loop has not written. -/
  unsent : Bytes
  /-- Calls whose frame is on the stream, in order, with what they ask for. -/
  started : List (Nat × RpcCall)
  /-- Request bytes on their way. -/
  toServer : Bytes
  /-- Request bytes the server has read. -/
  delivered : Bytes
  /-- Response bytes the client has read. -/
  received : Bytes
  /-- `readBuf` of `receive_loop`. -/
  readBuf : Bytes

inductive LinkLabel where
  /-- A step of the channel without socket or `readBuf`. -/
  | client (l : ChannelLabel)
  /-- Call `c` takes `sendMutex_` and enters its `write` loop. -/
  | lock (c : Nat)
  /-- `write` accepts `n` bytes. -/
  | write (n : Nat)
  | sent
  | writeFails
  /-- The server reads `n` bytes; `answers` is what its services do. -/
  | deliver (n : Nat) (answers : Nat → Answer)
  /-- Any other step of the server. -/
  | server (l : RpcServerLabel)
  /-- `receive_loop` reads `n` bytes. -/
  | read (n : Nat)
  | decode

/-- Steps of the channel that touch neither the socket nor `readBuf`. -/
def ChannelLabel.isLocal : ChannelLabel → Bool
  | .caller _ (.send _) => false
  | .receiver .readData | .receiver (.frame _ _) | .receiver .halfPack | .receiver .badFrame => false
  | _ => true

namespace BinaryRpcLink

section Model

variable (cl : RpcClient) (env : RpcServices) (a : Nat)

/-- A step of the channel. -/
def clientStep (s : BinaryRpcLink) (l : ChannelLabel) : Option BinaryRpcLink :=
  (s.client.step .thread cl.parses l).map fun client => { s with client := client }

/-- A step of the server. -/
def serverStep (s : BinaryRpcLink) (l : RpcServerLabel) : Option BinaryRpcLink :=
  (s.server.step env l).map fun server => { s with server := server }

/-- The next `n` response bytes the client has not read. -/
def nextResponseBytes (s : BinaryRpcLink) (n : Nat) : Bytes :=
  ((s.server.outputOf a).flatten.drop s.received.length).take n

def step (s : BinaryRpcLink) : LinkLabel → Option BinaryRpcLink
  | .client l => if l.isLocal then s.clientStep cl l else none
  | .lock c =>
    match s.writing, s.client.calls[c]? with
    | none, some call =>
      if call.pc = .encoded then
        some { s with
          writing := some c
          unsent := cl.encodeRequest (cl.ask call.seq c)
          started := s.started ++ [(c, cl.ask call.seq c)] }
      else none
    | _, _ => none
  | .write n =>
    if s.writing ≠ none ∧ 0 < n ∧ n ≤ s.unsent.length then
      some { s with unsent := s.unsent.drop n, toServer := s.toServer ++ s.unsent.take n }
    else none
  | .sent =>
    match s.writing with
    | none => none
    | some c =>
      if s.unsent = [] then
        { s with writing := none }.clientStep cl (.caller c (.send true))
      else none
  | .writeFails =>
    match s.writing, s.started.getLast? with
    | some c, some last =>
      if s.unsent = [] then none
      else if s.unsent = cl.encodeRequest last.2 then
        -- nothing of the frame went out
        { s with writing := none, unsent := [], started := s.started.dropLast }.clientStep cl
          (.caller c (.send false))
      else { s with writing := none }.clientStep cl (.caller c (.send false))
    | _, _ => none
  | .deliver n answers =>
    if 0 < n ∧ n ≤ s.toServer.length then
      { s with
        delivered := s.delivered ++ s.toServer.take n
        toServer := s.toServer.drop n }.serverStep env (.message a (s.toServer.take n) answers)
    else none
  | .server l => if BinaryRpcServer.deliversTo a l then none else s.serverStep env l
  | .read n =>
    if s.nextResponseBytes a n = [] then none
    else
      { s with
        received := s.received ++ s.nextResponseBytes a n
        readBuf := s.readBuf ++ s.nextResponseBytes a n }.clientStep cl (.receiver .readData)
  | .decode =>
    match scanFrame s.readBuf with
    | .message f rest =>
      { s with readBuf := rest }.clientStep cl (.receiver (.frame f.header.sequenceId f.bodyBytes))
    | .more => s.clientStep cl (.receiver .halfPack)
    | .corrupt => s.clientStep cl (.receiver .badFrame)

/-- A new channel on a connection `server` has just accepted. -/
def connected (server : BinaryRpcServer) : BinaryRpcLink where
  client := .create
  server := server
  writing := none
  unsent := []
  started := []
  toServer := []
  delivered := []
  received := []
  readBuf := []

def system (server : BinaryRpcServer) : System BinaryRpcLink LinkLabel :=
  ⟨connected server, step cl env a⟩

/-- No frame is started while one is on the stream in part; the server reads open connections only and
does not accept another one at `a`; and sequence ids do not come round again. -/
def Orderly (s : BinaryRpcLink) : LinkLabel → Prop
  | .lock _ => s.unsent = []
  | .deliver _ _ => BinaryRpcServer.OpenAt a s.server
  | .server (.lifecycle (.connect b)) => b ≠ a
  | .client (.call _) => s.client.calls.length + 1 < 2 ^ 64
  | _ => True

end Model

end BinaryRpcLink

/-- The connection at `a` is open and has brought nothing yet. -/
structure BinaryRpcServer.Accepted (env : RpcServices) (a : Nat) (s : BinaryRpcServer) : Prop where
  reachable : (system env).Reachable s
  isOpen : OpenAt a s
  nothingCached : (s.connectionBuffers.entries a).getD [] = []
  noRequests : ∀ q ∈ s.requests, q.conn ≠ a

/-! ## The request stream -/

namespace RpcClient

theorem encodeRequest_eq (cl : RpcClient) (call : RpcCall) :
    cl.encodeRequest call =
      (RpcFrame.of .request call.sequenceId (cl.serializeMeta call.info) call.body).bytes := by
  rw [encodeRequest, Buffer.readAllFromBuffer_fst, BinaryRpcCodec.readable_encode, Buffer.readable_empty,
    List.nil_append]

theorem stream_append (cl : RpcClient) (calls calls' : List RpcCall) :
    cl.stream (calls ++ calls') = cl.stream calls ++ cl.stream calls' := by
  rw [stream, List.map_append, List.flatten_append]
  rfl

theorem stream_singleton (cl : RpcClient) (call : RpcCall) : cl.stream [call] = cl.encodeRequest call := by
  simp [stream]

/-- **The server takes the calls off the stream again**, in order and with nothing left over. -/
theorem split_stream {cl : RpcClient} {env : RpcServices} (hu : cl.Understood env) {calls : List RpcCall}
    (hcalls : ∀ call ∈ calls, ∃ seq c, call = cl.ask seq c) :
    (requestFrames env).split (cl.stream calls) = (calls, some []) := by
  have hwire : cl.stream calls =
      wireBytes cl.serializeMeta (calls.map fun call => ⟨.request, call⟩) := by
    rw [wireBytes_eq, stream, List.map_map, List.map_map]
    exact congrArg List.flatten (List.map_congr_left fun call _ => cl.encodeRequest_eq call)
  have hencodable : ∀ f ∈ calls.map (fun call => (⟨.request, call⟩ : OutgoingFrame)),
      Encodable cl.serializeMeta env f := by
    intro f hf
    obtain ⟨call, hcall, rfl⟩ := List.mem_map.mp hf
    obtain ⟨seq, c, rfl⟩ := hcalls call hcall
    exact hu seq c
  -- the empty tail is less than any frame
  have hne : ([] : Bytes) ≠ wireBytes cl.serializeMeta [⟨.request, cl.ask 0 0⟩] := by
    rw [wireBytes_eq, List.map_singleton, List.map_singleton, List.flatten_singleton]
    intro h
    have hlen := congrArg List.length h
    rw [RpcFrame.length_bytes, List.length_nil, kRpcHeaderSize] at hlen
    omega
  have hsplit := split_wireBytes hencodable (hu 0 0) (List.nil_prefix) hne
  rw [List.append_nil, ← hwire, List.map_map] at hsplit
  simpa [Function.comp_def] using hsplit

end RpcClient

namespace BinaryRpcLink

open BinaryRpcServer (OpenAt Received Accepted)

/-- The calls whose requests went out, and the stream they make. -/
structure Requests (cl : RpcClient) (s : BinaryRpcLink) : Prop where
  client : (BinaryRpcChannel.system .thread cl.parses).Reachable s.client
  few : s.client.calls.length < 2 ^ 64
  started : ∀ p ∈ s.started, ∃ call, s.client.calls[p.1]? = some call ∧ p.2 = cl.ask call.seq p.1 ∧
    (s.writing = some p.1 ∨ 3 ≤ call.pc.stage)
  distinct : (s.started.map Prod.fst).Nodup
  /-- The writer is at the end of the stream. -/
  writing : ∀ c, s.writing = some c → ∃ call before, s.client.calls[c]? = some call ∧
    call.pc = .encoded ∧ s.started = before ++ [(c, cl.ask call.seq c)]
  stream : s.delivered ++ (s.toServer ++ s.unsent) = cl.stream (s.started.map Prod.snd)

/-- What the server has read, served and cached. -/
structure Serving (env : RpcServices) (a : Nat) (s : BinaryRpcLink) : Prop where
  server : (BinaryRpcServer.system env).Reachable s.server
  handed : s.server.handed a = ((requestFrames env).split s.delivered).1
  receiving : OpenAt a s.server → Received env a [] s.delivered s.server

/-- What the client has read, decoded and kept. -/
structure Reading (a : Nat) (s : BinaryRpcLink) : Prop where
  received : s.received <+: (s.server.outputOf a).flatten
  decoded : ∃ fs : List RpcFrame, (∀ f ∈ fs, f.WellFormed) ∧
    s.received = (fs.map RpcFrame.bytes).flatten ++ s.readBuf ∧
    s.client.frames = fs.map fun f => (f.header.sequenceId, f.bodyBytes)

/-- **What each side has read is a prefix of what the other wrote.** -/
structure Sound (cl : RpcClient) (env : RpcServices) (a : Nat) (s : BinaryRpcLink) : Prop where
  requests : Requests cl s
  serving : Serving env a s
  reading : Reading a s

variable {cl : RpcClient} {env : RpcServices} {a : Nat} {s s' : BinaryRpcLink}

/-! ### Steps of the client -/

theorem clientStep_some {l : ChannelLabel} (h : s.clientStep cl l = some s') :
    ∃ client, s.client.step .thread cl.parses l = some client ∧ s' = { s with client := client } := by
  obtain ⟨client, hclient, rfl⟩ := Option.map_eq_some_iff.mp h
  exact ⟨client, hclient, rfl⟩

/-- A step of the channel that is no write. -/
theorem Requests.client_step (h : Requests cl s) {l : ChannelLabel} {client : BinaryRpcChannel}
    (hs : s.client.step .thread cl.parses l = some client) (hl : ∀ c ok, l ≠ .caller c (.send ok))
    (hfew : client.calls.length < 2 ^ 64) : Requests cl { s with client := client } where
  client := h.client.step trivial hs
  few := hfew
  started := by
    intro p hp
    obtain ⟨call, hcall, hask, hstage⟩ := h.started p hp
    obtain ⟨call', hcall', hlater, -⟩ := BinaryRpcChannel.step_call hs hcall
    refine ⟨call', hcall', by rw [hlater.seq, hask], hstage.imp_right fun h3 => ?_⟩
    have hle := hlater.stage_le
    omega
  distinct := h.distinct
  writing := by
    intro c hc
    obtain ⟨call, before, hcall, hpc, hstarted⟩ := h.writing c hc
    obtain ⟨call', hcall', -, rfl | ⟨hwaiting, -⟩ | ⟨l', rfl, hsend⟩⟩ :=
      BinaryRpcChannel.step_call hs hcall
    · exact ⟨call', before, hcall', hpc, hstarted⟩
    · rw [hpc] at hwaiting
      cases hwaiting
    · obtain ⟨ok, rfl⟩ := hsend hpc
      exact absurd rfl (hl c ok)
  stream := h.stream

/-- The holder of `sendMutex_` leaves its `write` loop. -/
theorem Requests.leave (h : Requests cl s) {c : Nat} {ok : Bool} {client : BinaryRpcChannel}
    (hc : s.writing = some c) (hs : s.client.step .thread cl.parses (.caller c (.send ok)) = some client) :
    Requests cl { s with writing := none, client := client } where
  client := h.client.step (a := .caller c (.send ok)) trivial hs
  few := by
    rcases BinaryRpcChannel.step_length hs with ⟨hlen, -⟩ | ⟨_, hl, -⟩
    · rw [hlen]
      exact h.few
    · cases hl
  started := by
    intro p hp
    obtain ⟨call, hcall, hask, hstage⟩ := h.started p hp
    obtain ⟨call', hcall', hlater, -⟩ := BinaryRpcChannel.step_call hs hcall
    refine ⟨call', hcall', by rw [hlater.seq, hask], .inr ?_⟩
    have hle := hlater.stage_le
    rcases hstage with hwriting | h3
    · obtain rfl : c = p.1 := Option.some.inj (hc.symm.trans hwriting)
      obtain ⟨call'', hcall'', h3⟩ := BinaryRpcChannel.step_send hs
      cases hcall'.symm.trans hcall''
      exact h3
    · omega
  distinct := h.distinct
  writing := fun c hc => by cases hc
  stream := h.stream

/-- Nothing of the last frame went out. -/
theorem Requests.withdraw (h : Requests cl s) (hw : s.writing = none) {last : Nat × RpcCall}
    (hlast : s.started.getLast? = some last) (hunsent : s.unsent = cl.encodeRequest last.2) :
    Requests cl { s with unsent := [], started := s.started.dropLast } where
  client := h.client
  few := h.few
  started := fun p hp => h.started p (List.dropLast_subset s.started hp)
  distinct := by
    have hsub : (s.started.dropLast.map Prod.fst).Sublist (s.started.map Prod.fst) :=
      (List.dropLast_sublist s.started).map Prod.fst
    exact h.distinct.sublist hsub
  writing := by
    intro c hc
    rw [hw] at hc
    cases hc
  stream := by
    have hstarted : s.started = s.started.dropLast ++ [last] :=
      (List.dropLast_append_getLast? last hlast).symm
    have hstream := h.stream
    rw [hstarted, List.map_append, List.map_singleton, RpcClient.stream_append, RpcClient.stream_singleton,
      hunsent, ← List.append_assoc] at hstream
    simpa using List.append_cancel_right hstream

/-- A call enters its `write` loop behind a whole stream. -/
theorem Requests.enter (h : Requests cl s) {c : Nat} {call : Call} (hw : s.writing = none)
    (hunsent : s.unsent = []) (hcall : s.client.calls[c]? = some call) (hpc : call.pc = .encoded) :
    Requests cl { s with
      writing := some c
      unsent := cl.encodeRequest (cl.ask call.seq c)
      started := s.started ++ [(c, cl.ask call.seq c)] } where
  client := h.client
  few := h.few
  started := by
    intro p hp
    rcases List.mem_append.mp hp with hp | hp
    · obtain ⟨call', hcall', hask, hstage⟩ := h.started p hp
      refine ⟨call', hcall', hask, .inr ?_⟩
      rcases hstage with hwriting | h3
      · rw [hw] at hwriting
        cases hwriting
      · exact h3
    · rw [List.mem_singleton.mp hp]
      exact ⟨call, hcall, rfl, .inl rfl⟩
  distinct := by
    rw [List.map_append, List.map_singleton, List.nodup_append]
    refine ⟨h.distinct, List.nodup_singleton _, ?_⟩
    intro d hd d' hd'
    obtain ⟨p, hp, rfl⟩ := List.mem_map.mp hd
    rw [List.mem_singleton.mp hd']
    rintro rfl
    -- a call that was on the stream is past its encoded frame
    obtain ⟨call', hcall', -, hstage⟩ := h.started p hp
    cases hcall.symm.trans hcall'
    rcases hstage with hwriting | h3
    · rw [hw] at hwriting
      cases hwriting
    · rw [hpc] at h3
      simp [CallPc.stage] at h3
  writing := by
    intro d hd
    cases hd
    exact ⟨call, s.started, hcall, hpc, rfl⟩
  stream := by
    have hstream := h.stream
    rw [hunsent, List.append_nil] at hstream
    rw [List.map_append, List.map_singleton, RpcClient.stream_append, RpcClient.stream_singleton, ← hstream,
      List.append_assoc]

/-- Bytes move from the writer to the network, or from there to the server. -/
theorem Requests.move (h : Requests cl s) {server : BinaryRpcServer} {delivered toServer unsent : Bytes}
    (hsame : delivered ++ (toServer ++ unsent) = s.delivered ++ (s.toServer ++ s.unsent)) :
    Requests cl { s with
      server := server, delivered := delivered, toServer := toServer, unsent := unsent } where
  client := h.client
  few := h.few
  started := h.started
  distinct := h.distinct
  writing := h.writing
  stream := hsame.trans h.stream

/-! ### Steps of the server -/

theorem serverStep_some {l : RpcServerLabel} (h : s.serverStep env l = some s') :
    ∃ server, s.server.step env l = some server ∧ s' = { s with server := server } := by
  obtain ⟨server, hserver, rfl⟩ := Option.map_eq_some_iff.mp h
  exact ⟨server, hserver, rfl⟩

/-- The server reads its connection. -/
theorem Serving.deliver (h : Serving env a s) (hopen : OpenAt a s.server) {data : Bytes}
    {answers : Nat → Answer} {server : BinaryRpcServer} {toServer : Bytes}
    (hs : s.server.step env (.message a data answers) = some server) :
    Serving env a { s with
      delivered := s.delivered ++ data, toServer := toServer, server := server } where
  server := h.server.step (a := .message a data answers) trivial hs
  handed := by
    rcases BinaryRpcServer.step_cases hs with ⟨_, _, _, hl, rfl⟩ | ⟨_, _, _, _, hl, -⟩ | ⟨_, _, hl, -⟩
    · cases hl
      exact BinaryRpcServer.handed_onMessage (h.receiving hopen) data answers
    · cases hl
    · cases hl
  receiving := by
    intro hopen'
    have hreceived := (h.receiving hopen).step hs hopen hopen'
    simpa only [BinaryRpcServer.bytesTo, if_true] using hreceived

/-- The server does anything else. -/
theorem Serving.elsewhere (h : Serving env a s) {l : RpcServerLabel} {server : BinaryRpcServer}
    (hl : BinaryRpcServer.deliversTo a l = false) (hconnect : l ≠ .lifecycle (.connect a))
    (hs : s.server.step env l = some server) : Serving env a { s with server := server } where
  server := h.server.step (a := l) trivial hs
  handed := (BinaryRpcServer.handed_step hs hl).trans h.handed
  receiving := by
    intro hopen'
    have hopen := BinaryRpcServer.openAt_of_step hs hconnect hopen'
    have hreceived := (h.receiving hopen).step hs hopen hopen'
    have hnone : BinaryRpcServer.bytesTo a l = [] := by
      cases l with
      | message b data answers =>
        have hne : b ≠ a := by simpa [BinaryRpcServer.deliversTo] using hl
        simp only [BinaryRpcServer.bytesTo, if_neg hne]
      | lifecycle c => rfl
      | runDone i response closes => rfl
    rwa [hnone, List.append_nil] at hreceived

/-- The server writes more. -/
theorem Reading.server_step (h : Reading a s) (hserver : (BinaryRpcServer.system env).Reachable s.server)
    {l : RpcServerLabel} {server : BinaryRpcServer} (hs : s.server.step env l = some server)
    {delivered toServer : Bytes} :
    Reading a { s with delivered := delivered, toServer := toServer, server := server } where
  received := by
    obtain ⟨more, hmore⟩ := (BinaryRpcServer.Adds.step hs).outputOf
      (BinaryRpcServer.ledger_of_reachable hserver) a
    refine h.received.trans ?_
    show (s.server.outputOf a).flatten <+: (server.outputOf a).flatten
    rw [← hmore, List.flatten_append]
    exact List.prefix_append _ _
  decoded := h.decoded

/-! ### What the client reads -/

/-- Steps of the client that decode nothing. -/
theorem Reading.client_step (h : Reading a s) {client : BinaryRpcChannel}
    (hframes : client.frames = s.client.frames) {writing : Option Nat} {unsent : Bytes}
    {started : List (Nat × RpcCall)} :
    Reading a { s with writing := writing, unsent := unsent, started := started, client := client } where
  received := h.received
  decoded := by
    obtain ⟨fs, hwf, hreceived, hdecoded⟩ := h.decoded
    exact ⟨fs, hwf, hreceived, hframes.trans hdecoded⟩

/-- `receive_loop` reads. -/
theorem Reading.read (h : Reading a s) (n : Nat) {client : BinaryRpcChannel}
    (hframes : client.frames = s.client.frames) :
    Reading a { s with
      received := s.received ++ s.nextResponseBytes a n
      readBuf := s.readBuf ++ s.nextResponseBytes a n
      client := client } where
  received := by
    obtain ⟨later, hlater⟩ := h.received
    refine ⟨later.drop n, ?_⟩
    have hnext : s.nextResponseBytes a n = later.take n := by
      rw [nextResponseBytes, ← hlater, List.drop_left]
    show s.received ++ s.nextResponseBytes a n ++ later.drop n = (s.server.outputOf a).flatten
    rw [hnext, List.append_assoc, List.take_append_drop, hlater]
  decoded := by
    obtain ⟨fs, hwf, hreceived, hdecoded⟩ := h.decoded
    refine ⟨fs, hwf, ?_, hframes.trans hdecoded⟩
    show s.received ++ s.nextResponseBytes a n = _
    rw [hreceived, List.append_assoc]

/-- `receive_loop` takes a frame off `readBuf`. -/
theorem Reading.frame (h : Reading a s) {f : RpcFrame} {rest : Bytes}
    (hscan : scanFrame s.readBuf = .message f rest) {client : BinaryRpcChannel}
    (hframes : client.frames = s.client.frames ++ [(f.header.sequenceId, f.bodyBytes)]) :
    Reading a { s with readBuf := rest, client := client } where
  received := h.received
  decoded := by
    obtain ⟨fs, hwf, hreceived, hdecoded⟩ := h.decoded
    obtain ⟨hf, hbuf⟩ := scanFrame_eq_message.mp hscan
    refine ⟨fs ++ [f], ?_, ?_, ?_⟩
    · intro g hg
      rcases List.mem_append.mp hg with hg | hg
      · exact hwf g hg
      · rw [List.mem_singleton.mp hg]
        exact hf
    · show s.received = _
      rw [hreceived, hbuf]
      simp
    · show client.frames = _
      rw [hframes, hdecoded]
      simp

/-- A decoded frame is added to the frames. -/
theorem frames_of_frame {c c' : BinaryRpcChannel} {parses : Nat → Bytes → Bool} {seq : UInt64}
    {body : Bytes} (hs : c.step .thread parses (.receiver (.frame seq body)) = some c') :
    c'.frames = c.frames ++ [(seq, body)] := by
  simp only [BinaryRpcChannel.step] at hs
  split at hs
  · cases hs
  · simp only [BinaryRpcChannel.receiverStep] at hs
    split at hs
    · cases hs
      rfl
    · cases hs

/-! ### Every step -/

/-- Steps that make no call leave the number of calls as it is. -/
theorem few_of_step {c c' : BinaryRpcChannel} {parses : Nat → Bytes → Bool} {l : ChannelLabel}
    (hs : c.step .thread parses l = some c') (hfew : c.calls.length < 2 ^ 64)
    (hcall : ∀ coroutine, l = .call coroutine → c.calls.length + 1 < 2 ^ 64) :
    c'.calls.length < 2 ^ 64 := by
  rcases BinaryRpcChannel.step_length hs with ⟨hlen, -⟩ | ⟨coroutine, hl, -, hcalls⟩
  · rwa [hlen]
  · rw [hcalls, List.length_append, List.length_singleton]
    exact hcall coroutine hl

/-- A step of the receiver. -/
theorem Requests.receiver_step (h : Requests cl s) {l : ReceiverLabel} {client : BinaryRpcChannel}
    (hs : s.client.step .thread cl.parses (.receiver l) = some client) :
    Requests cl { s with client := client } :=
  h.client_step hs (fun _ _ hl => by cases hl) (few_of_step hs h.few fun _ hl => by cases hl)

/-- The receiver touches no stream of requests. -/
theorem Requests.congr_readBuf (h : Requests cl s) {received readBuf : Bytes} :
    Requests cl { s with received := received, readBuf := readBuf } :=
  ⟨h.client, h.few, h.started, h.distinct, h.writing, h.stream⟩

/-- The parts of the invariant about the server see no step of the client. -/
theorem Serving.congr (h : Serving env a s) (hserver : s'.server = s.server)
    (hdelivered : s'.delivered = s.delivered) : Serving env a s' where
  server := by rw [hserver]; exact h.server
  handed := by rw [hserver, hdelivered]; exact h.handed
  receiving := by rw [hserver, hdelivered]; exact h.receiving

/-- **Every orderly step keeps the invariant.** -/
theorem Sound.step {l : LinkLabel} (h : Sound cl env a s) (hg : Orderly a s l)
    (hs : BinaryRpcLink.step cl env a s l = some s') : Sound cl env a s' := by
  cases l with
  | client l =>
    simp only [BinaryRpcLink.step] at hs
    split at hs
    · rename_i hlocal
      obtain ⟨client, hclient, rfl⟩ := clientStep_some hs
      have hsend : ∀ c ok, l ≠ .caller c (.send ok) := by
        rintro c ok rfl
        cases hlocal
      have hframe : ∀ seq body, l ≠ .receiver (.frame seq body) := by
        rintro seq body rfl
        cases hlocal
      have hfew := few_of_step hclient h.requests.few (by rintro coroutine rfl; exact hg)
      exact ⟨h.requests.client_step hclient hsend hfew, h.serving.congr rfl rfl,
        h.reading.client_step (BinaryRpcChannel.step_frames hclient hframe)⟩
    · cases hs
  | lock c =>
    simp only [BinaryRpcLink.step] at hs
    split at hs
    · rename_i call hw hcall
      split at hs
      · rename_i hpc
        cases hs
        exact ⟨h.requests.enter hw hg hcall hpc, h.serving.congr rfl rfl, h.reading.client_step rfl⟩
      · cases hs
    · cases hs
  | write n =>
    simp only [BinaryRpcLink.step] at hs
    split at hs
    · cases hs
      refine ⟨h.requests.move ?_, h.serving.congr rfl rfl, ⟨h.reading.received, h.reading.decoded⟩⟩
      rw [List.append_assoc, List.take_append_drop]
    · cases hs
  | sent =>
    simp only [BinaryRpcLink.step] at hs
    split at hs
    · cases hs
    · rename_i c hc
      split at hs
      · obtain ⟨client, hclient, rfl⟩ := clientStep_some hs
        exact ⟨h.requests.leave hc hclient, h.serving.congr rfl rfl,
          h.reading.client_step (BinaryRpcChannel.step_frames hclient fun _ _ hl => by cases hl)⟩
      · cases hs
  | writeFails =>
    simp only [BinaryRpcLink.step] at hs
    split at hs
    · rename_i c last hc hlast
      split at hs
      · cases hs
      · split at hs
        · rename_i hunsent
          obtain ⟨client, hclient, rfl⟩ := clientStep_some hs
          exact ⟨(h.requests.leave hc hclient).withdraw rfl hlast hunsent, h.serving.congr rfl rfl,
            h.reading.client_step (BinaryRpcChannel.step_frames hclient fun _ _ hl => by cases hl)⟩
        · obtain ⟨client, hclient, rfl⟩ := clientStep_some hs
          exact ⟨h.requests.leave hc hclient, h.serving.congr rfl rfl,
            h.reading.client_step (BinaryRpcChannel.step_frames hclient fun _ _ hl => by cases hl)⟩
    · cases hs
  | deliver n answers =>
    simp only [BinaryRpcLink.step] at hs
    split at hs
    · obtain ⟨server, hserver, rfl⟩ := serverStep_some hs
      refine ⟨h.requests.move ?_, h.serving.deliver hg hserver,
        h.reading.server_step h.serving.server hserver⟩
      rw [List.append_assoc, ← List.append_assoc (s.toServer.take n), List.take_append_drop]
    · cases hs
  | server l =>
    simp only [BinaryRpcLink.step] at hs
    split at hs
    · cases hs
    · rename_i hl
      obtain ⟨server, hserver, rfl⟩ := serverStep_some hs
      have hconnect : l ≠ .lifecycle (.connect a) := by
        rintro rfl
        exact hg rfl
      exact ⟨h.requests.move rfl, h.serving.elsewhere (Bool.eq_false_iff.mpr hl) hconnect hserver,
        h.reading.server_step h.serving.server hserver⟩
  | read n =>
    simp only [BinaryRpcLink.step] at hs
    split at hs
    · cases hs
    · obtain ⟨client, hclient, rfl⟩ := clientStep_some hs
      exact ⟨(h.requests.receiver_step hclient).congr_readBuf, h.serving.congr rfl rfl,
        h.reading.read n (BinaryRpcChannel.step_frames hclient fun _ _ hl => by cases hl)⟩
  | decode =>
    simp only [BinaryRpcLink.step] at hs
    split at hs
    · rename_i f rest hscan
      obtain ⟨client, hclient, rfl⟩ := clientStep_some hs
      exact ⟨(h.requests.receiver_step hclient).congr_readBuf, h.serving.congr rfl rfl,
        h.reading.frame hscan (frames_of_frame hclient)⟩
    · obtain ⟨client, hclient, rfl⟩ := clientStep_some hs
      exact ⟨h.requests.receiver_step hclient, h.serving.congr rfl rfl,
        h.reading.client_step (BinaryRpcChannel.step_frames hclient fun _ _ hl => by cases hl)⟩
    · obtain ⟨client, hclient, rfl⟩ := clientStep_some hs
      exact ⟨h.requests.receiver_step hclient, h.serving.congr rfl rfl,
        h.reading.client_step (BinaryRpcChannel.step_frames hclient fun _ _ hl => by cases hl)⟩

theorem Sound.connected {server : BinaryRpcServer} (h : server.Accepted env a) :
    Sound cl env a (connected server) := by
  have hnone : server.handed a = [] := by
    rw [BinaryRpcServer.handed, List.map_eq_nil_iff, List.filter_eq_nil_iff]
    intro q hq
    simpa using h.noRequests q hq
  have hstart : Received env a (server.handed a) [] server := .start h.nothingCached
  rw [hnone] at hstart
  refine ⟨⟨.init, Nat.two_pow_pos 64, ?_, List.nodup_nil, ?_, rfl⟩, ⟨h.reachable, ?_, fun _ => hstart⟩,
    ⟨List.nil_prefix, [], ?_, rfl, rfl⟩⟩
  · intro p hp
    cases hp
  · intro c hc
    cases hc
  · exact hstart.handed
  · intro f hf
    cases hf

theorem sound_of_reaches {server : BinaryRpcServer} (hserver : server.Accepted env a)
    (h : (system cl env a server).Reaches (Orderly a) s) : Sound cl env a s :=
  h.invariant (Sound.connected hserver) fun _ _ _ hsound hg hs => hsound.step hg hs

/-! ## Responses and requests -/

/-- **The server serves what was sent**, in the order it was sent. -/
theorem Sound.handed_of_started (h : Sound cl env a s) (hu : cl.Understood env) :
    s.server.handed a <+: s.started.map Prod.snd := by
  have hasked : ∀ call ∈ s.started.map Prod.snd, ∃ seq c, call = cl.ask seq c := by
    intro call hcall
    obtain ⟨p, hp, rfl⟩ := List.mem_map.mp hcall
    obtain ⟨sender, -, hask, -⟩ := h.requests.started p hp
    exact ⟨sender.seq, p.1, hask⟩
  have hsplit := RpcClient.split_stream hu hasked
  rw [← h.requests.stream] at hsplit
  obtain ⟨left, -, hfront⟩ := Splitter.split_front hsplit
  rw [h.serving.handed]
  exact hfront

/-- A request that came on the connection is what a call on the stream asked for. -/
theorem Sound.asked (h : Sound cl env a s) (hu : cl.Understood env) {q : RpcRequest}
    (hq : q ∈ s.server.requests) (hconn : q.conn = a) :
    ∃ c call, s.client.calls[c]? = some call ∧ q.call = cl.ask call.seq c ∧ 2 ≤ call.pc.stage := by
  have hhanded : q.call ∈ s.server.handed a := by
    refine List.mem_map_of_mem (List.mem_filter.mpr ⟨hq, ?_⟩)
    simpa using hconn
  obtain ⟨p, hp, hcall⟩ := List.mem_map.mp ((h.handed_of_started hu).subset hhanded)
  obtain ⟨call, hget, hask, hstage⟩ := h.requests.started p hp
  refine ⟨p.1, call, hget, hcall.symm.trans hask, ?_⟩
  rcases hstage with hwriting | h3
  · obtain ⟨call', before, hget', hpc, -⟩ := h.requests.writing p.1 hwriting
    cases hget.symm.trans hget'
    rw [hpc]
    exact Nat.le_refl 2
  · omega

/-- **A sequence id comes to the server once.** -/
theorem Sound.request_unique (h : Sound cl env a s) (hu : cl.Understood env) {i j : Nat}
    {q q' : RpcRequest} (hq : s.server.requests[i]? = some q) (hq' : s.server.requests[j]? = some q')
    (hconn : q.conn = a) (hconn' : q'.conn = a) (hseq : q.call.sequenceId = q'.call.sequenceId) : i = j := by
  have hnumbered := BinaryRpcChannel.numbered_of_reachable h.requests.client
  -- calls on the stream have different sequence ids
  have hstarted : s.started.Pairwise fun p p' => p.2.sequenceId ≠ p'.2.sequenceId := by
    have hdistinct := List.pairwise_map.mp h.requests.distinct
    refine hdistinct.imp_of_mem fun {p p'} hp hp' hne heq => hne ?_
    obtain ⟨call, hcall, hask, -⟩ := h.requests.started p hp
    obtain ⟨call', hcall', hask', -⟩ := h.requests.started p' hp'
    rw [hask, hask'] at heq
    exact hnumbered.injective h.requests.few hcall hcall' heq
  have hsent : (s.started.map Prod.snd).Pairwise fun call call' => call.sequenceId ≠ call'.sequenceId :=
    List.pairwise_map.mpr hstarted
  have hhanded := hsent.sublist (h.handed_of_started hu).sublist
  have hrequests : s.server.requests.Pairwise fun q q' =>
      q.conn = a → q'.conn = a → q.call.sequenceId ≠ q'.call.sequenceId := by
    simpa [BinaryRpcServer.handed, List.pairwise_map, List.pairwise_filter] using hhanded
  obtain ⟨hi, rfl⟩ := List.getElem?_eq_some_iff.mp hq
  obtain ⟨hj, rfl⟩ := List.getElem?_eq_some_iff.mp hq'
  rw [List.pairwise_iff_getElem] at hrequests
  rcases Nat.lt_trichotomy i j with hlt | heq | hlt
  · exact absurd hseq (hrequests i j hi hj hlt hconn hconn')
  · exact heq
  · exact absurd hseq.symm (hrequests j i hj hi hlt hconn' hconn)

end BinaryRpcLink

theorem RpcFrame.eq_of_bytes_eq {f g : RpcFrame} (hf : f.WellFormed) (hg : g.WellFormed)
    (h : f.bytes = g.bytes) : f = g := by
  have hscan := scanFrame_bytes hf []
  rw [h, scanFrame_bytes hg []] at hscan
  cases hscan
  rfl

/-- The frame of a response. -/
theorem responseFrame_eq (seq : UInt64) (responseRaw : Bytes) :
    responseFrame seq responseRaw = (RpcFrame.of .response seq [] responseRaw).bytes := by
  rw [responseFrame, Buffer.readAllFromBuffer_fst, BinaryRpcCodec.readable_encode, Buffer.readable_empty,
    List.nil_append]

theorem wellFormed_response (seq : UInt64) (response : Option Serialized) :
    (RpcFrame.of .response seq [] (BinaryRpcClosure.run response)).WellFormed :=
  RpcFrame.wellFormed_of (Nat.two_pow_pos 32)
    (Nat.lt_trans (BinaryRpcClosure.length_run response) (by decide))

/-- What was sent on a connection is a list of well-formed frames. -/
theorem BinaryRpcServer.exists_frames {env : RpcServices} {s : BinaryRpcServer}
    (h : (system env).Reachable s) (a : Nat) :
    ∃ gs : List RpcFrame, (∀ g ∈ gs, g.WellFormed) ∧ s.outputOf a = gs.map RpcFrame.bytes := by
  have all : ∀ out : List Bytes, (∀ bytes ∈ out, ∃ g : RpcFrame, g.WellFormed ∧ bytes = g.bytes) →
      ∃ gs : List RpcFrame, (∀ g ∈ gs, g.WellFormed) ∧ out = gs.map RpcFrame.bytes := by
    intro out
    induction out with
    | nil => exact fun _ => ⟨[], fun _ hg => absurd hg List.not_mem_nil, rfl⟩
    | cons bytes out ih =>
      intro hout
      obtain ⟨⟨g, hg, rfl⟩, hrest⟩ := List.forall_mem_cons.mp hout
      obtain ⟨gs, hgs, rfl⟩ := ih hrest
      exact ⟨g :: gs, List.forall_mem_cons.mpr ⟨hg, hgs⟩, rfl⟩
  refine all _ fun bytes hmem => ?_
  obtain ⟨i, q, response, -, -, -, rfl⟩ := mem_outputOf h hmem
  exact ⟨_, wellFormed_response _ _, responseFrame_eq _ _⟩

namespace BinaryRpcLink

variable {cl : RpcClient} {env : RpcServices} {a : Nat} {s : BinaryRpcLink}

/-- **The client decodes what the server sent**, in the order it was sent. -/
theorem Sound.frames_of_output (h : Sound cl env a s) :
    ∃ gs : List RpcFrame, (∀ g ∈ gs, g.WellFormed) ∧ s.server.outputOf a = gs.map RpcFrame.bytes ∧
      s.client.frames <+: gs.map fun g => (g.header.sequenceId, g.bodyBytes) := by
  obtain ⟨gs, hgs, hout⟩ := BinaryRpcServer.exists_frames h.serving.server a
  obtain ⟨fs, hfs, hreceived, hframes⟩ := h.reading.decoded
  have hmore : frames.scan [] = .more := rfl
  have hall := Splitter.split_encoded frames_encodes hmore hgs
  have hread := Splitter.split_encoded frames_encodes hmore hfs
  rw [List.append_nil] at hall hread
  -- the decoded frames are at the front of what was received, and that is at the front of the output
  obtain ⟨later, hlater⟩ := h.reading.received
  rw [hout, hreceived, List.append_assoc] at hlater
  rw [← hlater] at hall
  obtain ⟨left, -, hfront⟩ := Splitter.split_front hall
  rw [hread] at hfront
  refine ⟨gs, hgs, hout, ?_⟩
  rw [hframes]
  exact hfront.map _

/-- A decoded frame answers a request that came on the connection. -/
theorem Sound.answer_of_frame (h : Sound cl env a s) {f : UInt64 × Bytes} (hf : f ∈ s.client.frames) :
    ∃ i q response, s.server.requests[i]? = some q ∧ q.conn = a ∧
      f = (q.call.sequenceId, BinaryRpcClosure.run response) ∧
      (i, responseFrame q.call.sequenceId (BinaryRpcClosure.run response)) ∈ s.server.responses := by
  obtain ⟨gs, hgs, hout, hfront⟩ := h.frames_of_output
  obtain ⟨g, hg, rfl⟩ := List.mem_map.mp (hfront.subset hf)
  have hmem : g.bytes ∈ s.server.outputOf a := by
    rw [hout]
    exact List.mem_map_of_mem hg
  obtain ⟨i, q, response, hq, hconn, hr, hbytes⟩ := BinaryRpcServer.mem_outputOf h.serving.server hmem
  have hsame : g = .of .response q.call.sequenceId [] (BinaryRpcClosure.run response) :=
    RpcFrame.eq_of_bytes_eq (hgs g hg) (wellFormed_response _ _) (hbytes.trans (responseFrame_eq _ _))
  rw [hbytes] at hr
  exact ⟨i, q, response, hq, hconn, by rw [hsame]; rfl, hr⟩

/-- **A call is completed with the answer to its own request.** Whatever the callers, the services, the
other connections of the server and the network do, a response that completes a call is what a service
of the server ran `done` with for the method and the body of that very call. -/
theorem answers_own_request {server : BinaryRpcServer} (hserver : server.Accepted env a)
    (hu : cl.Understood env) (h : (system cl env a server).Reaches (Orderly a) s) {r : Completion}
    (hr : r ∈ s.client.completions) {body : Bytes} (hok : r.outcome = .ok body) :
    ∃ call i q, s.client.calls[r.call]? = some call ∧ s.server.requests[i]? = some q ∧ q.conn = a ∧
      q.call = cl.ask call.seq r.call ∧ (i, responseFrame call.seq body) ∈ s.server.responses := by
  have hsound := sound_of_reaches hserver h
  have hmatched := BinaryRpcChannel.matched_of_reachable hsound.requests.client
  have hnumbered := BinaryRpcChannel.numbered_of_reachable hsound.requests.client
  -- the frame that completed the call carries the call's sequence id
  obtain ⟨m, payload, hfirst, hpayload⟩ : ∃ m payload, s.client.table.FirstMessage r.call m payload ∧
      payload = body := by
    have hcompleted := (hmatched.completed r.entry (List.mem_map_of_mem hr)).2
    cases hframe : r.frame with
    | none =>
      simp only [Completion.entry, hframe, hok] at hcompleted
      cases hcompleted
    | some m =>
      simp only [Completion.entry, hframe, hok] at hcompleted
      obtain ⟨payload, hfirst, hresult⟩ := hcompleted
      refine ⟨m, payload, hfirst, ?_⟩
      rcases hresult with hnone | hsome
      · cases hnone
      · exact (Option.some.inj hsome).symm
  subst hpayload
  obtain ⟨call, hcall, hframe⟩ := BinaryRpcChannel.firstFrame_of_firstMessage hfirst
  -- it answers a request of this connection, which some call asked for
  obtain ⟨i, q, response, hq, hconn, hfq, hsent⟩ :=
    hsound.answer_of_frame (List.mem_of_getElem? hframe.frame)
  obtain ⟨hseq, rfl⟩ := Prod.ext_iff.mp hfq
  obtain ⟨c, call', hcall', hask, -⟩ := hsound.asked hu (List.mem_of_getElem? hq) hconn
  -- by its sequence id that is the call that was completed
  have hseq' : call.seq = call'.seq := by
    rw [show call.seq = q.call.sequenceId from hseq, hask]
    rfl
  obtain rfl := hnumbered.injective hsound.requests.few hcall hcall' hseq'
  cases hcall.symm.trans hcall'
  refine ⟨call, i, q, hcall, hq, hconn, hask, ?_⟩
  rw [show call.seq = q.call.sequenceId from hseq]
  exact hsent

/-- A client of `Echo.Say`. -/
def sayClient : RpcClient where
  serializeMeta := sayMeta
  asks c := (⟨"Echo", "Say"⟩, [1, 2, 3, UInt8.ofNat c])
  parses _ body := body = [5]

theorem sayClient_understood : sayClient.Understood echoServices := by
  intro seq c
  have hlen : ([1, 2, 3, UInt8.ofNat c] : Bytes).length < 2 ^ 32 :=
    Nat.lt_of_le_of_lt (Nat.le_refl 4) (by decide)
  exact sayFrame_encodable hlen

theorem sayStart_accepted : BinaryRpcServer.sayStart.Accepted echoServices 7 where
  reachable := .of_run [.lifecycle (.connect 7)] (by
    show BinaryRpcServer.step echoServices .create (.lifecycle (.connect 7)) = _
    rfl)
  isOpen := by decide
  nothingCached := by decide
  noRequests := by decide

/-- Two calls overlap: the first request is cut inside its header, its `done` runs after the second one has
been answered, and the two responses come in two reads. -/
def sayLink : List LinkLabel :=
  [.client (.call none), .client (.call none), .client (.caller 0 .register),
    .client (.caller 1 .register), .client (.caller 0 (.encode none)), .client (.caller 1 (.encode none)),
    .lock 0, .write 7, .deliver 5 fun _ => ⟨.keepsDone, false⟩, .write 28, .sent, .lock 1,
    .deliver 30 fun _ => ⟨.keepsDone, false⟩, .write 35, .sent,
    .deliver 35 fun _ => ⟨BinaryRpcServer.sayReply, false⟩,
    .server (.runDone 0 (some BinaryRpcServer.sayResponse) false),
    .client (.receiver .check), .read 4, .client (.receiver .checkParse), .decode,
    .client (.receiver .check), .read 100, .client (.receiver .checkParse), .decode,
    .client (.receiver .deliver), .client (.receiver .checkParse), .decode, .client (.receiver .deliver)]

instance (a : Nat) (s : BinaryRpcLink) : ∀ l, Decidable (Orderly a s l)
  | .lock _ => inferInstanceAs (Decidable (s.unsent = []))
  | .deliver _ _ => inferInstanceAs (Decidable (BinaryRpcServer.OpenAt a s.server))
  | .server (.lifecycle (.connect b)) => inferInstanceAs (Decidable (b ≠ a))
  | .client (.call _) => inferInstanceAs (Decidable (s.client.calls.length + 1 < 2 ^ 64))
  | .server (.lifecycle (.close _)) | .server (.lifecycle (.destroy _)) | .server (.lifecycle .shutdown)
  | .server (.message _ _ _) | .server (.runDone _ _ _) | .client (.caller _ _) | .client (.receiver _)
  | .client (.resume _) | .client .destroyBegin | .client .destroyEnd | .write _ | .sent | .writeFails
  | .read _ | .decode => inferInstanceAs (Decidable True)

theorem answers_own_request_sayLink :
    ∃ s, (system sayClient echoServices 7 BinaryRpcServer.sayStart).run
        (connected BinaryRpcServer.sayStart) sayLink = some s ∧
      s.client.completions.map Completion.call = [1, 0] ∧
      ∀ c < 2, ∃ call i q, s.client.calls[c]? = some call ∧ s.server.requests[i]? = some q ∧ q.conn = 7 ∧
        q.call = sayClient.ask call.seq c ∧ (i, responseFrame call.seq [5]) ∈ s.server.responses := by
  obtain ⟨s, hrun, horder, hdone⟩ :
      ∃ s ∈ (system sayClient echoServices 7 BinaryRpcServer.sayStart).run
          (connected BinaryRpcServer.sayStart) sayLink,
        s.client.completions.map Completion.call = [1, 0] ∧
        ∀ c < 2, ∃ r ∈ s.client.completions, r.call = c ∧ r.outcome.toOption = some [5] := by
    decide +kernel
  have hadmits : (system sayClient echoServices 7 BinaryRpcServer.sayStart).Admits (Orderly 7)
      (connected BinaryRpcServer.sayStart) sayLink := by
    decide +kernel
  refine ⟨s, hrun, horder, fun c hc => ?_⟩
  obtain ⟨r, hr, rfl, hok⟩ := hdone c hc
  have hok' : r.outcome = .ok [5] := by
    cases hout : r.outcome with
    | error what =>
      rw [hout] at hok
      cases hok
    | ok body =>
      rw [hout] at hok
      rw [Option.some.inj hok]
  exact answers_own_request sayStart_accepted sayClient_understood (.of_run sayLink hrun hadmits) hr hok'

/-- **Requests are served in the order they were sent, each at most once.** -/
theorem requests_served_once {server : BinaryRpcServer} (hserver : server.Accepted env a)
    (hu : cl.Understood env) (h : (system cl env a server).Reaches (Orderly a) s) :
    s.server.handed a <+: s.started.map Prod.snd ∧ (s.started.map Prod.fst).Nodup ∧
      ∀ (i j : Nat) (q q' : RpcRequest), s.server.requests[i]? = some q → s.server.requests[j]? = some q' →
        q.conn = a → q'.conn = a → q.call.sequenceId = q'.call.sequenceId → i = j := by
  have hsound := sound_of_reaches hserver h
  refine ⟨hsound.handed_of_started hu, hsound.requests.distinct, ?_⟩
  intro i j q q' hq hq' hconn hconn' hseq
  exact hsound.request_unique hu hq hq' hconn hconn' hseq

theorem requests_served_once_sayLink :
    ∃ s, (system sayClient echoServices 7 BinaryRpcServer.sayStart).run
        (connected BinaryRpcServer.sayStart) sayLink = some s ∧
      s.server.handed 7 = [sayClient.ask 1 0, sayClient.ask 2 1] ∧
      s.server.handed 7 <+: s.started.map Prod.snd := by
  obtain ⟨s, hrun, hhanded⟩ :
      ∃ s ∈ (system sayClient echoServices 7 BinaryRpcServer.sayStart).run
          (connected BinaryRpcServer.sayStart) sayLink,
        s.server.handed 7 = [sayClient.ask 1 0, sayClient.ask 2 1] := by
    decide +kernel
  have hadmits : (system sayClient echoServices 7 BinaryRpcServer.sayStart).Admits (Orderly 7)
      (connected BinaryRpcServer.sayStart) sayLink := by
    decide +kernel
  exact ⟨s, hrun, hhanded, (requests_served_once sayStart_accepted sayClient_understood
    (.of_run sayLink hrun hadmits)).1⟩

end BinaryRpcLink

end Tudou
