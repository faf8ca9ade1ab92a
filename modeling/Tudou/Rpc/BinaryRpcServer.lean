import Tudou.Foundation.Run
import Tudou.Rpc.BinaryRpcCodec
import Tudou.Tcp.ConnectionTable

/-!
# `BinaryRpcServer`: from bytes to requests to responses

Model of `src/tudou/rpc/binary/BinaryRpcServer.cpp` and `BinaryRpcRouter.cpp`.  Protobuf and the
registered services are parameters (`RpcServices`); each delivery says what the services it reaches
do and whether a send inside it closes the connection.  All callbacks run on one loop, one after the
other: `connectionBuffers_` has no lock.

* `BinaryRpcRouter.dispatch`, `BinaryRpcServer.onMessage` — the source's functions.
* `handleFrames_spec` — the decode loop takes `requestFrames` off the cache and serves them in order.
* `Received.run` — **along a run in which a connection stays open**, what was handed to the router
  and what is cached are the split of the bytes delivered so far.
* `framing_exact` — so encoded frames arrive exactly once, in order, however they were cut.
-/

namespace Tudou

open Framing Transition

structure RpcMeta where
  serviceName : String
  methodName : String
  deriving DecidableEq, Repr

/-- What the router asks of a `MethodDescriptor`: whether the body is a request of that method. -/
structure MethodDescriptor where
  parsesRequest : Bytes → Bool

structure ServiceInfo where
  methods : String → Option MethodDescriptor

/-- What the server takes from Protobuf and from `register_service`. -/
structure RpcServices where
  /-- `RpcMeta::ParseFromString`. -/
  parseMeta : Bytes → Option RpcMeta
  services : String → Option ServiceInfo

/-- What `SerializeToString` produces: Protobuf refuses 2 GiB and more. -/
abbrev Serialized := {raw : Bytes // raw.length < 2 ^ 31}

/-- What a service does when it is called; `none` is a response that does not serialise.  An exception
that is no `std::exception` leaves `loop()` and is not among these. -/
inductive CallOutcome where
  | runsDone (response : Option Serialized)
  | keepsDone
  | throws (what : String)
  deriving DecidableEq

/-- A request handed to the router. -/
structure RpcCall where
  sequenceId : UInt64
  info : RpcMeta
  body : Bytes
  deriving DecidableEq, Repr

/-- `BinaryRpcClosure::Run`: what it calls `callback_` with. -/
def BinaryRpcClosure.run (response : Option Serialized) : Bytes :=
  match response with
  | some responseRaw => responseRaw.1
  | none => []

/-- `BinaryRpcRouter::dispatch`: what `doneCallback` was called with if the service called it before
it returned, or the text of the exception. -/
def BinaryRpcRouter.dispatch (env : RpcServices) (serviceName methodName : String)
    (requestRaw : Bytes) (outcome : CallOutcome) : Except String (Option Bytes) :=
  match env.services serviceName with
  | none => .error ("Service not found: " ++ serviceName)
  | some serviceInfo =>
    match serviceInfo.methods methodName with
    | none => .error ("Method not found: " ++ serviceName ++ "." ++ methodName)
    | some method =>
      if method.parsesRequest requestRaw then
        match outcome with
        | .runsDone response => .ok (some (BinaryRpcClosure.run response))
        | .keepsDone => .ok none
        | .throws what => .error what
      else .error ("Invalid request payload for method: " ++ serviceName ++ "." ++ methodName)

/-- The service and the method exist and the body is a request of the method. -/
def RpcCall.Callable (env : RpcServices) (call : RpcCall) : Prop :=
  ∃ serviceInfo method, env.services call.info.serviceName = some serviceInfo ∧
    serviceInfo.methods call.info.methodName = some method ∧ method.parsesRequest call.body = true

namespace BinaryRpcRouter

/-- A callable request reaches its service. -/
theorem dispatch_of_callable {env : RpcServices} {call : RpcCall} (h : call.Callable env)
    (outcome : CallOutcome) :
    dispatch env call.info.serviceName call.info.methodName call.body outcome =
      match outcome with
      | .runsDone response => .ok (some (BinaryRpcClosure.run response))
      | .keepsDone => .ok none
      | .throws what => .error what := by
  obtain ⟨serviceInfo, method, hservice, hmethod, hbody⟩ := h
  simp only [dispatch, hservice, hmethod, hbody, if_true]

/-- Every other request ends in an exception. -/
theorem dispatch_of_not_callable {env : RpcServices} {call : RpcCall} (h : ¬ call.Callable env)
    (outcome : CallOutcome) :
    ∃ what, dispatch env call.info.serviceName call.info.methodName call.body outcome = .error what := by
  unfold dispatch
  split
  · exact ⟨_, rfl⟩
  rename_i serviceInfo hservice
  split
  · exact ⟨_, rfl⟩
  rename_i method hmethod
  by_cases hbody : method.parsesRequest call.body = true
  · exact absurd ⟨serviceInfo, method, hservice, hmethod, hbody⟩ h
  · rw [if_neg hbody]
    exact ⟨_, rfl⟩

end BinaryRpcRouter

/-- What happens while one request is served: what the service does, and whether the send of its
response fails and closes the connection. -/
structure Answer where
  outcome : CallOutcome
  closes : Bool

/-- A request with the connection it came on and what its service did. -/
structure RpcRequest where
  conn : Nat
  call : RpcCall
  outcome : CallOutcome

/-- The server with the history of its requests and responses. -/
structure BinaryRpcServer where
  connectionBuffers : ConnectionTable Bytes
  requests : List RpcRequest
  /-- Requests whose `done` a service still holds. -/
  outstanding : List Nat
  /-- What was passed to `send` on an open connection, with the request it answers. -/
  responses : List (Nat × Bytes)

/-- The frame `doneCallback` sends. -/
def responseFrame (sequenceId : UInt64) (responseRaw : Bytes) : Bytes :=
  (BinaryRpcCodec.encode .empty .response sequenceId [] responseRaw).readAllFromBuffer.1

namespace BinaryRpcServer

def create : BinaryRpcServer := ⟨.create, [], [], []⟩

/-- `doneCallback` of request `i`: `conn->send` of the response frame. -/
def reply (s : BinaryRpcServer) (i : Nat) (q : RpcRequest) (responseRaw : Bytes) (closes : Bool) :
    BinaryRpcServer :=
  if s.connectionBuffers.status q.conn = .open then
    if closes then { s with connectionBuffers := s.connectionBuffers.close q.conn }
    else { s with responses := s.responses ++ [(i, responseFrame q.call.sequenceId responseRaw)] }
  else s

/-- Note that a request came. -/
def receive (s : BinaryRpcServer) (q : RpcRequest) : BinaryRpcServer :=
  { s with requests := s.requests ++ [q] }

/-- Hand one request to the router; what it throws is caught and logged. -/
def serve (env : RpcServices) (a : Nat) (answers : Nat → Answer) (s : BinaryRpcServer)
    (call : RpcCall) : BinaryRpcServer :=
  let i := s.requests.length
  let q : RpcRequest := ⟨a, call, (answers i).outcome⟩
  let s := s.receive q
  match BinaryRpcRouter.dispatch env call.info.serviceName call.info.methodName call.body q.outcome with
  | .ok (some responseRaw) => s.reply i q responseRaw (answers i).closes
  | .ok none => { s with outstanding := s.outstanding ++ [i] }
  | .error _ => s

/-- The decode loop of `on_message`; `none` is `hasCorruptFrame`. -/
def handleFrames (env : RpcServices) (a : Nat) (answers : Nat → Answer) :
    Nat → Buffer → BinaryRpcServer → Option Buffer × BinaryRpcServer
  | 0, buf, s => (some buf, s)
  | fuel + 1, buf, s =>
    match BinaryRpcCodec.decode buf with
    | .success header metaRaw bodyRaw buf =>
      match env.parseMeta metaRaw with
      | none => (none, s)
      | some info =>
        handleFrames env a answers fuel buf (s.serve env a answers ⟨header.sequenceId, info, bodyRaw⟩)
    | .empty => (some buf, s)
    | .halfPack => (some buf, s)
    | .error => (none, s)

/-- `on_message` of the connection at `a`, whose `receive()` gives `data`. -/
def onMessage (env : RpcServices) (a : Nat) (data : Bytes) (answers : Nat → Answer)
    (s : BinaryRpcServer) : BinaryRpcServer :=
  if data = [] then s
  else
    let cache := (s.connectionBuffers.entries a).getD [] ++ data
    let s := { s with connectionBuffers := s.connectionBuffers.store a cache }
    -- every turn of the loop but the last consumes a frame, so this fuel does not run out
    match handleFrames env a answers (cache.length + 1) (Buffer.empty.writeToBuffer cache) s with
    | (none, s) => { s with connectionBuffers := (s.connectionBuffers.close a).erase a }
    | (some buf, s) =>
      { s with connectionBuffers := s.connectionBuffers.assign a buf.readAllFromBuffer.1 }

end BinaryRpcServer

/-- Steps of the loop that owns the connections; `runDone` is a service that runs a `done` it kept. -/
inductive RpcServerLabel where
  | lifecycle (l : Lifecycle)
  | message (a : Nat) (data : Bytes) (answers : Nat → Answer)
  | runDone (i : Nat) (response : Option Serialized) (closes : Bool)

namespace BinaryRpcServer

/-- A connection is not destroyed while a `done` that captured it is kept. -/
def Retains (s : BinaryRpcServer) : Lifecycle → Prop
  | .destroy a => ∃ i ∈ s.outstanding, (s.requests[i]?).map RpcRequest.conn = some a
  | _ => False

instance (s : BinaryRpcServer) : ∀ l, Decidable (s.Retains l)
  | .destroy a =>
    inferInstanceAs (Decidable (∃ i ∈ s.outstanding, (s.requests[i]?).map RpcRequest.conn = some a))
  | .connect _ | .close _ | .shutdown => inferInstanceAs (Decidable False)

def step (env : RpcServices) (s : BinaryRpcServer) : RpcServerLabel → Option BinaryRpcServer
  | .lifecycle l =>
    if s.Retains l then none
    else (s.connectionBuffers.lifecycle none l).map fun t => { s with connectionBuffers := t }
  | .message a data answers =>
    if s.connectionBuffers.running ∧ s.connectionBuffers.status a ≠ .free then
      some (s.onMessage env a data answers)
    else none
  | .runDone i response closes =>
    match s.requests[i]? with
    | none => none
    | some q =>
      if i ∈ s.outstanding then
        some ({ s with outstanding := s.outstanding.erase i }.reply i q
          (BinaryRpcClosure.run response) closes)
      else none

/-- The server behind its loop. -/
def system (env : RpcServices) : System BinaryRpcServer RpcServerLabel := ⟨create, step env⟩

end BinaryRpcServer

/-! ## The decode loop -/

/-- **The byte stream as requests**: frames whose meta parses. -/
def requestFrames (env : RpcServices) : Splitter Byte RpcCall :=
  frames.validated fun f =>
    (env.parseMeta f.metaBytes).map fun info => ⟨f.header.sequenceId, info, f.bodyBytes⟩

namespace BinaryRpcServer

variable (env : RpcServices) (a : Nat) (answers : Nat → Answer)

/-- **The loop serves the requests in the cache, in order**, and leaves what is no request yet. -/
theorem handleFrames_spec : ∀ {fuel : Nat} {buf : Buffer} (s : BinaryRpcServer),
    buf.readable.length < fuel →
    (handleFrames env a answers fuel buf s).1.map Buffer.readable =
        ((requestFrames env).split buf.readable).2 ∧
      (handleFrames env a answers fuel buf s).2 =
        ((requestFrames env).split buf.readable).1.foldl (serve env a answers) s
  | 0, _, _, hfuel => by omega
  | fuel + 1, buf, s, hfuel => by
    have hends := decode_ends buf
    simp only [handleFrames]
    cases hdecode : BinaryRpcCodec.decode buf with
    | success header metaRaw bodyRaw rest =>
      simp only [hdecode] at hends
      cases hparse : env.parseMeta metaRaw with
      | none =>
        have hscan : (requestFrames env).scan buf.readable = .corrupt :=
          Splitter.validated_scan_rejected hends (by simp only [hparse, Option.map_none])
        simp only [hparse, Splitter.split_of_corrupt hscan]
        exact ⟨rfl, rfl⟩
      | some info =>
        have hscan : (requestFrames env).scan buf.readable =
            .message ⟨header.sequenceId, info, bodyRaw⟩ rest.readable :=
          Splitter.validated_scan_message hends (by simp only [hparse, Option.map_some])
        have hlt := (requestFrames env).length_lt hscan
        simp only [hparse, Splitter.split_of_message hscan, List.foldl_cons]
        exact handleFrames_spec _ (by omega)
    | empty | halfPack =>
      simp only [hdecode] at hends
      have hscan : (requestFrames env).scan buf.readable = .more := Splitter.validated_scan_more hends
      rw [Splitter.split_of_more hscan]
      exact ⟨rfl, rfl⟩
    | error =>
      simp only [hdecode] at hends
      have hscan : (requestFrames env).scan buf.readable = .corrupt :=
        Splitter.validated_scan_corrupt hends
      rw [Splitter.split_of_corrupt hscan]
      exact ⟨rfl, rfl⟩

/-- What `on_message` caches before the loop. -/
def extendCache (s : BinaryRpcServer) (a : Nat) (data : Bytes) : BinaryRpcServer :=
  { s with connectionBuffers :=
      s.connectionBuffers.store a ((s.connectionBuffers.entries a).getD [] ++ data) }

/-- **`on_message` in one line**: serve the requests in the extended cache, then drop the
connection or store the rest through the reference taken before the loop. -/
theorem onMessage_spec (s : BinaryRpcServer) {data : Bytes} (hdata : data ≠ []) :
    let out := (requestFrames env).split ((s.connectionBuffers.entries a).getD [] ++ data)
    let t := out.1.foldl (serve env a answers) (s.extendCache a data)
    s.onMessage env a data answers = match out.2 with
      | none => { t with connectionBuffers := (t.connectionBuffers.close a).erase a }
      | some rest => { t with connectionBuffers := t.connectionBuffers.assign a rest } := by
  intro out t
  have hread : (Buffer.empty.writeToBuffer ((s.connectionBuffers.entries a).getD [] ++ data)).readable =
      (s.connectionBuffers.entries a).getD [] ++ data := by
    rw [Buffer.readable_writeToBuffer, Buffer.readable_empty, List.nil_append]
  have hlen := Nat.lt_succ_of_le (Nat.le_of_eq (congrArg List.length hread))
  obtain ⟨hrest, hserved⟩ := handleFrames_spec env a answers (s.extendCache a data) hlen
  rw [hread] at hrest hserved
  rw [onMessage, if_neg hdata]
  simp only
  split
  · rename_i served hloop
    rw [extendCache, hloop] at hrest hserved
    have hout : out.2 = none := hrest.symm
    have ht : served = t := hserved
    rw [hout, ht]
  · rename_i buf served hloop
    rw [extendCache, hloop] at hrest hserved
    have hout : out.2 = some buf.readable := hrest.symm
    have ht : served = t := hserved
    rw [hout, ht, Buffer.readAllFromBuffer_fst]

/-! ## What serving requests changes -/

/-- What was handed to the router from the connection at `a`. -/
def handed (s : BinaryRpcServer) (a : Nat) : List RpcCall :=
  (s.requests.filter fun q => q.conn = a).map RpcRequest.call

@[simp] theorem requests_reply (s : BinaryRpcServer) (i : Nat) (q : RpcRequest) (responseRaw : Bytes)
    (closes : Bool) : (s.reply i q responseRaw closes).requests = s.requests := by
  unfold reply
  split
  · split <;> rfl
  · rfl

theorem buffers_reply (s : BinaryRpcServer) (i : Nat) (q : RpcRequest) (responseRaw : Bytes)
    (closes : Bool) :
    (s.reply i q responseRaw closes).connectionBuffers = s.connectionBuffers ∨
      (s.reply i q responseRaw closes).connectionBuffers = s.connectionBuffers.close q.conn := by
  unfold reply
  split
  · split
    · exact .inr rfl
    · exact .inl rfl
  · exact .inl rfl

theorem requests_serve (s : BinaryRpcServer) (call : RpcCall) :
    (serve env a answers s call).requests =
      s.requests ++ [⟨a, call, (answers s.requests.length).outcome⟩] := by
  unfold serve
  simp only
  split
  · exact requests_reply ..
  · rfl
  · rfl

theorem buffers_serve (s : BinaryRpcServer) (call : RpcCall) :
    (serve env a answers s call).connectionBuffers = s.connectionBuffers ∨
      (serve env a answers s call).connectionBuffers = s.connectionBuffers.close a := by
  unfold serve
  simp only
  split
  · exact buffers_reply ..
  · exact .inl rfl
  · exact .inl rfl

/-- Requests `calls` of the connection at `a` were served; at most that connection was closed. -/
structure Served (a : Nat) (calls : List RpcCall) (s s' : BinaryRpcServer) : Prop where
  handed_self : s'.handed a = s.handed a ++ calls
  handed_other : ∀ {b}, b ≠ a → s'.handed b = s.handed b
  buffers : s'.connectionBuffers = s.connectionBuffers ∨
    s'.connectionBuffers = s.connectionBuffers.close a

theorem Served.one (s : BinaryRpcServer) (call : RpcCall) :
    Served a [call] s (serve env a answers s call) where
  handed_self := by
    simp [handed, requests_serve]
  handed_other := by
    intro b hb
    simp [handed, requests_serve, hb.symm]
  buffers := buffers_serve env a answers s call

theorem Served.trans {a : Nat} {calls calls' : List RpcCall} {s s' s'' : BinaryRpcServer}
    (h : Served a calls s s') (h' : Served a calls' s' s'') : Served a (calls ++ calls') s s'' where
  handed_self := by rw [h'.handed_self, h.handed_self, List.append_assoc]
  handed_other hb := by rw [h'.handed_other hb, h.handed_other hb]
  buffers := by
    rcases h.buffers with hs | hs <;> rcases h'.buffers with hs' | hs'
    · exact .inl (hs'.trans hs)
    · exact .inr (by rw [hs', hs])
    · exact .inr (by rw [hs', hs])
    · exact .inr (by rw [hs', hs, ConnectionTable.close_close])

theorem Served.all (calls : List RpcCall) (s : BinaryRpcServer) :
    Served a calls s (calls.foldl (serve env a answers) s) := by
  induction calls generalizing s with
  | nil => exact ⟨(List.append_nil _).symm, fun _ => rfl, .inl rfl⟩
  | cons call calls ih => exact (Served.one env a answers s call).trans (ih _)

/-! ## Framing -/

/-- After `bytes` came on the connection at `a`: the requests in them were handed to the router,
after those in `before`, and the rest is cached. -/
structure Received (env : RpcServices) (a : Nat) (before : List RpcCall) (bytes : Bytes)
    (s : BinaryRpcServer) : Prop where
  handed : s.handed a = before ++ ((requestFrames env).split bytes).1
  cached : ((requestFrames env).split bytes).2 = some ((s.connectionBuffers.entries a).getD [])

theorem Received.congr {env : RpcServices} {a : Nat} {before : List RpcCall} {bytes : Bytes}
    {s s' : BinaryRpcServer} (h : Received env a before bytes s) (hh : s'.handed a = s.handed a)
    (he : s'.connectionBuffers.entries a = s.connectionBuffers.entries a) :
    Received env a before bytes s' := ⟨hh.trans h.handed, by rw [he]; exact h.cached⟩

/-- A delivery to another connection. -/
theorem Received.other {env : RpcServices} {a b : Nat} {before : List RpcCall} {bytes : Bytes}
    {s : BinaryRpcServer} (h : Received env a before bytes s) (hab : a ≠ b) (data : Bytes)
    (answers : Nat → Answer) : Received env a before bytes (s.onMessage env b data answers) := by
  by_cases hdata : data = []
  · rw [onMessage, if_pos hdata]
    exact h
  rw [onMessage_spec env b answers s hdata]
  set out := (requestFrames env).split ((s.connectionBuffers.entries b).getD [] ++ data)
  have hserved := Served.all env b answers out.1 (s.extendCache b data)
  have hhanded : (out.1.foldl (serve env b answers) (s.extendCache b data)).handed a = s.handed a :=
    hserved.handed_other hab
  have hentries : (out.1.foldl (serve env b answers) (s.extendCache b data)).connectionBuffers.entries a =
      s.connectionBuffers.entries a := by
    have hstore : (s.extendCache b data).connectionBuffers.entries a = s.connectionBuffers.entries a :=
      ConnectionTable.entries_store_of_ne hab _
    rcases hserved.buffers with ht | ht
    · rw [ht, hstore]
    · rw [ht, (ConnectionTable.close_of_ne hab).2, hstore]
  split
  · refine h.congr hhanded ?_
    exact (Function.update_of_ne hab _ _).trans ((ConnectionTable.close_of_ne hab).2.trans hentries)
  · refine h.congr hhanded ?_
    exact (ConnectionTable.entries_assign_of_ne hab _).trans hentries

/-- **A delivery to a connection that is still open afterwards.** -/
theorem Received.self {env : RpcServices} {a : Nat} {before : List RpcCall} {bytes : Bytes}
    {s : BinaryRpcServer} (h : Received env a before bytes s) (data : Bytes)
    (answers : Nat → Answer)
    (hopen : (s.onMessage env a data answers).connectionBuffers.status a = .open) :
    Received env a before (bytes ++ data) (s.onMessage env a data answers) := by
  by_cases hdata : data = []
  · rw [onMessage, if_pos hdata, hdata, List.append_nil]
    exact h
  rw [onMessage_spec env a answers s hdata] at hopen ⊢
  have hsplit := Splitter.split_append data h.cached
  set out := (requestFrames env).split ((s.connectionBuffers.entries a).getD [] ++ data)
  have hserved := Served.all env a answers out.1 (s.extendCache a data)
  split at hopen
  · exact absurd hopen (ConnectionTable.status_close_self_ne _ a)
  · rename_i rest hrest
    -- no send closed the connection, so the entry is still the one stored before the loop
    have hsame : (out.1.foldl (serve env a answers) (s.extendCache a data)).connectionBuffers =
        (s.extendCache a data).connectionBuffers := by
      rcases hserved.buffers with ht | ht
      · exact ht
      · rw [ConnectionTable.status_assign, ht] at hopen
        exact absurd hopen (ConnectionTable.status_close_self_ne _ a)
    constructor
    · rw [hsplit, ← List.append_assoc, ← h.handed]
      exact hserved.handed_self
    · rw [hsplit]
      simp only [hrest, hsame]
      rw [ConnectionTable.entries_assign_self, Option.getD_some]
      rw [extendCache, ConnectionTable.entries_store_self]
      exact Option.some_ne_none _

/-- The bytes a step delivers to the connection at `a`. -/
def bytesTo (a : Nat) : RpcServerLabel → Bytes
  | .message b data _ => if b = a then data else []
  | _ => []

/-- **What a step can do**: serve a delivery, run a closure, or change connections. -/
theorem step_cases {env : RpcServices} {s s' : BinaryRpcServer} {l : RpcServerLabel}
    (hs : step env s l = some s') :
    (∃ b data answers, l = .message b data answers ∧ s' = s.onMessage env b data answers) ∨
    (∃ i q response closes, l = .runDone i response closes ∧ s.requests[i]? = some q ∧
      i ∈ s.outstanding ∧ s' = { s with outstanding := s.outstanding.erase i }.reply i q
        (BinaryRpcClosure.run response) closes) ∨
    (∃ c t, l = .lifecycle c ∧ s.connectionBuffers.lifecycle none c = some t ∧
      s' = { s with connectionBuffers := t }) := by
  cases l with
  | lifecycle c =>
    simp only [step] at hs
    split at hs
    · cases hs
    · obtain ⟨t, ht, rfl⟩ := Option.map_eq_some_iff.mp hs
      exact .inr (.inr ⟨c, t, rfl, ht, rfl⟩)
  | message b data answers =>
    simp only [step] at hs
    split at hs
    · cases hs
      exact .inl ⟨b, data, answers, rfl, rfl⟩
    · cases hs
  | runDone i response closes =>
    simp only [step] at hs
    split at hs
    · cases hs
    rename_i q hq
    split at hs
    · rename_i hheld
      cases hs
      exact .inr (.inl ⟨i, q, response, closes, rfl, hq, hheld, rfl⟩)
    · cases hs

/-- **What one step of the server does for a connection that stays open.** -/
theorem Received.step {env : RpcServices} {a : Nat} {before : List RpcCall} {bytes : Bytes}
    {s s' : BinaryRpcServer} {l : RpcServerLabel} (h : Received env a before bytes s)
    (hs : step env s l = some s') (hopen : s.connectionBuffers.status a = .open)
    (hopen' : s'.connectionBuffers.status a = .open) :
    Received env a before (bytes ++ bytesTo a l) s' := by
  rcases step_cases hs with ⟨b, data, answers, rfl, rfl⟩ |
    ⟨i, q, response, closes, rfl, -, -, rfl⟩ | ⟨c, t, rfl, ht, rfl⟩
  · by_cases hab : a = b
    · subst hab
      simp only [bytesTo, if_true]
      exact h.self data answers hopen'
    · simp only [bytesTo, if_neg (Ne.symm hab), List.append_nil]
      exact h.other hab data answers
  · simp only [bytesTo, List.append_nil]
    refine h.congr (by rw [BinaryRpcServer.handed, requests_reply]; rfl) ?_
    rcases buffers_reply { s with outstanding := s.outstanding.erase i } i q
      (BinaryRpcClosure.run response) closes with ht | ht
    · rw [ht]
    · rw [ht] at hopen' ⊢
      have hab : a ≠ q.conn := by
        intro heq
        rw [heq] at hopen'
        exact ConnectionTable.status_close_self_ne _ _ hopen'
      exact (ConnectionTable.close_of_ne hab).2
  · simp only [bytesTo, List.append_nil]
    exact h.congr rfl (ConnectionTable.entries_lifecycle ht hopen hopen')

/-- The connection at `a` is open. -/
def OpenAt (a : Nat) (s : BinaryRpcServer) : Prop := s.connectionBuffers.status a = .open

instance (a : Nat) (s : BinaryRpcServer) : Decidable (OpenAt a s) :=
  inferInstanceAs (Decidable (s.connectionBuffers.status a = .open))

/-- **Along a run in which the connection stays open.** -/
theorem Received.run {env : RpcServices} {a : Nat} {before : List RpcCall} {bytes : Bytes}
    {s s' : BinaryRpcServer} (h : Received env a before bytes s) (labels : List RpcServerLabel)
    (hrun : (system env).run s labels = some s')
    (hopen : (system env).Admits (fun t _ => OpenAt a t) s labels) (hend : OpenAt a s') :
    Received env a before (bytes ++ labels.flatMap (bytesTo a)) s' := by
  induction labels generalizing s bytes with
  | nil =>
    cases hrun
    rw [List.flatMap_nil, List.append_nil]
    exact h
  | cons l labels ih =>
    rw [System.run] at hrun
    rw [System.Admits] at hopen
    split at hrun
    · cases hrun
    · rename_i t hstep
      rw [hstep] at hopen
      -- the connection is open after the first step: the next step or the end says so
      have hopent : OpenAt a t := by
        cases labels with
        | nil =>
          cases hrun
          exact hend
        | cons l' labels => exact hopen.2.1
      rw [List.flatMap_cons, ← List.append_assoc]
      exact ih (h.step hstep hopen.1 hopent) hrun hopen.2

end BinaryRpcServer

/-! ## Encoded requests -/

/-- A frame to be encoded. -/
structure OutgoingFrame where
  type : RpcMessageType
  call : RpcCall

section Wire

variable (serializeMeta : RpcMeta → Bytes)

/-- Append one encoded frame to a buffer. -/
def encodeFrame (buf : Buffer) (f : OutgoingFrame) : Buffer :=
  BinaryRpcCodec.encode buf f.type f.call.sequenceId (serializeMeta f.call.info) f.call.body

/-- The bytes of frames encoded one after the other. -/
def wireBytes (fs : List OutgoingFrame) : Bytes := (fs.foldl (encodeFrame serializeMeta) .empty).readable

/-- The meta parses back, and the lengths fit their header fields. -/
structure Encodable (env : RpcServices) (f : OutgoingFrame) : Prop where
  parses : env.parseMeta (serializeMeta f.call.info) = some f.call.info
  metaLen : (serializeMeta f.call.info).length < 2 ^ 32
  bodyLen : f.call.body.length < 2 ^ 32

/-- The frame `encode` makes of it. -/
def OutgoingFrame.frame (f : OutgoingFrame) : RpcFrame :=
  .of f.type f.call.sequenceId (serializeMeta f.call.info) f.call.body

theorem wireBytes_eq (fs : List OutgoingFrame) :
    wireBytes serializeMeta fs = ((fs.map (OutgoingFrame.frame serializeMeta)).map RpcFrame.bytes).flatten := by
  have onto : ∀ (fs : List OutgoingFrame) (buf : Buffer), (fs.foldl (encodeFrame serializeMeta) buf).readable =
      buf.readable ++ ((fs.map (OutgoingFrame.frame serializeMeta)).map RpcFrame.bytes).flatten := by
    intro fs
    induction fs with
    | nil => exact fun buf => (List.append_nil _).symm
    | cons f fs ih =>
      intro buf
      rw [List.foldl_cons, ih, encodeFrame, BinaryRpcCodec.readable_encode, List.append_assoc]
      rfl
  rw [wireBytes, onto, Buffer.readable_empty, List.nil_append]

variable {serializeMeta}

theorem Encodable.wellFormed {env : RpcServices} {f : OutgoingFrame}
    (h : Encodable serializeMeta env f) : (f.frame serializeMeta).WellFormed :=
  RpcFrame.wellFormed_of h.metaLen h.bodyLen

/-- **What was encoded is split into requests again**, and less than a frame is left. -/
theorem split_wireBytes {env : RpcServices} {fs : List OutgoingFrame} {f : OutgoingFrame}
    {tail : Bytes} (hfs : ∀ f ∈ fs, Encodable serializeMeta env f)
    (hf : Encodable serializeMeta env f) (htail : tail <+: wireBytes serializeMeta [f])
    (hne : tail ≠ wireBytes serializeMeta [f]) :
    (requestFrames env).split (wireBytes serializeMeta fs ++ tail) =
      (fs.map OutgoingFrame.call, some tail) := by
  have hone : wireBytes serializeMeta [f] = (f.frame serializeMeta).bytes := by
    rw [wireBytes_eq, List.map_singleton, List.map_singleton, List.flatten_singleton]
  rw [hone] at htail hne
  have hmore := frames_encodes.scan_prefix hf.wellFormed htail hne
  have hwf : ∀ g ∈ fs.map (OutgoingFrame.frame serializeMeta), g.WellFormed := by
    intro g hg
    obtain ⟨f, hmem, rfl⟩ := List.mem_map.mp hg
    exact (hfs f hmem).wellFormed
  rw [wireBytes_eq]
  refine Splitter.split_validated (Splitter.split_encoded frames_encodes hmore hwf) ?_
  rw [List.map_map, List.map_map]
  apply List.map_congr_left
  intro f hmem
  have hparses := (hfs f hmem).parses
  simp only [Function.comp_apply, OutgoingFrame.frame, RpcFrame.of, hparses, Option.map_some]

end Wire

namespace BinaryRpcServer

/-- Nothing is cached: between two requests, or before the first. -/
theorem Received.start {env : RpcServices} {a : Nat} {s : BinaryRpcServer}
    (h : (s.connectionBuffers.entries a).getD [] = []) : Received env a (s.handed a) [] s := by
  have hscan : (requestFrames env).scan [] = .more := Splitter.validated_scan_more rfl
  constructor
  · rw [Splitter.split_of_more hscan, List.append_nil]
  · rw [Splitter.split_of_more hscan, h]

/-- **Binary RPC framing is exact and does not depend on how the stream was cut.** -/
theorem framing_exact {env : RpcServices} {serializeMeta : RpcMeta → Bytes} {a : Nat}
    {s s' : BinaryRpcServer} {labels : List RpcServerLabel} {fs : List OutgoingFrame}
    {f : OutgoingFrame} {tail : Bytes} (hrun : (system env).run s labels = some s')
    (hopen : (system env).Admits (fun t _ => OpenAt a t) s labels) (hend : OpenAt a s')
    (hstart : (s.connectionBuffers.entries a).getD [] = [])
    (hbytes : labels.flatMap (bytesTo a) = wireBytes serializeMeta fs ++ tail)
    (hfs : ∀ f ∈ fs, Encodable serializeMeta env f) (hf : Encodable serializeMeta env f)
    (htail : tail <+: wireBytes serializeMeta [f]) (hne : tail ≠ wireBytes serializeMeta [f]) :
    s'.handed a = s.handed a ++ fs.map OutgoingFrame.call ∧
      (s'.connectionBuffers.entries a).getD [] = tail := by
  have hbefore : Received env a (s.handed a) [] s := .start hstart
  have hreceived := hbefore.run labels hrun hopen hend
  rw [List.nil_append, hbytes] at hreceived
  have hsplit := split_wireBytes hfs hf htail hne
  constructor
  · rw [hreceived.handed, hsplit]
  · have hcached := hreceived.cached
    rw [hsplit] at hcached
    exact (Option.some.inj hcached).symm

end BinaryRpcServer

/-- The meta of `Echo.Say` as Protobuf writes it. -/
def sayMetaRaw : Bytes := [0x0A, 4, 0x45, 0x63, 0x68, 0x6F, 0x12, 3, 0x53, 0x61, 0x79]

/-- One registered service with one method that takes any body. -/
def echoServices : RpcServices where
  parseMeta metaRaw := if metaRaw = sayMetaRaw then some ⟨"Echo", "Say"⟩ else none
  services name :=
    if name = "Echo" then
      some ⟨fun method => if method = "Say" then some ⟨fun _ => true⟩ else none⟩
    else none

/-- A request of it. -/
def sayFrame (sequenceId : UInt64) (body : Bytes) : OutgoingFrame :=
  ⟨.request, sequenceId, ⟨"Echo", "Say"⟩, body⟩

def sayMeta (info : RpcMeta) : Bytes := if info = ⟨"Echo", "Say"⟩ then sayMetaRaw else []

theorem sayFrame_encodable {sequenceId : UInt64} {body : Bytes} (h : body.length < 2 ^ 32) :
    Encodable sayMeta echoServices (sayFrame sequenceId body) where
  parses := by
    show echoServices.parseMeta (sayMeta ⟨"Echo", "Say"⟩) = some ⟨"Echo", "Say"⟩
    decide
  metaLen := by
    show (sayMeta ⟨"Echo", "Say"⟩).length < 2 ^ 32
    decide
  bodyLen := h

namespace BinaryRpcServer

/-- A server with one new connection. -/
def sayStart : BinaryRpcServer := ((system echoServices).run create [.lifecycle (.connect 7)]).getD create

/-- Two whole requests and a part of a third, cut inside the first header. -/
def sayDeliveries : List RpcServerLabel :=
  let bytes := wireBytes sayMeta [sayFrame 1 [1, 2, 3], sayFrame 2 []] ++
    (wireBytes sayMeta [sayFrame 3 [9]]).take 25
  [.message 7 (bytes.take 13) fun _ => ⟨.keepsDone, false⟩,
    .message 7 (bytes.drop 13) fun _ => ⟨.keepsDone, false⟩]

theorem framing_exact_cutHeader :
    ∃ s' ∈ (system echoServices).run sayStart sayDeliveries,
      s'.handed 7 = [⟨1, ⟨"Echo", "Say"⟩, [1, 2, 3]⟩, ⟨2, ⟨"Echo", "Say"⟩, []⟩] ∧
        (s'.connectionBuffers.entries 7).getD [] = (wireBytes sayMeta [sayFrame 3 [9]]).take 25 := by
  obtain ⟨s', hrun, hend⟩ : ∃ s' ∈ (system echoServices).run sayStart sayDeliveries, OpenAt 7 s' := by
    decide +kernel
  have hopen : (system echoServices).Admits (fun t _ => OpenAt 7 t) sayStart sayDeliveries := by
    decide +kernel
  have hbytes : sayDeliveries.flatMap (bytesTo 7) =
      wireBytes sayMeta [sayFrame 1 [1, 2, 3], sayFrame 2 []] ++
        (wireBytes sayMeta [sayFrame 3 [9]]).take 25 := by
    simp [sayDeliveries, bytesTo]
  have hfs : ∀ f ∈ [sayFrame 1 [1, 2, 3], sayFrame 2 []], Encodable sayMeta echoServices f := by
    intro f hf
    simp only [List.mem_cons, List.not_mem_nil, or_false] at hf
    rcases hf with rfl | rfl
    · exact sayFrame_encodable (by decide)
    · exact sayFrame_encodable (by decide)
  have hstart : (sayStart.connectionBuffers.entries 7).getD [] = [] := by decide
  exact ⟨s', hrun, framing_exact hrun hopen hend hstart hbytes hfs
    (sayFrame_encodable (by decide)) (List.take_prefix _ _) (by decide +kernel)⟩

end BinaryRpcServer

end Tudou
