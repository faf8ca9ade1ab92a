import Tudou.Http.HttpServer
import Tudou.Rpc.BinaryRpcServer
import Tudou.Rpc.JsonRpcServer

/-!
# The tables of the servers follow the connections

`BinaryRpcServer`, `JsonRpcServer` and `HttpServer` keep something for each connection under its
address, and erase it in the close callback.

* `Tracks` — entries are those of open connections, no erased entry was used, and a new connection
  starts with what `on_connect` makes for it.
* `Calm` — per server, the steps that keep this: deliveries to open connections whose sends succeed
  (for `HttpServer`, any), and a shutdown that finds no entry.
* `servers_track_connections` — **in runs of calm steps the three tables follow the connections**.
* `tables_left_behind` — what a delivery to a closed connection, a send that closes inside
  `on_message`, and a shutdown do.
-/

namespace Tudou

open Transition

/-- The table says what is open, and a connection starts afresh. -/
structure Tracks {E : Type*} (fresh : Option E) (t : ConnectionTable E) : Prop where
  follows : t.Follows
  starts : ∀ {a t'}, t.connect a fresh = some t' → t'.entries a = fresh

theorem Tracks.of_follows {E : Type*} {fresh : Option E} {t : ConnectionTable E} (h : t.Follows) :
    Tracks fresh t := ⟨h, fun hc => h.connect_entries hc⟩

/-! ## `BinaryRpcServer` -/

namespace BinaryRpcServer

/-- The service answers this request before it returns. -/
def RepliesAtOnce (env : RpcServices) (call : RpcCall) (answer : Answer) : Prop :=
  call.Callable env ∧ ∃ response, answer.outcome = .runsDone response

/-- No send made while these requests are served closes the connection. -/
def SendsSucceed (env : RpcServices) (answers : Nat → Answer) (n : Nat) (calls : List RpcCall) : Prop :=
  ∀ k call, calls[k]? = some call → RepliesAtOnce env call (answers (n + k)) →
    (answers (n + k)).closes = false

/-- Either the delivery ends in a corrupt frame, after which the cache is not used any more, or the
connection is open and stays so. -/
def Undisturbed (env : RpcServices) (s : BinaryRpcServer) (a : Nat) (data : Bytes)
    (answers : Nat → Answer) : Prop :=
  let out := (requestFrames env).split ((s.connectionBuffers.entries a).getD [] ++ data)
  out.2 = none ∨
    s.connectionBuffers.status a = .open ∧ SendsSucceed env answers s.requests.length out.1

/-- Steps that keep the table in line with the connections. -/
def Calm (env : RpcServices) (s : BinaryRpcServer) : RpcServerLabel → Prop
  | .lifecycle l => l = .shutdown → ∀ a, s.connectionBuffers.entries a = none
  | .message a data answers => data ≠ [] → s.Undisturbed env a data answers
  | .runDone .. => True

theorem buffers_serve_of_succeed {env : RpcServices} {a : Nat} {answers : Nat → Answer}
    {s : BinaryRpcServer} {call : RpcCall}
    (h : RepliesAtOnce env call (answers s.requests.length) → (answers s.requests.length).closes = false) :
    (serve env a answers s call).connectionBuffers = s.connectionBuffers := by
  unfold serve
  simp only
  by_cases hcall : call.Callable env
  · rw [BinaryRpcRouter.dispatch_of_callable hcall]
    cases hout : (answers s.requests.length).outcome with
    | runsDone response =>
      have hcloses := h ⟨hcall, response, hout⟩
      simp only [reply, hcloses, Bool.false_eq_true, if_false]
      split <;> rfl
    | keepsDone => rfl
    | throws what => rfl
  · obtain ⟨what, hdispatch⟩ :=
      BinaryRpcRouter.dispatch_of_not_callable hcall (answers s.requests.length).outcome
    rw [hdispatch]
    rfl

/-- The loop leaves the table alone. -/
theorem buffers_all_of_succeed {env : RpcServices} {a : Nat} {answers : Nat → Answer}
    {calls : List RpcCall} {s : BinaryRpcServer}
    (h : SendsSucceed env answers s.requests.length calls) :
    (calls.foldl (serve env a answers) s).connectionBuffers = s.connectionBuffers := by
  induction calls generalizing s with
  | nil => rfl
  | cons call calls ih =>
    have hfirst := buffers_serve_of_succeed (a := a) (h 0 call rfl)
    rw [List.foldl_cons, ih, hfirst]
    intro k call' hk hreplies
    rw [requests_serve, List.length_append, List.length_singleton, Nat.add_assoc, Nat.add_comm 1 k]
      at hreplies ⊢
    exact h (k + 1) call' hk hreplies

theorem follows_onMessage {env : RpcServices} {s : BinaryRpcServer} {a : Nat} {data : Bytes}
    {answers : Nat → Answer} (h : s.connectionBuffers.Follows)
    (hm : data ≠ [] → s.Undisturbed env a data answers) :
    (s.onMessage env a data answers).connectionBuffers.Follows := by
  by_cases hdata : data = []
  · rw [onMessage, if_pos hdata]
    exact h
  rw [onMessage_spec env a answers s hdata]
  set out := (requestFrames env).split ((s.connectionBuffers.entries a).getD [] ++ data)
  have hcached : (s.extendCache a data).connectionBuffers =
      s.connectionBuffers.store a ((s.connectionBuffers.entries a).getD [] ++ data) := rfl
  split
  · -- the connection is dropped, whether or not a send closed it before
    have hclosed : (out.1.foldl (serve env a answers) (s.extendCache a data)).connectionBuffers.close a =
        (s.extendCache a data).connectionBuffers.close a := by
      rcases (Served.all env a answers out.1 (s.extendCache a data)).buffers with ht | ht
      · rw [ht]
      · rw [ht, ConnectionTable.close_close]
    simp only [hclosed, hcached]
    exact h.forget a _
  · rename_i rest hrest
    rcases hm hdata with hnone | ⟨hopen, hsends⟩
    · exact absurd (hnone.symm.trans hrest) (Option.some_ne_none rest).symm
    · have hsame : (out.1.foldl (serve env a answers) (s.extendCache a data)).connectionBuffers =
          (s.extendCache a data).connectionBuffers := buffers_all_of_succeed hsends
      simp only [hsame, hcached]
      refine (h.store hopen _).assign ?_ rest
      rw [ConnectionTable.entries_store_self]
      exact Option.some_ne_none _

theorem follows_step {env : RpcServices} {s s' : BinaryRpcServer} {l : RpcServerLabel}
    (h : s.connectionBuffers.Follows) (hcalm : Calm env s l) (hs : step env s l = some s') :
    s'.connectionBuffers.Follows := by
  rcases step_cases hs with ⟨a, data, answers, rfl, rfl⟩ |
    ⟨i, q, response, closes, rfl, -, -, rfl⟩ | ⟨c, t, rfl, ht, rfl⟩
  · exact follows_onMessage h hcalm
  · rcases buffers_reply { s with outstanding := s.outstanding.erase i } i q
      (BinaryRpcClosure.run response) closes with ht | ht
    · rw [ht]
      exact h
    · rw [ht]
      exact h.close q.conn
  · exact h.lifecycle ht hcalm

end BinaryRpcServer

/-! ## `JsonRpcServer` -/

namespace JsonRpcServer

def Calm (dispatch : Bytes → Bytes) (s : JsonRpcServer) : JsonServerLabel → Prop
  | .lifecycle l => l = .shutdown → ∀ a, s.connectionBuffers.entries a = none
  | .message a data closes => data ≠ [] → s.Undisturbed dispatch a data closes

theorem follows_step {dispatch : Bytes → Bytes} {s s' : JsonRpcServer} {l : JsonServerLabel}
    (h : s.connectionBuffers.Follows) (hcalm : Calm dispatch s l) (hs : step dispatch s l = some s') :
    s'.connectionBuffers.Follows := by
  cases l with
  | lifecycle c =>
    obtain ⟨t, ht, rfl⟩ := Option.map_eq_some_iff.mp hs
    exact h.lifecycle ht hcalm
  | message a data closes =>
    simp only [step] at hs
    split at hs
    · cases hs
      exact follows_onMessage h hcalm
    · cases hs

end JsonRpcServer

/-! ## `HttpServer` -/

namespace HttpServer

variable {σ : Type*} {http : HttpProtocol σ}

def Calm (s : HttpServer σ) : HttpServerLabel → Prop
  | .lifecycle l => l = .shutdown → ∀ a, s.connectionStates.entries a = none
  | .message .. => True

theorem follows_step {s s' : HttpServer σ} {l : HttpServerLabel} (h : s.connectionStates.Follows)
    (hcalm : Calm s l) (hs : step http s l = some s') : s'.connectionStates.Follows := by
  cases l with
  | lifecycle c =>
    obtain ⟨t, ht, rfl⟩ := Option.map_eq_some_iff.mp hs
    exact h.lifecycle ht hcalm
  | message a data closes =>
    simp only [step] at hs
    split at hs
    · cases hs
      exact follows_onMessage http h a data closes
    · cases hs

end HttpServer

/-! ## Runs -/

/-- **In runs of calm steps the tables follow the connections**: an entry belongs to an open
connection, a new connection starts afresh at whatever address, and no reference outlives its entry. -/
theorem servers_track_connections {σ : Type*} (env : RpcServices) (dispatch : Bytes → Bytes)
    (http : HttpProtocol σ) :
    (∀ s, (BinaryRpcServer.system env).Reaches (BinaryRpcServer.Calm env) s →
      Tracks none s.connectionBuffers) ∧
    (∀ s, (JsonRpcServer.system dispatch).Reaches (JsonRpcServer.Calm dispatch) s →
      Tracks none s.connectionBuffers) ∧
    (∀ s, (HttpServer.system http).Reaches HttpServer.Calm s →
      Tracks (some http.fresh) s.connectionStates) := by
  refine ⟨fun s hs => .of_follows ?_, fun s hs => .of_follows ?_, fun s hs => .of_follows ?_⟩
  · refine hs.invariant (I := fun s => s.connectionBuffers.Follows) .create ?_
    intro s l s' h hcalm hstep
    exact BinaryRpcServer.follows_step h hcalm hstep
  · refine hs.invariant (I := fun s => s.connectionBuffers.Follows) .create ?_
    intro s l s' h hcalm hstep
    exact JsonRpcServer.follows_step h hcalm hstep
  · refine hs.invariant (I := fun s => s.connectionStates.Follows) .create ?_
    intro s l s' h hcalm hstep
    exact HttpServer.follows_step h hcalm hstep

/-- A parser that only keeps what it gets. -/
def collecting : HttpProtocol Bytes := ⟨[], fun state data => state ++ data⟩

def oneLineClient : JsonRpcServer :=
  ((JsonRpcServer.system id).run .create [.lifecycle (.connect 7)]).getD .create

def oneHttpClient : HttpServer Bytes :=
  ((HttpServer.system collecting).run .create [.lifecycle (.connect 7)]).getD .create

def sayDelivery : RpcServerLabel :=
  .message 7 (wireBytes sayMeta [sayFrame 1 [1, 2, 3]]) fun _ => ⟨.keepsDone, false⟩

def lineDelivery : JsonServerLabel := .message 7 [49, newline] fun _ => false

/-- One delivery to the one connection of each server; the HTTP reply closes it. -/
theorem servers_track_connections_oneDelivery :
    (∃ s, BinaryRpcServer.step echoServices BinaryRpcServer.sayStart sayDelivery = some s ∧
      Tracks none s.connectionBuffers) ∧
    (∃ s, JsonRpcServer.step id oneLineClient lineDelivery = some s ∧
      Tracks none s.connectionBuffers) ∧
    (∃ s, HttpServer.step collecting oneHttpClient (.message 7 [71] true) = some s ∧
      Tracks (some []) s.connectionStates) := by
  obtain ⟨hbinary, hjson, hhttp⟩ := servers_track_connections echoServices id collecting
  refine ⟨?_, ?_, ?_⟩
  · obtain ⟨s, hs, -⟩ : ∃ s ∈ BinaryRpcServer.step echoServices BinaryRpcServer.sayStart sayDelivery,
        BinaryRpcServer.OpenAt 7 s := by decide +kernel
    have hstart : (BinaryRpcServer.system echoServices).Reaches (BinaryRpcServer.Calm echoServices)
        BinaryRpcServer.sayStart := .step (a := .lifecycle (.connect 7)) .init (fun h => by cases h) rfl
    have hcalm : BinaryRpcServer.Calm echoServices BinaryRpcServer.sayStart sayDelivery :=
      fun _ => .inr ⟨rfl, fun _ _ _ _ => rfl⟩
    exact ⟨s, hs, hbinary s (hstart.step hcalm hs)⟩
  · obtain ⟨s, hs, -⟩ : ∃ s ∈ JsonRpcServer.step id oneLineClient lineDelivery,
        s.connectionBuffers.usedErased = false := by decide +kernel
    have hstart : (JsonRpcServer.system id).Reaches (JsonRpcServer.Calm id) oneLineClient :=
      .step (a := .lifecycle (.connect 7)) .init (fun h => by cases h) rfl
    have hcalm : JsonRpcServer.Calm id oneLineClient lineDelivery :=
      fun _ => ⟨rfl, fun _ _ => rfl⟩
    exact ⟨s, hs, hjson s (hstart.step hcalm hs)⟩
  · obtain ⟨s, hs, -⟩ : ∃ s ∈ HttpServer.step collecting oneHttpClient (.message 7 [71] true),
        s.connectionStates.entries 7 = none := by decide +kernel
    have hstart : (HttpServer.system collecting).Reaches HttpServer.Calm oneHttpClient :=
      .step (a := .lifecycle (.connect 7)) .init (fun h => by cases h) rfl
    exact ⟨s, hs, hhttp s (hstart.step (a := .message 7 [71] true) trivial hs)⟩

/-- **What unguarded runs leave behind.** A delivery to a closed connection stores bytes for the next
connection at its address; a send that closes the connection inside `on_message` leaves the loop
with a reference to nothing, in both RPC servers; a shutdown leaves the state of every open
connection. -/
theorem tables_left_behind :
    (∃ s, (BinaryRpcServer.system echoServices).Reachable s ∧
      s.connectionBuffers.status 7 = .open ∧ s.requests.length = 0 ∧
        s.connectionBuffers.entries 7 = some [0x54]) ∧
    (∃ s, (BinaryRpcServer.system echoServices).Reachable s ∧ s.connectionBuffers.usedErased = true) ∧
    (∃ s, (JsonRpcServer.system id).Reachable s ∧ s.connectionBuffers.usedErased = true) ∧
    (∃ s, (HttpServer.system collecting).Reachable s ∧
      s.connectionStates.status 7 = .closed ∧ s.connectionStates.entries 7 = some []) := by
  refine ⟨?_, ?_, ?_, ?_⟩
  · obtain ⟨s, hs, h⟩ : ∃ s ∈ (BinaryRpcServer.system echoServices).run .create
        [.lifecycle (.connect 7), .lifecycle (.close 7),
          .message 7 [0x54] fun _ => ⟨.keepsDone, false⟩, .lifecycle (.destroy 7),
          .lifecycle (.connect 7)],
        s.connectionBuffers.status 7 = .open ∧ s.requests.length = 0 ∧
          s.connectionBuffers.entries 7 = some [0x54] := by decide +kernel
    exact ⟨s, .of_run _ hs, h⟩
  · obtain ⟨s, hs, h⟩ : ∃ s ∈ (BinaryRpcServer.system echoServices).run .create
        [.lifecycle (.connect 7), .message 7 (wireBytes sayMeta [sayFrame 1 [1, 2, 3]])
          fun _ => ⟨.runsDone none, true⟩],
        s.connectionBuffers.usedErased = true := by decide +kernel
    exact ⟨s, .of_run _ hs, h⟩
  · obtain ⟨s, hs, h⟩ : ∃ s ∈ (JsonRpcServer.system id).run .create
        [.lifecycle (.connect 7), .message 7 [49, newline] fun _ => true],
        s.connectionBuffers.usedErased = true := by decide +kernel
    exact ⟨s, .of_run _ hs, h⟩
  · obtain ⟨s, hs, h⟩ : ∃ s ∈ (HttpServer.system collecting).run .create
        [.lifecycle (.connect 7), .lifecycle .shutdown],
        s.connectionStates.status 7 = .closed ∧ s.connectionStates.entries 7 = some [] := by
      decide +kernel
    exact ⟨s, .of_run _ hs, h⟩

end Tudou
