import Tudou.Foundation.Run
import Tudou.Rpc.RemoteCall

/-!
# JSON-RPC clients and their server

Any number of `JsonRpcClient`s, each with its own connection, and one `JsonRpcServer` whose connections
are all on one loop (`numThreads` at most 1), so that `on_message` runs for one of them at a time.  The
`write` and `read` calls of the clients, the deliveries and the interruptions come in any order, and both
streams of a connection are cut anywhere.

* `JsonRpcEnd` — a client and what is on its connection; `JsonRpcLink` — all of them and the router.
* `Orderly` — no connection breaks, and the requests are values whose text carries.
* `ended_eq_calls` — the steps of a client are the loops of `JsonRpcClient.call`.
-/

namespace Tudou

open Transition

/-- A string literal of the source. -/
local instance : Coe String Bytes := ⟨asciiBytes⟩

/-! ## The model -/

/-- Where a client is in `call`. -/
inductive CallPhase where
  | idle
  /-- In the send loop, with these bytes left. -/
  | writing (seq : UInt64) (request : Json) (unsent : Bytes)
  /-- In the read loop. -/
  | reading (seq : UInt64) (request : Json) (responseBuf : Bytes)

/-- A client, and what is on its connection. -/
structure JsonRpcEnd where
  client : JsonRpcClient
  phase : CallPhase
  /-- What `write` and `read` have returned so far. -/
  results : ClientSocket
  /-- Request bytes the server has not read. -/
  toServer : Bytes
  /-- The buffer of the connection. -/
  connBuf : Bytes
  /-- Response bytes the client has not read. -/
  toClient : Bytes
  /-- The calls so far. -/
  issued : List (Bytes × Json)
  ended : List ClientCall

namespace JsonRpcEnd

def connected : JsonRpcEnd := ⟨.create, .idle, ⟨[], []⟩, [], [], [], [], []⟩

/-- What the calls that have ended returned or threw. -/
def told (e : JsonRpcEnd) : List (Except ClientException Json) := e.ended.map (·.outcome)

/-- The call ends. -/
def finish (e : JsonRpcEnd) (call : ClientCall) : JsonRpcEnd :=
  { e with phase := .idle, ended := e.ended ++ [call] }

@[simp] theorem told_finish (e : JsonRpcEnd) (call : ClientCall) :
    (e.finish call).told = e.told ++ [call.outcome] := by
  simp [told, finish]

section

variable (text : JsonText) (what : JsonException → Bytes)

/-- `call(method, params)`, up to its first `write`. -/
def invoke (e : JsonRpcEnd) (method : Bytes) (params : Json) : Option JsonRpcEnd :=
  match e.phase with
  | .idle =>
    let seq := e.client.nextSequenceId
    let request := JsonRpcClient.buildRequest method params seq
    let e := { e with client := ⟨seq + 1⟩, issued := e.issued ++ [(method, params)] }
    match text.dump request with
    | .error exception => some (e.finish ⟨seq, request, [], .error (.json exception)⟩)
    | .ok requestStr => some { e with phase := .writing seq request (requestStr ++ [newline]) }
  | _ => none

/-- A `write` of the send loop returns. -/
def write (e : JsonRpcEnd) (w : WriteResult) : Option JsonRpcEnd :=
  match e.phase with
  | .writing seq request unsent =>
    let e := { e with results := { e.results with writes := e.results.writes ++ [w] } }
    match w with
    | .failed .eintr => some e
    | .failed _ | .accepted 0 =>
      some (e.finish ⟨seq, request, [],
        .error (.runtimeError "JsonRpcClient: Failed to send request bytes")⟩)
    | .accepted n =>
      if n ≤ unsent.length then
        some { e with
          toServer := e.toServer ++ unsent.take n
          phase := if n = unsent.length then .reading seq request []
            else .writing seq request (unsent.drop n) }
      else none
  | _ => none

/-- A `read` of the read loop returns. -/
def read (e : JsonRpcEnd) (r : ReadResult) : Option JsonRpcEnd :=
  match e.phase with
  | .reading seq request responseBuf =>
    let e := { e with results := { e.results with reads := e.results.reads ++ [r] } }
    match r with
    | .failed .eintr => some e
    | .failed _ | .data [] =>
      some (e.finish ⟨seq, request, responseBuf, .error (.runtimeError
        "JsonRpcClient: Connection closed by remote server while waiting for response")⟩)
    | .data bytes =>
      if bytes <+: e.toClient then
        let e := { e with toClient := e.toClient.drop bytes.length }
        let responseBuf := responseBuf ++ bytes
        if newline ∈ responseBuf then
          some (e.finish ⟨seq, request, responseBuf,
            JsonRpcClient.checkResponse text what seq (JsonRpcClient.responseLine responseBuf)⟩)
        else some { e with phase := .reading seq request responseBuf }
      else none
  | _ => none

end

end JsonRpcEnd

/-- `dispatch` on a line; an exception it lets out would leave `on_message`. -/
def JsonRpcRouter.serve {ω : Type*} (text : JsonText) (r : JsonRpcRouter ω) (requestStr : Bytes) (w : ω) :
    Bytes × ω :=
  ((r.dispatch text requestStr w).1.toOption.getD [], (r.dispatch text requestStr w).2)

structure JsonRpcLink (T ω : Type*) where
  ends : T → JsonRpcEnd
  router : ω
  /-- The connections whose lines were dispatched, in order. -/
  served : List T

inductive JsonLinkLabel (T : Type*) where
  | call (t : T) (method : Bytes) (params : Json)
  | write (t : T) (w : WriteResult)
  /-- The server reads `n` bytes. -/
  | deliver (t : T) (n : Nat)
  | read (t : T) (r : ReadResult)

/-- The client whose connection a step is on. -/
def JsonLinkLabel.client {T : Type*} : JsonLinkLabel T → T
  | call t _ _ | write t _ | deliver t _ | read t _ => t

namespace JsonRpcLink

variable {T ω : Type*} [DecidableEq T]

def setEnd (s : JsonRpcLink T ω) (t : T) (e : JsonRpcEnd) : JsonRpcLink T ω :=
  { s with ends := Function.update s.ends t e }

section

variable (text : JsonText) (what : JsonException → Bytes) (r : JsonRpcRouter ω)

/-- What `on_message` does with the next `n` bytes of a connection. -/
def session (s : JsonRpcLink T ω) (t : T) (n : Nat) : LineSession (ω × List Bytes) :=
  LineSession.onMessage (LineSession.logging (r.serve text))
    ⟨(s.ends t).connBuf, (s.router, []), []⟩ ((s.ends t).toServer.take n)

def onMessage (s : JsonRpcLink T ω) (t : T) (n : Nat) : JsonRpcLink T ω :=
  let session := s.session text r t n
  { s.setEnd t { s.ends t with
      toServer := (s.ends t).toServer.drop n
      connBuf := session.connBuf
      toClient := (s.ends t).toClient ++ session.sent.flatten } with
    router := session.router.1
    served := s.served ++ session.router.2.map fun _ => t }

def step (s : JsonRpcLink T ω) : JsonLinkLabel T → Option (JsonRpcLink T ω)
  | .call t method params => ((s.ends t).invoke text method params).map (s.setEnd t)
  | .write t w => ((s.ends t).write w).map (s.setEnd t)
  | .deliver t n =>
    if 0 < n ∧ n ≤ (s.ends t).toServer.length then some (s.onMessage text r t n) else none
  | .read t r => ((s.ends t).read text what r).map (s.setEnd t)

/-- The clients have just connected. -/
def connected (w : ω) : JsonRpcLink T ω := ⟨fun _ => .connected, w, []⟩

def system (w : ω) : System (JsonRpcLink T ω) (JsonLinkLabel T) := ⟨connected w, step text what r⟩

end

/-- No connection breaks, and the text of a request reads as the request again. -/
def Orderly (text : JsonText) (s : JsonRpcLink T ω) : JsonLinkLabel T → Prop
  | .call t method params =>
    text.Carries (JsonRpcClient.buildRequest method params (s.ends t).client.nextSequenceId)
  | .write _ w => w = .failed .eintr ∨ ∃ n, w = .accepted (n + 1)
  | .read _ r => r = .failed .eintr ∨ ∃ bytes, bytes ≠ [] ∧ r = .data bytes
  | .deliver _ _ => True

end JsonRpcLink

/-! ## The steps of a client are the loops of `call` -/

namespace JsonRpcEnd

open JsonRpcClient (calls call writeAll readLine)

section

variable (text : JsonText) (what : JsonException → Bytes)

/-- The read loop, and the calls after it. -/
def resumeRead (client : JsonRpcClient) (seq : UInt64) (request : Json) (responseBuf : Bytes)
    (requests : List (Bytes × Json)) (socket : ClientSocket) : List ClientCall :=
  match readLine responseBuf socket.reads with
  | none => []
  | some (responseBuf, false, reads) =>
    ⟨seq, request, responseBuf, .error (.runtimeError
      "JsonRpcClient: Connection closed by remote server while waiting for response")⟩ ::
      calls text what requests client ⟨socket.writes, reads⟩
  | some (responseBuf, true, reads) =>
    ⟨seq, request, responseBuf, JsonRpcClient.checkResponse text what seq
      (JsonRpcClient.responseLine responseBuf)⟩ :: calls text what requests client ⟨socket.writes, reads⟩

/-- The calls that end from here on, where the client goes on with `requests`. -/
def resume (e : JsonRpcEnd) (requests : List (Bytes × Json)) (socket : ClientSocket) : List ClientCall :=
  match e.phase with
  | .idle => calls text what requests e.client socket
  | .writing seq request unsent =>
    match writeAll unsent.length socket.writes with
    | none => []
    | some (false, writes) =>
      ⟨seq, request, [], .error (.runtimeError "JsonRpcClient: Failed to send request bytes")⟩ ::
        calls text what requests e.client { socket with writes := writes }
    | some (true, writes) =>
      resumeRead text what e.client seq request [] requests { socket with writes := writes }
  | .reading seq request responseBuf => resumeRead text what e.client seq request responseBuf requests socket

/-- The results so far take `calls` to where the client is. -/
structure Follows (e : JsonRpcEnd) : Prop where
  unsent : ∀ {seq request unsent}, e.phase = .writing seq request unsent → unsent ≠ []
  calls : ∀ requests (socket : ClientSocket), calls text what (e.issued ++ requests) .create
      ⟨e.results.writes ++ socket.writes, e.results.reads ++ socket.reads⟩ =
    e.ended ++ e.resume text what requests socket

end

theorem writeAll_failed {errno : Errno} (h : errno ≠ .eintr) (left : Nat) (writes : List WriteResult) :
    writeAll (left + 1) (.failed errno :: writes) = some (false, writes) := by
  cases errno with
  | eintr => exact absurd rfl h
  | eagain | other _ => rfl

theorem readLine_failed {errno : Errno} (h : errno ≠ .eintr) (responseBuf : Bytes)
    (reads : List ReadResult) :
    readLine responseBuf (.failed errno :: reads) = some (responseBuf, false, reads) := by
  cases errno with
  | eintr => exact absurd rfl h
  | eagain | other _ => rfl

theorem readLine_data {bytes : Bytes} (h : bytes ≠ []) (responseBuf : Bytes) (reads : List ReadResult) :
    readLine responseBuf (.data bytes :: reads) =
      if newline ∈ responseBuf ++ bytes then some (responseBuf ++ bytes, true, reads)
      else readLine (responseBuf ++ bytes) reads := by
  cases bytes with
  | nil => exact absurd rfl h
  | cons b bs => rfl

variable {text : JsonText} {what : JsonException → Bytes} {e e' : JsonRpcEnd}

theorem Follows.connected : connected.Follows text what where
  unsent h := by cases h
  calls _ _ := rfl

theorem Follows.invoke (h : e.Follows text what) {method : Bytes} {params : Json}
    (hs : e.invoke text method params = some e') : e'.Follows text what := by
  unfold JsonRpcEnd.invoke at hs
  split at hs
  · rename_i hidle
    have hcalls := fun requests socket => h.calls ((method, params) :: requests) socket
    simp only [resume, hidle, JsonRpcClient.calls, JsonRpcClient.call] at hcalls
    simp only at hs
    split at hs
    · rename_i exception hdump
      cases hs
      refine ⟨fun hphase => (by cases hphase), fun requests socket => ?_⟩
      simp only [finish, List.append_assoc, List.cons_append, List.nil_append, hcalls, hdump, resume]
    · rename_i requestStr hdump
      cases hs
      refine ⟨fun hphase => ?_, fun requests socket => ?_⟩
      · cases hphase
        exact List.concat_ne_nil _ _
      simp only [List.append_assoc, List.cons_append, List.nil_append, hcalls, hdump, resume,
        List.length_append, List.length_singleton]
      congr 1
      cases writeAll (requestStr.length + 1) socket.writes with
      | none => rfl
      | some sent =>
        obtain ⟨ok, writes⟩ := sent
        cases ok with
        | false => rfl
        | true =>
          simp only [resumeRead]
          cases readLine [] socket.reads with
          | none => rfl
          | some line =>
            obtain ⟨responseBuf, found, reads⟩ := line
            cases found with
            | false => rfl
            | true => rfl
  · cases hs

theorem Follows.write (h : e.Follows text what) {w : WriteResult} (hs : e.write w = some e') :
    e'.Follows text what := by
  unfold JsonRpcEnd.write at hs
  split at hs
  · rename_i seq request unsent hphase
    have hne := h.unsent hphase
    obtain ⟨left, hleft⟩ := Nat.exists_eq_add_one_of_ne_zero
      (mt List.length_eq_zero_iff.mp hne)
    have hcalls := fun requests (socket : ClientSocket) =>
      h.calls requests { socket with writes := w :: socket.writes }
    simp only [resume, hphase, hleft] at hcalls
    simp only at hs
    split at hs
    · cases hs
      refine ⟨fun heq => h.unsent heq, fun requests socket => ?_⟩
      simp only [List.append_assoc, List.cons_append, List.nil_append, hcalls, resume, hphase, hleft,
        writeAll]
    · rename_i hfatal
      cases hs
      refine ⟨fun heq => (by cases heq), fun requests socket => ?_⟩
      simp only [finish, List.append_assoc, List.cons_append, List.nil_append, hcalls, resume,
        writeAll_failed hfatal]
    · cases hs
      refine ⟨fun heq => (by cases heq), fun requests socket => ?_⟩
      simp only [finish, List.append_assoc, List.cons_append, List.nil_append, hcalls, resume, writeAll]
    · rename_i n hn
      split at hs
      · rename_i hle
        cases hs
        have hpos : n ≠ 0 := fun hzero => hn hzero
        obtain ⟨m, rfl⟩ := Nat.exists_eq_add_one_of_ne_zero hpos
        refine ⟨fun heq => ?_, fun requests socket => ?_⟩
        · simp only at heq
          split at heq
          · cases heq
          · rename_i hne
            cases heq
            intro hnil
            have hlen := congrArg List.length hnil
            rw [List.length_drop, List.length_nil] at hlen
            omega
        · simp only [List.append_assoc, List.cons_append, List.nil_append, hcalls, resume, writeAll]
          by_cases hall : m + 1 = unsent.length
          · have hzero : left - m = 0 := by omega
            simp only [if_pos hall, hzero, writeAll]
          · have hrest : (unsent.drop (m + 1)).length = left - m := by
              rw [List.length_drop]
              omega
            simp only [if_neg hall, hrest]
      · cases hs
  · cases hs

theorem Follows.read (h : e.Follows text what) {r : ReadResult} (hs : e.read text what r = some e') :
    e'.Follows text what := by
  unfold JsonRpcEnd.read at hs
  split at hs
  · rename_i seq request responseBuf hphase
    have hcalls := fun requests (socket : ClientSocket) =>
      h.calls requests { socket with reads := r :: socket.reads }
    simp only [resume, hphase] at hcalls
    simp only at hs
    split at hs
    · cases hs
      refine ⟨fun heq => h.unsent heq, fun requests socket => ?_⟩
      simp only [List.append_assoc, List.cons_append, List.nil_append, hcalls, resume, hphase,
        resumeRead, readLine]
    · rename_i hfatal
      cases hs
      refine ⟨fun heq => (by cases heq), fun requests socket => ?_⟩
      simp only [finish, List.append_assoc, List.cons_append, List.nil_append, hcalls, resume,
        resumeRead, readLine_failed hfatal]
    · cases hs
      refine ⟨fun heq => (by cases heq), fun requests socket => ?_⟩
      simp only [finish, List.append_assoc, List.cons_append, List.nil_append, hcalls, resume,
        resumeRead, readLine]
    · rename_i bytes hbytes
      simp only [resumeRead, readLine_data (fun heq => hbytes heq)] at hcalls
      split at hs
      · split at hs
        · rename_i hmem
          cases hs
          refine ⟨fun heq => (by cases heq), fun requests socket => ?_⟩
          simp only [finish, List.append_assoc, List.cons_append, List.nil_append, hcalls, resume,
            if_pos hmem]
        · rename_i hmem
          cases hs
          refine ⟨fun heq => (by cases heq), fun requests socket => ?_⟩
          simp only [List.append_assoc, List.cons_append, List.nil_append, hcalls, resume,
            resumeRead, if_neg hmem]
      · cases hs
  · cases hs

/-- The bytes the server reads are no business of the client's loops. -/
theorem Follows.congr (h : e.Follows text what) (hclient : e'.client = e.client)
    (hphase : e'.phase = e.phase) (hresults : e'.results = e.results) (hissued : e'.issued = e.issued)
    (hended : e'.ended = e.ended) : e'.Follows text what where
  unsent heq := h.unsent (hphase ▸ heq)
  calls requests socket := by
    rw [hissued, hresults, hended, h.calls]
    simp only [resume, hphase, hclient]

/-- **With the results so far, `calls` ends the calls that have ended.** -/
theorem Follows.ended (h : e.Follows text what) :
    JsonRpcClient.calls text what e.issued .create e.results = e.ended := by
  have hcalls := h.calls [] ⟨[], []⟩
  rw [List.append_nil, List.append_nil, List.append_nil] at hcalls
  rw [hcalls]
  unfold resume
  split
  · exact List.append_nil _
  · rename_i unsent hphase
    obtain ⟨left, hleft⟩ := Nat.exists_eq_add_one_of_ne_zero
      (mt List.length_eq_zero_iff.mp (h.unsent hphase))
    simp only [hleft, writeAll, List.append_nil]
  · simp only [resumeRead, readLine, List.append_nil]

end JsonRpcEnd

namespace JsonRpcLink

variable {T ω : Type*} [DecidableEq T] {text : JsonText} {what : JsonException → Bytes}
  {r : JsonRpcRouter ω} {w₀ : ω} {s s' : JsonRpcLink T ω}

@[simp] theorem ends_setEnd_self (s : JsonRpcLink T ω) (t : T) (e : JsonRpcEnd) :
    (s.setEnd t e).ends t = e := by
  show Function.update s.ends t e t = e
  rw [Function.update_self]

theorem ends_setEnd_of_ne (s : JsonRpcLink T ω) {t t' : T} (h : t' ≠ t) (e : JsonRpcEnd) :
    (s.setEnd t e).ends t' = s.ends t' := by
  show Function.update s.ends t e t' = s.ends t'
  rw [Function.update_of_ne h]

theorem ends_onMessage_self (s : JsonRpcLink T ω) (t : T) (n : Nat) :
    (s.onMessage text r t n).ends t = { s.ends t with
      toServer := (s.ends t).toServer.drop n
      connBuf := (s.session text r t n).connBuf
      toClient := (s.ends t).toClient ++ (s.session text r t n).sent.flatten } :=
  ends_setEnd_self s t _

/-- A step is on the connection of one client. -/
theorem ends_step_of_ne {l : JsonLinkLabel T} (hs : s.step text what r l = some s') {t : T}
    (h : t ≠ l.client) : s'.ends t = s.ends t := by
  cases l with
  | call t' method params =>
    obtain ⟨e, -, rfl⟩ := Option.map_eq_some_iff.mp hs
    exact ends_setEnd_of_ne s h e
  | write t' w =>
    obtain ⟨e, -, rfl⟩ := Option.map_eq_some_iff.mp hs
    exact ends_setEnd_of_ne s h e
  | deliver t' n =>
    simp only [step] at hs
    split at hs
    · cases hs
      exact ends_setEnd_of_ne s h _
    · cases hs
  | read t' r =>
    obtain ⟨e, -, rfl⟩ := Option.map_eq_some_iff.mp hs
    exact ends_setEnd_of_ne s h e

/-- **The steps of a client are the loops of `JsonRpcClient.call`**: in every state reached, its calls so
far end as `calls` says for what `write` and `read` have returned. -/
theorem ended_eq_calls (h : (system text what r w₀).Reachable s) (t : T) :
    JsonRpcClient.calls text what (s.ends t).issued .create (s.ends t).results = (s.ends t).ended := by
  have hfollows : ∀ t : T, (s.ends t).Follows text what := by
    refine h.invariant (I := fun s => ∀ t, (s.ends t).Follows text what) (fun _ => .connected) ?_
    intro s l s' hI _ hs t
    by_cases ht : t = l.client
    · subst ht
      cases l with
      | call t method params =>
        obtain ⟨e, he, rfl⟩ := Option.map_eq_some_iff.mp hs
        rw [JsonLinkLabel.client, ends_setEnd_self]
        exact (hI t).invoke he
      | write t w =>
        obtain ⟨e, he, rfl⟩ := Option.map_eq_some_iff.mp hs
        rw [JsonLinkLabel.client, ends_setEnd_self]
        exact (hI t).write he
      | deliver t n =>
        simp only [system, step] at hs
        split at hs
        · cases hs
          rw [JsonLinkLabel.client, ends_onMessage_self]
          exact (hI t).congr rfl rfl rfl rfl rfl
        · cases hs
      | read t r =>
        obtain ⟨e, he, rfl⟩ := Option.map_eq_some_iff.mp hs
        rw [JsonLinkLabel.client, ends_setEnd_self]
        exact (hI t).read he
    · rw [ends_step_of_ne hs ht]
      exact hI t
  exact (hfollows t).ended

end JsonRpcLink

end Tudou
