import Tudou.Rpc.BinaryRpcServer

/-!
# Which binary RPC requests are answered

A request is answered by the `done` closure its service runs, and by nothing else: what `dispatch`
throws is caught in `on_message` and logged.

* `Ledger` — outstanding closures and responses belong to requests that were received.
* `Settled` — a request is answered once, or its `done` is outstanding, or it cannot be answered.
* `Accounts.step` — every step keeps the requests of an open connection settled.
* `answered_iff` — **a request whose `done` is no longer held was answered, exactly once and with its
  sequence id, if and only if its service and method exist, its body parses and its service does not
  throw**; `unknown_service_unanswered` is a request that gets no response.
-/

namespace Tudou

open Transition

/-- A frame a client takes for the response to `sequenceId`. -/
def IsResponse (sequenceId : UInt64) (bytes : Bytes) : Prop :=
  ∃ f : RpcFrame, f.WellFormed ∧ f.header.type = RpcMessageType.response.toByte ∧
    f.header.sequenceId = sequenceId ∧ bytes = f.bytes

theorem BinaryRpcClosure.length_run (response : Option Serialized) : (run response).length < 2 ^ 31 := by
  cases response with
  | none => exact Nat.two_pow_pos 31
  | some responseRaw => exact responseRaw.2

/-- **Whatever a service answers, the frame echoes the sequence id.** -/
theorem isResponse_responseFrame (sequenceId : UInt64) (response : Option Serialized) :
    IsResponse sequenceId (responseFrame sequenceId (BinaryRpcClosure.run response)) := by
  have hlen := BinaryRpcClosure.length_run response
  refine ⟨.of .response sequenceId [] (BinaryRpcClosure.run response), ?_, rfl, rfl, ?_⟩
  · exact RpcFrame.wellFormed_of (Nat.two_pow_pos 32) (Nat.lt_trans hlen (by decide))
  · rw [responseFrame, Buffer.readAllFromBuffer_fst, BinaryRpcCodec.readable_encode,
      Buffer.readable_empty, List.nil_append]

/-- The router finds the method, the body parses, and the service does not throw. -/
def RpcRequest.Answerable (env : RpcServices) (q : RpcRequest) : Prop :=
  q.call.Callable env ∧ ∀ what, q.outcome ≠ .throws what

namespace BinaryRpcServer

/-- What was sent in answer to request `i`. -/
def responsesTo (s : BinaryRpcServer) (i : Nat) : List Bytes :=
  (s.responses.filter fun r => r.1 = i).map Prod.snd

/-- Exactly one response, with the request's sequence id. -/
def Answered (s : BinaryRpcServer) (i : Nat) (q : RpcRequest) : Prop :=
  ∃ frame, s.responsesTo i = [frame] ∧ IsResponse q.call.sequenceId frame

/-- Closures and responses are those of requests that were received. -/
structure Ledger (s : BinaryRpcServer) : Prop where
  outstanding_lt : ∀ i ∈ s.outstanding, i < s.requests.length
  nodup : s.outstanding.Nodup
  responses_lt : ∀ r ∈ s.responses, r.1 < s.requests.length

/-- Where request `i` stands. -/
inductive Settled (env : RpcServices) (s : BinaryRpcServer) (i : Nat) (q : RpcRequest) : Prop
  | answered (hq : q.Answerable env) (hdone : i ∉ s.outstanding) (h : s.Answered i q)
  | outstanding (hq : q.Answerable env) (hheld : i ∈ s.outstanding) (h : s.responsesTo i = [])
  | unanswerable (hq : ¬ q.Answerable env) (hdone : i ∉ s.outstanding) (h : s.responsesTo i = [])

/-- While the connection at `a` is open, its requests from number `n` on are settled. -/
structure Accounts (env : RpcServices) (a n : Nat) (s : BinaryRpcServer) : Prop where
  ledger : s.Ledger
  settled : OpenAt a s → ∀ {i q}, n ≤ i → s.requests[i]? = some q → q.conn = a → Settled env s i q

/-! ## `send` of a response -/

section Reply

variable (s : BinaryRpcServer) (i : Nat) (q : RpcRequest) (responseRaw : Bytes) (closes : Bool)

@[simp] theorem outstanding_reply : (s.reply i q responseRaw closes).outstanding = s.outstanding := by
  unfold reply
  split
  · split <;> rfl
  · rfl

/-- A response is recorded for its request, or the connection is closed. -/
theorem responses_reply :
    (s.reply i q responseRaw closes).responses =
        s.responses ++ [(i, responseFrame q.call.sequenceId responseRaw)] ∨
      (s.reply i q responseRaw closes).responses = s.responses ∧
        ¬ OpenAt q.conn (s.reply i q responseRaw closes) := by
  unfold reply
  split
  · split
    · exact .inr ⟨rfl, ConnectionTable.status_close_self_ne _ _⟩
    · exact .inl rfl
  · exact .inr ⟨rfl, by assumption⟩

theorem openAt_of_reply {a : Nat} (h : OpenAt a (s.reply i q responseRaw closes)) : OpenAt a s := by
  rcases buffers_reply s i q responseRaw closes with ht | ht
  · rwa [OpenAt, ht] at h
  · rw [OpenAt, ht] at h
    exact ConnectionTable.open_of_close h

theorem responsesTo_reply_of_ne {j : Nat} (h : j ≠ i) :
    (s.reply i q responseRaw closes).responsesTo j = s.responsesTo j := by
  rcases responses_reply s i q responseRaw closes with hr | ⟨hr, -⟩
  · simp [responsesTo, hr, h.symm]
  · rw [responsesTo, hr]
    rfl

theorem responsesTo_reply_self (h : OpenAt q.conn (s.reply i q responseRaw closes)) :
    (s.reply i q responseRaw closes).responsesTo i =
      s.responsesTo i ++ [responseFrame q.call.sequenceId responseRaw] := by
  rcases responses_reply s i q responseRaw closes with hr | ⟨-, hclosed⟩
  · simp [responsesTo, hr]
  · exact absurd h hclosed

end Reply

theorem Ledger.create : create.Ledger := by
  refine ⟨?_, List.nodup_nil, ?_⟩
  · intro i hi
    cases hi
  · intro r hr
    cases hr

theorem Ledger.reply {s : BinaryRpcServer} (h : s.Ledger) {i : Nat} (hi : i < s.requests.length)
    (q : RpcRequest) (responseRaw : Bytes) (closes : Bool) : (s.reply i q responseRaw closes).Ledger where
  outstanding_lt := by simpa using h.outstanding_lt
  nodup := by simpa using h.nodup
  responses_lt := by
    rw [requests_reply]
    rcases responses_reply s i q responseRaw closes with hr | ⟨hr, -⟩
    · rw [hr]
      intro r hmem
      rcases List.mem_append.mp hmem with hmem | hmem
      · exact h.responses_lt r hmem
      · rw [List.mem_singleton.mp hmem]
        exact hi
    · rw [hr]
      exact h.responses_lt

/-- A request is received. -/
theorem Ledger.receive {s : BinaryRpcServer} (h : s.Ledger) (q : RpcRequest) :
    (s.receive q).Ledger where
  outstanding_lt i hi := by
    have hlt := h.outstanding_lt i hi
    simp only [BinaryRpcServer.receive, List.length_append, List.length_singleton]
    omega
  nodup := h.nodup
  responses_lt r hr := by
    have hlt := h.responses_lt r hr
    simp only [BinaryRpcServer.receive, List.length_append, List.length_singleton]
    omega

theorem Ledger.responsesTo_length {s : BinaryRpcServer} (h : s.Ledger) :
    s.responsesTo s.requests.length = [] := by
  have hnone : s.responses.filter (fun r => r.1 = s.requests.length) = [] := by
    apply List.filter_eq_nil_iff.mpr
    intro r hr
    have hlt := h.responses_lt r hr
    simp only [decide_eq_true_eq]
    omega
  rw [responsesTo, hnone, List.map_nil]

theorem Ledger.length_not_mem {s : BinaryRpcServer} (h : s.Ledger) :
    s.requests.length ∉ s.outstanding := by
  intro hmem
  have hlt := h.outstanding_lt _ hmem
  omega

/-- A service keeps the `done` of the request received last. -/
theorem Ledger.hold {s : BinaryRpcServer} (h : s.Ledger) (q : RpcRequest) :
    Ledger { s.receive q with outstanding := s.outstanding ++ [s.requests.length] } where
  outstanding_lt i hi := by
    rcases List.mem_append.mp hi with hi | hi
    · exact (h.receive q).outstanding_lt i hi
    · rw [List.mem_singleton.mp hi]
      simp [BinaryRpcServer.receive]
  nodup := by
    rw [List.nodup_append]
    refine ⟨h.nodup, List.pairwise_singleton _ _, ?_⟩
    intro i hi j hj
    rw [List.mem_singleton.mp hj]
    have hlt := h.outstanding_lt i hi
    omega
  responses_lt := (h.receive q).responses_lt

theorem Ledger.release {s : BinaryRpcServer} (h : s.Ledger) (i : Nat) :
    Ledger { s with outstanding := s.outstanding.erase i } where
  outstanding_lt j hj := h.outstanding_lt j (List.mem_of_mem_erase hj)
  nodup := h.nodup.erase i
  responses_lt := h.responses_lt

/-! ## Serving one request -/

/-- **What serving a request comes to**: an answer, a closure that is kept, or nothing. -/
theorem serve_cases (env : RpcServices) (a : Nat) (answers : Nat → Answer) (s : BinaryRpcServer)
    (call : RpcCall) :
    let q : RpcRequest := ⟨a, call, (answers s.requests.length).outcome⟩
    (q.Answerable env ∧ ∃ response, serve env a answers s call =
      (s.receive q).reply s.requests.length q (BinaryRpcClosure.run response)
        (answers s.requests.length).closes) ∨
    (q.Answerable env ∧ serve env a answers s call =
      { s.receive q with outstanding := s.outstanding ++ [s.requests.length] }) ∨
    (¬ q.Answerable env ∧ serve env a answers s call = s.receive q) := by
  intro q
  unfold serve
  simp only [q]
  by_cases hcall : call.Callable env
  · rw [BinaryRpcRouter.dispatch_of_callable hcall]
    cases (answers s.requests.length).outcome with
    | runsDone response => exact .inl ⟨⟨hcall, fun _ h => (by cases h)⟩, response, rfl⟩
    | keepsDone => exact .inr (.inl ⟨⟨hcall, fun _ h => (by cases h)⟩, rfl⟩)
    | throws what => exact .inr (.inr ⟨fun h => h.2 what rfl, rfl⟩)
  · obtain ⟨what, hdispatch⟩ :=
      BinaryRpcRouter.dispatch_of_not_callable hcall (answers s.requests.length).outcome
    rw [hdispatch]
    exact .inr (.inr ⟨fun h => hcall h.1, rfl⟩)

theorem Ledger.serve {s : BinaryRpcServer} (h : s.Ledger) (env : RpcServices) (a : Nat)
    (answers : Nat → Answer) (call : RpcCall) : (serve env a answers s call).Ledger := by
  rcases serve_cases env a answers s call with ⟨-, response, hs⟩ | ⟨-, hs⟩ | ⟨-, hs⟩
  · rw [hs]
    exact (h.receive _).reply (by simp [BinaryRpcServer.receive]) _ _ _
  · rw [hs]
    exact h.hold _
  · rw [hs]
    exact h.receive _

theorem Settled.congr {env : RpcServices} {s s' : BinaryRpcServer} {i : Nat} {q : RpcRequest}
    (h : Settled env s i q) (hheld : i ∈ s'.outstanding ↔ i ∈ s.outstanding)
    (hresp : s'.responsesTo i = s.responsesTo i) : Settled env s' i q := by
  cases h with
  | answered hq hdone ha => exact .answered hq (hheld.not.mpr hdone) (by rwa [Answered, hresp])
  | outstanding hq hmem ha => exact .outstanding hq (hheld.mpr hmem) (hresp.trans ha)
  | unanswerable hq hdone ha => exact .unanswerable hq (hheld.not.mpr hdone) (hresp.trans ha)

theorem openAt_of_serve {env : RpcServices} {a b : Nat} {answers : Nat → Answer} {s : BinaryRpcServer}
    {call : RpcCall} (h : OpenAt b (serve env a answers s call)) : OpenAt b s := by
  rcases buffers_serve env a answers s call with ht | ht
  · rwa [OpenAt, ht] at h
  · rw [OpenAt, ht] at h
    exact ConnectionTable.open_of_close h

/-- **One more request**, on this or another connection. -/
theorem Accounts.serve {env : RpcServices} {a n : Nat} {s : BinaryRpcServer} (h : Accounts env a n s)
    (b : Nat) (answers : Nat → Answer) (call : RpcCall) :
    Accounts env a n (serve env b answers s call) where
  ledger := h.ledger.serve env b answers call
  settled := by
    intro hopen i q hn hq hconn
    have hopen' := openAt_of_serve hopen
    rw [requests_serve] at hq
    by_cases hi : i < s.requests.length
    · -- a request that was there already: its number is not the new one
      rw [List.getElem?_append_left hi] at hq
      refine (h.settled hopen' hn hq hconn).congr ?_ ?_
      · rcases serve_cases env b answers s call with ⟨-, response, hs⟩ | ⟨-, hs⟩ | ⟨-, hs⟩
        · rw [hs, outstanding_reply]
          rfl
        · rw [hs]
          have hne : i ≠ s.requests.length := by omega
          simp [hne]
        · rw [hs]
          rfl
      · rcases serve_cases env b answers s call with ⟨-, response, hs⟩ | ⟨-, hs⟩ | ⟨-, hs⟩
        · rw [hs, responsesTo_reply_of_ne _ _ _ _ _ (by omega)]
          rfl
        · rw [hs]
          rfl
        · rw [hs]
          rfl
    · -- the new request
      have hlt := (List.getElem?_eq_some_iff.mp hq).1
      simp only [List.length_append, List.length_singleton] at hlt
      obtain rfl : i = s.requests.length := by omega
      rw [List.getElem?_append_right (Nat.le_refl _), Nat.sub_self] at hq
      cases hq
      have hnone := h.ledger.responsesTo_length
      have hfresh := h.ledger.length_not_mem
      rcases serve_cases env b answers s call with ⟨ha, response, hs⟩ | ⟨ha, hs⟩ | ⟨ha, hs⟩
      · rw [hs] at hopen ⊢
        obtain rfl : b = a := hconn
        refine .answered ha (by rwa [outstanding_reply]) ⟨_, ?_, isResponse_responseFrame _ response⟩
        rw [responsesTo_reply_self _ _ _ _ _ hopen]
        exact congrArg (· ++ _) hnone
      · rw [hs]
        exact .outstanding ha (by simp) hnone
      · rw [hs]
        exact .unanswerable ha hfresh hnone

theorem Ledger.all {s : BinaryRpcServer} (h : s.Ledger) (env : RpcServices) (b : Nat)
    (answers : Nat → Answer) (calls : List RpcCall) :
    (calls.foldl (BinaryRpcServer.serve env b answers) s).Ledger := by
  induction calls generalizing s with
  | nil => exact h
  | cons call calls ih => exact ih (h.serve env b answers call)

theorem Accounts.all {env : RpcServices} {a n : Nat} (b : Nat) (answers : Nat → Answer)
    (calls : List RpcCall) {s : BinaryRpcServer} (h : Accounts env a n s) :
    Accounts env a n (calls.foldl (BinaryRpcServer.serve env b answers) s) := by
  induction calls generalizing s with
  | nil => exact h
  | cons call calls ih => exact ih (h.serve b answers call)

/-! ## Steps and runs -/

theorem Ledger.congr {s : BinaryRpcServer} (h : s.Ledger) (t : ConnectionTable Bytes) :
    Ledger { s with connectionBuffers := t } := ⟨h.outstanding_lt, h.nodup, h.responses_lt⟩

theorem Ledger.step {env : RpcServices} {s s' : BinaryRpcServer} {l : RpcServerLabel} (h : s.Ledger)
    (hs : BinaryRpcServer.step env s l = some s') : s'.Ledger := by
  rcases step_cases hs with ⟨b, data, answers, -, rfl⟩ |
    ⟨i, q, response, closes, -, -, hheld, rfl⟩ | ⟨-, t, -, -, rfl⟩
  · by_cases hdata : data = []
    · rw [BinaryRpcServer.onMessage, if_pos hdata]
      exact h
    rw [onMessage_spec env b answers s hdata]
    have hserved := (h.congr _ : (s.extendCache b data).Ledger).all env b answers
    split
    · exact (hserved _).congr _
    · exact (hserved _).congr _
  · exact (h.release i).reply (h.outstanding_lt i hheld) q _ closes
  · exact h.congr t

theorem ledger_of_reachable {env : RpcServices} {s : BinaryRpcServer} (h : (system env).Reachable s) :
    s.Ledger :=
  h.invariant Ledger.create fun _ _ _ hl _ hs => hl.step hs

/-- What happens to the connections matters only as long as the one at `a` is open. -/
theorem Accounts.congr {env : RpcServices} {a n : Nat} {s : BinaryRpcServer} (h : Accounts env a n s)
    {t : ConnectionTable Bytes} (hopen : t.status a = .open → OpenAt a s) :
    Accounts env a n { s with connectionBuffers := t } where
  ledger := h.ledger.congr t
  settled hend _ _ hn hq hconn :=
    (h.settled (hopen hend) hn hq hconn).congr Iff.rfl rfl

theorem Accounts.onMessage {env : RpcServices} {a n : Nat} {s : BinaryRpcServer}
    (h : Accounts env a n s) (b : Nat) (data : Bytes) (answers : Nat → Answer) :
    Accounts env a n (s.onMessage env b data answers) := by
  by_cases hdata : data = []
  · rw [BinaryRpcServer.onMessage, if_pos hdata]
    exact h
  rw [onMessage_spec env b answers s hdata]
  have hcache : Accounts env a n (s.extendCache b data) := h.congr fun hopen => hopen
  have hserved := hcache.all b answers
  split
  · exact (hserved _).congr ConnectionTable.open_of_close
  · refine (hserved _).congr fun hopen => ?_
    rwa [ConnectionTable.status_assign] at hopen

/-- A service runs a `done` it kept. -/
theorem Accounts.runDone {env : RpcServices} {a n : Nat} {s : BinaryRpcServer}
    (h : Accounts env a n s) {i : Nat} {q : RpcRequest} (hq : s.requests[i]? = some q)
    (hheld : i ∈ s.outstanding) (response : Option Serialized) (closes : Bool) :
    Accounts env a n ({ s with outstanding := s.outstanding.erase i }.reply i q
      (BinaryRpcClosure.run response) closes) where
  ledger := (h.ledger.release i).reply (h.ledger.outstanding_lt i hheld) q _ closes
  settled := by
    intro hopen j p hn hp hconn
    rw [requests_reply] at hp
    have hopen' : OpenAt a { s with outstanding := s.outstanding.erase i } :=
      openAt_of_reply _ _ _ _ _ hopen
    have hsettled := h.settled hopen' hn hp hconn
    by_cases hji : j = i
    · subst hji
      cases hq.symm.trans hp
      obtain rfl : q.conn = a := hconn
      cases hsettled with
      | answered _ hdone _ => exact absurd hheld hdone
      | unanswerable _ hdone _ => exact absurd hheld hdone
      | outstanding ha _ hnone =>
        refine .answered ha ?_ ⟨_, ?_, isResponse_responseFrame _ response⟩
        · rw [outstanding_reply]
          exact h.ledger.nodup.not_mem_erase
        · rw [responsesTo_reply_self _ _ _ _ _ hopen]
          exact congrArg (· ++ _) hnone
    · refine hsettled.congr ?_ ?_
      · rw [outstanding_reply]
        exact List.mem_erase_of_ne hji
      · rw [responsesTo_reply_of_ne _ _ _ _ _ hji]
        rfl

/-- **Every step keeps the requests of an open connection settled.** -/
theorem Accounts.step {env : RpcServices} {a n : Nat} {s s' : BinaryRpcServer} {l : RpcServerLabel}
    (h : Accounts env a n s) (hopen : OpenAt a s) (hs : BinaryRpcServer.step env s l = some s') :
    Accounts env a n s' := by
  rcases step_cases hs with ⟨b, data, answers, -, rfl⟩ |
    ⟨i, q, response, closes, -, hq, hheld, rfl⟩ | ⟨-, t, -, -, rfl⟩
  · exact h.onMessage b data answers
  · exact h.runDone hq hheld response closes
  · exact h.congr fun _ => hopen

/-- **Exactly the answerable requests are answered.** In a run in which the connection at `a` stays
open, a request received from it whose `done` nobody holds any more has one response. -/
theorem answered_iff {env : RpcServices} {s s' : BinaryRpcServer} {a i : Nat}
    {labels : List RpcServerLabel} {q : RpcRequest} (hs : (system env).Reachable s)
    (hrun : (system env).run s labels = some s')
    (hopen : (system env).Admits (fun t _ => OpenAt a t) s labels) (hend : OpenAt a s')
    (hnew : s.requests.length ≤ i) (hq : s'.requests[i]? = some q) (hconn : q.conn = a)
    (hdone : i ∉ s'.outstanding) : s'.Answered i q ↔ q.Answerable env := by
  have hstart : Accounts env a s.requests.length s := by
    refine ⟨ledger_of_reachable hs, fun _ _ _ hn hq _ => ?_⟩
    rw [List.getElem?_eq_none hn] at hq
    cases hq
  have hacc : Accounts env a s.requests.length s' :=
    System.run_invariant (fun t l t' h hopen hstep => h.step hopen hstep) labels hstart hrun hopen
  cases hacc.settled hend hnew hq hconn with
  | answered ha _ h => exact ⟨fun _ => ha, fun _ => h⟩
  | outstanding _ hheld _ => exact absurd hheld hdone
  | unanswerable hna _ hnone =>
    constructor
    · rintro ⟨frame, hone, -⟩
      rw [hnone] at hone
      cases hone
    · exact fun ha => absurd ha hna

def sayResponse : Serialized := ⟨[5], by decide⟩

def sayReply : CallOutcome := .runsDone (some sayResponse)

/-- One request to `Echo.Say`; the service answers at once. -/
def sayOnce : List RpcServerLabel :=
  [.message 7 (wireBytes sayMeta [sayFrame 1 [1, 2, 3]]) fun _ => ⟨sayReply, false⟩]

theorem answered_iff_sayOnce : ∃ s' ∈ (system echoServices).run sayStart sayOnce,
    ∃ q ∈ s'.requests[0]?, s'.Answered 0 q := by
  have hs : (system echoServices).Reachable sayStart :=
    .of_run [.lifecycle (.connect 7)] (s := sayStart) rfl
  obtain ⟨s', hrun, hend, q, hq, hconn, hcall, houtcome, hdone⟩ :
      ∃ s' ∈ (system echoServices).run sayStart sayOnce, OpenAt 7 s' ∧ ∃ q ∈ s'.requests[0]?,
        q.conn = 7 ∧ q.call = ⟨1, ⟨"Echo", "Say"⟩, [1, 2, 3]⟩ ∧
          q.outcome = sayReply ∧ 0 ∉ s'.outstanding := by
    decide +kernel
  have hopen : (system echoServices).Admits (fun t _ => OpenAt 7 t) sayStart sayOnce := by
    decide +kernel
  have hanswerable : q.Answerable echoServices := by
    constructor
    · rw [hcall]
      exact ⟨_, _, rfl, rfl, rfl⟩
    · rw [houtcome]
      exact fun what h => by cases h
  exact ⟨s', hrun, q, hq,
    (answered_iff hs hrun hopen hend (Nat.zero_le _) hq hconn hdone).mpr hanswerable⟩

/-- **A request for a service that is not registered gets no response**, though its connection stays
open and nobody holds its `done`. -/
theorem unknown_service_unanswered : ¬ ∀ (labels : List RpcServerLabel) (s' : BinaryRpcServer) (i : Nat)
    (q : RpcRequest), (system { echoServices with services := fun _ => none }).run sayStart labels = some s' →
    (system { echoServices with services := fun _ => none }).Admits (fun t _ => OpenAt 7 t) sayStart labels →
    OpenAt 7 s' → s'.requests[i]? = some q → q.conn = 7 → i ∉ s'.outstanding → s'.Answered i q := by
  intro h
  obtain ⟨s', hrun, hend, q, hq, hconn, hdone, hnone⟩ :
      ∃ s' ∈ (system { echoServices with services := fun _ => none }).run sayStart sayOnce,
        OpenAt 7 s' ∧ ∃ q ∈ s'.requests[0]?, q.conn = 7 ∧ 0 ∉ s'.outstanding ∧ s'.responsesTo 0 = [] := by
    decide +kernel
  have hopen : (system { echoServices with services := fun _ => none }).Admits
      (fun t _ => OpenAt 7 t) sayStart sayOnce := by
    decide +kernel
  obtain ⟨frame, hone, -⟩ := h sayOnce s' 0 q hrun hopen hend hq hconn hdone
  rw [hnone] at hone
  cases hone

end BinaryRpcServer

end Tudou
