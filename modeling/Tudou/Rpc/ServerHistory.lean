import Tudou.Rpc.Responses

/-!
# What a run of the binary RPC server leaves in its history

* `Adds` — what later steps may do: take requests, and send what a service passed to the `done` of one;
  `Adds.step` — every step of the server does no more.
* `outputOf` — the response frames of one connection; `Adds.outputOf` — they are only added to.
* `faithful_of_reachable` — **every response answers a request that was received, with its sequence id
  and what its service answered**.
* `onlyAnswerable_of_reachable` — **only requests that can be answered are**, on open connections or not.
* `handed_onMessage` — what a delivery hands to the router, also where it closes the connection.
-/

namespace Tudou

open Framing Transition

namespace BinaryRpcServer

/-- A response with what it answers: `response` is what a service ran the `done` of `q` with. -/
def Answers (requests : List RpcRequest) (r : Nat × Bytes) : Prop :=
  ∃ q response, requests[r.1]? = some q ∧
    r.2 = responseFrame q.call.sequenceId (BinaryRpcClosure.run response)

/-- Requests were received, and responses sent in answer to requests. -/
structure Adds (s s' : BinaryRpcServer) : Prop where
  requests : s.requests <+: s'.requests
  responses : ∃ new, s'.responses = s.responses ++ new ∧ ∀ r ∈ new, Answers s'.requests r

/-- The frames the server sent on the connection at `a`, in order. -/
def outputOf (s : BinaryRpcServer) (a : Nat) : List Bytes :=
  (s.responses.filter fun r => (s.requests[r.1]?).map RpcRequest.conn = some a).map Prod.snd

theorem getElem?_of_prefix {α : Type*} {xs ys : List α} {i : Nat} {x : α} (h : xs <+: ys)
    (hi : xs[i]? = some x) : ys[i]? = some x := by
  obtain ⟨zs, rfl⟩ := h
  rw [List.getElem?_append_left (List.getElem?_eq_some_iff.mp hi).1, hi]

theorem Answers.mono {requests requests' : List RpcRequest} {r : Nat × Bytes}
    (h : Answers requests r) (hp : requests <+: requests') : Answers requests' r := by
  obtain ⟨q, response, hq, hr⟩ := h
  exact ⟨q, response, getElem?_of_prefix hp hq, hr⟩

/-! ## Steps add -/

theorem Adds.of_eq {s s' : BinaryRpcServer} (hq : s'.requests = s.requests)
    (hr : s'.responses = s.responses) : Adds s s' where
  requests := ⟨[], by rw [hq, List.append_nil]⟩
  responses := ⟨[], by rw [hr, List.append_nil], fun _ h => absurd h List.not_mem_nil⟩

theorem Adds.trans {s s' s'' : BinaryRpcServer} (h : Adds s s') (h' : Adds s' s'') : Adds s s'' where
  requests := h.requests.trans h'.requests
  responses := by
    obtain ⟨new, hnew, hanswers⟩ := h.responses
    obtain ⟨new', hnew', hanswers'⟩ := h'.responses
    refine ⟨new ++ new', by rw [hnew', hnew, List.append_assoc], fun r hr => ?_⟩
    rcases List.mem_append.mp hr with hr | hr
    · exact (hanswers r hr).mono h'.requests
    · exact hanswers' r hr

theorem Adds.receive (s : BinaryRpcServer) (q : RpcRequest) : Adds s (s.receive q) where
  requests := ⟨[q], rfl⟩
  responses := ⟨[], (List.append_nil _).symm, fun _ h => absurd h List.not_mem_nil⟩

/-- The `done` of request `i` runs. -/
theorem Adds.reply {s : BinaryRpcServer} {i : Nat} {q : RpcRequest} (hq : s.requests[i]? = some q)
    (response : Option Serialized) (closes : Bool) :
    Adds s (s.reply i q (BinaryRpcClosure.run response) closes) where
  requests := ⟨[], by rw [requests_reply, List.append_nil]⟩
  responses := by
    rcases responses_reply s i q (BinaryRpcClosure.run response) closes with hr | ⟨hr, -⟩
    · refine ⟨_, hr, fun r hmem => ?_⟩
      rw [List.mem_singleton.mp hmem, requests_reply]
      exact ⟨q, response, hq, rfl⟩
    · exact ⟨[], by rw [hr, List.append_nil], fun _ h => absurd h List.not_mem_nil⟩

section Serve

variable (env : RpcServices) (a : Nat) (answers : Nat → Answer)

theorem Adds.serve (s : BinaryRpcServer) (call : RpcCall) : Adds s (serve env a answers s call) := by
  rcases serve_cases env a answers s call with ⟨-, response, hs⟩ | ⟨-, hs⟩ | ⟨-, hs⟩
  · rw [hs]
    refine (Adds.receive s _).trans (Adds.reply ?_ response _)
    simp [BinaryRpcServer.receive]
  · rw [hs]
    exact (Adds.receive s _).trans (.of_eq rfl rfl)
  · rw [hs]
    exact Adds.receive s _

theorem Adds.all (calls : List RpcCall) (s : BinaryRpcServer) :
    Adds s (calls.foldl (BinaryRpcServer.serve env a answers) s) := by
  induction calls generalizing s with
  | nil => exact .of_eq rfl rfl
  | cons call calls ih => exact (Adds.serve env a answers s call).trans (ih _)

theorem Adds.onMessage (s : BinaryRpcServer) (data : Bytes) : Adds s (s.onMessage env a data answers) := by
  by_cases hdata : data = []
  · rw [BinaryRpcServer.onMessage, if_pos hdata]
    exact .of_eq rfl rfl
  · rw [onMessage_spec env a answers s hdata]
    have hcache : Adds s (s.extendCache a data) := .of_eq rfl rfl
    have hserved := hcache.trans (Adds.all env a answers
      ((requestFrames env).split ((s.connectionBuffers.entries a).getD [] ++ data)).1 _)
    split
    · exact hserved.trans (.of_eq rfl rfl)
    · exact hserved.trans (.of_eq rfl rfl)

end Serve

/-- **A step adds to the history, and what it sends answers a request.** -/
theorem Adds.step {env : RpcServices} {s s' : BinaryRpcServer} {l : RpcServerLabel}
    (hs : BinaryRpcServer.step env s l = some s') : Adds s s' := by
  rcases step_cases hs with ⟨b, data, answers, -, rfl⟩ |
    ⟨i, q, response, closes, -, hq, -, rfl⟩ | ⟨-, t, -, -, rfl⟩
  · exact Adds.onMessage env b answers s data
  · have hrelease : Adds s { s with outstanding := s.outstanding.erase i } := .of_eq rfl rfl
    exact hrelease.trans (Adds.reply (s := { s with outstanding := s.outstanding.erase i }) hq response closes)
  · exact .of_eq rfl rfl

/-! ## Responses -/

/-- **Every response answers a request that was received**, with its sequence id and what its service
ran `done` with. -/
theorem faithful_of_reachable {env : RpcServices} {s : BinaryRpcServer} (h : (system env).Reachable s) :
    ∀ r ∈ s.responses, Answers s.requests r := by
  refine h.invariant (I := fun s => ∀ r ∈ s.responses, Answers s.requests r)
    (fun _ hr => absurd hr List.not_mem_nil) fun s l s' hall _ hs => ?_
  have hadds := Adds.step hs
  obtain ⟨new, hnew, hanswers⟩ := hadds.responses
  intro r hr
  rw [hnew] at hr
  rcases List.mem_append.mp hr with hr | hr
  · exact (hall r hr).mono hadds.requests
  · exact hanswers r hr

/-- **What was sent on a connection stays sent.** -/
theorem Adds.outputOf {s s' : BinaryRpcServer} (h : Adds s s') (hl : s.Ledger) (a : Nat) :
    s.outputOf a <+: s'.outputOf a := by
  obtain ⟨new, hnew, -⟩ := h.responses
  have hsame : s.responses.filter (fun r => (s'.requests[r.1]?).map RpcRequest.conn = some a) =
      s.responses.filter (fun r => (s.requests[r.1]?).map RpcRequest.conn = some a) := by
    apply List.filter_congr
    intro r hr
    have hq := List.getElem?_eq_getElem (hl.responses_lt r hr)
    rw [hq, getElem?_of_prefix h.requests hq]
  rw [BinaryRpcServer.outputOf, BinaryRpcServer.outputOf, hnew, List.filter_append, List.map_append, hsame]
  exact List.prefix_append _ _

/-- A frame on a connection is the response to a request that came on it. -/
theorem mem_outputOf {env : RpcServices} {s : BinaryRpcServer} (h : (system env).Reachable s) {a : Nat}
    {bytes : Bytes} (hmem : bytes ∈ s.outputOf a) :
    ∃ i q response, s.requests[i]? = some q ∧ q.conn = a ∧ (i, bytes) ∈ s.responses ∧
      bytes = responseFrame q.call.sequenceId (BinaryRpcClosure.run response) := by
  obtain ⟨⟨i, _⟩, hr, rfl⟩ := List.mem_map.mp hmem
  obtain ⟨hr, hconn⟩ := List.mem_filter.mp hr
  obtain ⟨q, response, hq, hbytes⟩ := faithful_of_reachable h _ hr
  simp only [hq, Option.map_some, Option.some.injEq, decide_eq_true_eq] at hconn
  exact ⟨i, q, response, hq, hconn, hr, hbytes⟩

/-! ## Requests that cannot be answered -/

/-- Closures are kept and responses sent for requests that can be answered only. -/
structure OnlyAnswerable (env : RpcServices) (s : BinaryRpcServer) : Prop where
  held : ∀ i ∈ s.outstanding, ∃ q, s.requests[i]? = some q ∧ q.Answerable env
  sent : ∀ r ∈ s.responses, ∃ q, s.requests[r.1]? = some q ∧ q.Answerable env

section OnlyAnswerable

variable {env : RpcServices} {s s' : BinaryRpcServer}

/-- A step that keeps no closure and sends nothing. -/
theorem OnlyAnswerable.keep (h : OnlyAnswerable env s) (hq : s.requests <+: s'.requests)
    (ho : s'.outstanding ⊆ s.outstanding) (hr : s'.responses = s.responses) : OnlyAnswerable env s' where
  held i hi := by
    obtain ⟨q, hget, ha⟩ := h.held i (ho hi)
    exact ⟨q, getElem?_of_prefix hq hget, ha⟩
  sent r hmem := by
    rw [hr] at hmem
    obtain ⟨q, hget, ha⟩ := h.sent r hmem
    exact ⟨q, getElem?_of_prefix hq hget, ha⟩

theorem OnlyAnswerable.reply (h : OnlyAnswerable env s) {i : Nat} {q : RpcRequest}
    (hq : s.requests[i]? = some q) (ha : q.Answerable env) (responseRaw : Bytes) (closes : Bool) :
    OnlyAnswerable env (s.reply i q responseRaw closes) where
  held := by
    rw [outstanding_reply, requests_reply]
    exact h.held
  sent := by
    rw [requests_reply]
    intro r hmem
    rcases responses_reply s i q responseRaw closes with hr | ⟨hr, -⟩
    · rw [hr] at hmem
      rcases List.mem_append.mp hmem with hmem | hmem
      · exact h.sent r hmem
      · rw [List.mem_singleton.mp hmem]
        exact ⟨q, hq, ha⟩
    · rw [hr] at hmem
      exact h.sent r hmem

theorem OnlyAnswerable.serve (h : OnlyAnswerable env s) (b : Nat) (answers : Nat → Answer)
    (call : RpcCall) : OnlyAnswerable env (BinaryRpcServer.serve env b answers s call) := by
  have hreceive := fun q => h.keep (Adds.receive s q).requests (List.Subset.refl _) rfl
  have hnew : ∀ q, (s.receive q).requests[s.requests.length]? = some q := by
    intro q
    simp [BinaryRpcServer.receive]
  rcases serve_cases env b answers s call with ⟨ha, response, hs⟩ | ⟨ha, hs⟩ | ⟨-, hs⟩
  · rw [hs]
    exact (hreceive _).reply (hnew _) ha _ _
  · rw [hs]
    refine ⟨fun i hi => ?_, (hreceive _).sent⟩
    rcases List.mem_append.mp hi with hi | hi
    · exact (hreceive _).held i hi
    · rw [List.mem_singleton.mp hi]
      exact ⟨_, hnew _, ha⟩
  · rw [hs]
    exact hreceive _

theorem OnlyAnswerable.all (b : Nat) (answers : Nat → Answer) (calls : List RpcCall)
    (h : OnlyAnswerable env s) : OnlyAnswerable env (calls.foldl (BinaryRpcServer.serve env b answers) s) := by
  induction calls generalizing s with
  | nil => exact h
  | cons call calls ih => exact ih (h.serve b answers call)

theorem OnlyAnswerable.step {l : RpcServerLabel} (h : OnlyAnswerable env s)
    (hs : BinaryRpcServer.step env s l = some s') : OnlyAnswerable env s' := by
  rcases step_cases hs with ⟨b, data, answers, -, rfl⟩ |
    ⟨i, q, response, closes, -, hq, hheld, rfl⟩ | ⟨-, t, -, -, rfl⟩
  · by_cases hdata : data = []
    · rw [BinaryRpcServer.onMessage, if_pos hdata]
      exact h
    rw [onMessage_spec env b answers s hdata]
    have hcache : OnlyAnswerable env (s.extendCache b data) := ⟨h.held, h.sent⟩
    have hserved := hcache.all b answers
      ((requestFrames env).split ((s.connectionBuffers.entries b).getD [] ++ data)).1
    split
    · exact ⟨hserved.held, hserved.sent⟩
    · exact ⟨hserved.held, hserved.sent⟩
  · obtain ⟨q', hq', ha⟩ := h.held i hheld
    cases hq.symm.trans hq'
    have hrelease : OnlyAnswerable env { s with outstanding := s.outstanding.erase i } :=
      h.keep (List.prefix_refl _) (List.erase_subset) rfl
    exact hrelease.reply hq ha _ _
  · exact ⟨h.held, h.sent⟩

theorem onlyAnswerable_of_reachable (h : (system env).Reachable s) : OnlyAnswerable env s := by
  refine h.invariant (I := OnlyAnswerable env) ⟨?_, ?_⟩ fun _ _ _ ha _ hs => ha.step hs
  · intro i hi
    cases hi
  · intro r hr
    cases hr

end OnlyAnswerable

/-! ## Deliveries -/

/-- **What a delivery hands to the router**, whether the connection survives it or not. -/
theorem handed_onMessage {env : RpcServices} {a : Nat} {before : List RpcCall} {bytes : Bytes}
    {s : BinaryRpcServer} (h : Received env a before bytes s) (data : Bytes) (answers : Nat → Answer) :
    (s.onMessage env a data answers).handed a =
      before ++ ((requestFrames env).split (bytes ++ data)).1 := by
  by_cases hdata : data = []
  · rw [onMessage, if_pos hdata, hdata, List.append_nil]
    exact h.handed
  rw [onMessage_spec env a answers s hdata, Splitter.split_append data h.cached, ← List.append_assoc,
    ← h.handed]
  have hserved := (Served.all env a answers
    ((requestFrames env).split ((s.connectionBuffers.entries a).getD [] ++ data)).1
    (s.extendCache a data)).handed_self
  split
  · exact hserved
  · exact hserved

/-- The label is a delivery on the connection at `a`. -/
def deliversTo (a : Nat) : RpcServerLabel → Bool
  | .message b _ _ => b = a
  | _ => false

/-- Other steps hand nothing of this connection to the router. -/
theorem handed_step {env : RpcServices} {a : Nat} {s s' : BinaryRpcServer} {l : RpcServerLabel}
    (hs : step env s l = some s') (hl : deliversTo a l = false) : s'.handed a = s.handed a := by
  rcases step_cases hs with ⟨b, data, answers, rfl, rfl⟩ |
    ⟨i, q, response, closes, -, -, -, rfl⟩ | ⟨-, t, -, -, rfl⟩
  · have hne : a ≠ b := by
      rintro rfl
      simp [deliversTo] at hl
    by_cases hdata : data = []
    · rw [onMessage, if_pos hdata]
    · rw [onMessage_spec env b answers s hdata]
      have hother : (((requestFrames env).split ((s.connectionBuffers.entries b).getD [] ++ data)).1.foldl
          (serve env b answers) (s.extendCache b data)).handed a = s.handed a :=
        (Served.all env b answers _ (s.extendCache b data)).handed_other hne
      split
      · exact hother
      · exact hother
  · rw [handed, requests_reply]
    rfl
  · rfl

/-- A connection that is open after a step was open before it, unless the step accepted it. -/
theorem openAt_of_step {env : RpcServices} {a : Nat} {s s' : BinaryRpcServer} {l : RpcServerLabel}
    (hs : step env s l = some s') (hl : l ≠ .lifecycle (.connect a)) (hopen : OpenAt a s') :
    OpenAt a s := by
  rcases step_cases hs with ⟨b, data, answers, -, rfl⟩ |
    ⟨i, q, response, closes, -, -, -, rfl⟩ | ⟨c, t, rfl, ht, rfl⟩
  · by_cases hdata : data = []
    · rwa [onMessage, if_pos hdata] at hopen
    rw [onMessage_spec env b answers s hdata] at hopen
    have served : ∀ (calls : List RpcCall) (u : BinaryRpcServer),
        OpenAt a (calls.foldl (serve env b answers) u) → OpenAt a u := by
      intro calls
      induction calls with
      | nil => exact fun _ h => h
      | cons call calls ih => exact fun u h => openAt_of_serve (ih _ h)
    have hbefore := served ((requestFrames env).split ((s.connectionBuffers.entries b).getD [] ++ data)).1
      (s.extendCache b data)
    split at hopen
    · exact hbefore (ConnectionTable.open_of_close hopen)
    · rw [OpenAt, ConnectionTable.status_assign] at hopen
      exact hbefore hopen
  · exact openAt_of_reply { s with outstanding := s.outstanding.erase i } i q _ closes hopen
  · simp only [OpenAt] at hopen ⊢
    cases c with
    | connect b =>
      have hne : a ≠ b := by
        rintro rfl
        exact hl rfl
      simp only [ConnectionTable.lifecycle, ConnectionTable.connect] at ht
      split at ht
      · cases ht
        exact (Function.update_of_ne hne _ _).symm.trans hopen
      · cases ht
    | close b =>
      cases ht
      exact ConnectionTable.open_of_close hopen
    | destroy b =>
      simp only [ConnectionTable.lifecycle, ConnectionTable.destroy] at ht
      split at ht
      · cases ht
        by_cases hab : a = b
        · subst hab
          simp at hopen
        · exact (Function.update_of_ne hab _ _).symm.trans hopen
      · cases ht
    | shutdown =>
      simp only [ConnectionTable.lifecycle] at ht
      split at ht
      · cases ht
        simp only [ConnectionTable.shutdown] at hopen
        split at hopen
        · cases hopen
        · exact hopen
      · cases ht

end BinaryRpcServer

end Tudou
