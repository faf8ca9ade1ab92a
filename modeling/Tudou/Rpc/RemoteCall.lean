import Tudou.Rpc.JsonRpcClient
import Tudou.Rpc.LineFraming

/-!
# One JSON-RPC call, there and back

What `JsonRpcClient::call` sends, what `JsonRpcRouter::dispatch` makes of it, and what the client reads
in the answer.

* `localCall` — the call made where the handlers are.
* `JsonText.Carries` — a value that survives `dump` and `parse` on one line.
* `dispatchSingle_buildRequest` — the router answers a client's request with what the local call returns.
* `checkResponse_replyOf` — the client reads that in the answer, whatever it is.
* `dispatch_request` — both with the texts between them.
-/

namespace Tudou

/-- A string literal of the source. -/
local instance : Coe String Bytes := ⟨asciiBytes⟩

/-- What a failed call is answered with. -/
structure RpcFailure where
  code : Int
  message : Bytes
  deriving DecidableEq, Repr

/-- The text of `j` is this line, which reads as `j` again. -/
structure JsonText.LineOf (text : JsonText) (j : Json) (line : Bytes) : Prop where
  dump : text.dump j = .ok line
  nonempty : line ≠ []
  oneLine : newline ∉ line
  parse : text.parse line = .ok j

/-- The value survives `dump` and `parse` on one line. -/
def JsonText.Carries (text : JsonText) (j : Json) : Prop := ∃ line, text.LineOf j line

namespace JsonRpcRouter

variable {ω : Type*}

/-- **A call of `method` with `params`, made where the handlers are.** -/
def localCall (r : JsonRpcRouter ω) (call : Bytes × Json) (w : ω) : Except RpcFailure Json × ω :=
  match r.methods call.1 with
  | none => (.error ⟨-32601, "Method not found"⟩, w)
  | some handler =>
    if isStructured call.2 then
      match handler call.2 w with
      | (.jsonException what, w) => (.error ⟨-32602, "Invalid params: " ++ what⟩, w)
      | (.invalidArgument what, w) => (.error ⟨-32602, "Invalid params: " ++ what⟩, w)
      | (.stdException what, w) => (.error ⟨-32603, "Internal error: " ++ what⟩, w)
      | (.unknownException, w) => (.error ⟨-32603, "Internal error: Unknown exception"⟩, w)
      | (.returned result, w) => (.ok result, w)
    else (.error ⟨-32602, "Invalid params (must be structured object or array)"⟩, w)

/-- The response with this id. -/
def replyOf (id : Json) : Except RpcFailure Json → Json
  | .error failure => makeErrorResponse id failure.code failure.message
  | .ok result => makeResponse id result

end JsonRpcRouter

namespace JsonRpcClient

/-- What `call` does with what the local call returned. -/
def seen : Except RpcFailure Json → Except ClientException Json
  | .error failure => .error (.runtimeError (asciiBytes "JSON-RPC Server Error: " ++ failure.message))
  | .ok result => .ok result

/-! ## The request -/

/-- The members of a request. -/
theorem member?_buildRequest (method : Bytes) (params : Json) (seq : UInt64) (key : Bytes) :
    (buildRequest method params seq).member? key =
      if key = asciiBytes "id" then some (.number (.integer seq.toNat))
      else if key = asciiBytes "params" ∧ params.isNull = false then some params
      else if key = asciiBytes "method" then some (.string method)
      else if key = asciiBytes "jsonrpc" then some (.string "2.0") else none := by
  have hversion : (Json.null.set "jsonrpc" (.string "2.0")).isObject = true := rfl
  have hmethod := Json.isObject_set (.inl hversion) "method" (.string method)
  unfold buildRequest
  by_cases hnull : params.isNull = true
  · simp only [hnull, if_true, Json.member?_set hmethod, Json.member?_set hversion,
      Json.member?_set_null, Bool.true_eq_false, and_false, if_false]
  · have hparams := Json.isObject_set (.inl hmethod) "params" params
    have hfalse : params.isNull = false := Bool.eq_false_iff.mpr hnull
    simp only [hfalse, Bool.false_eq_true, if_false, Json.member?_set hparams, Json.member?_set hmethod,
      Json.member?_set hversion, Json.member?_set_null, and_true]

theorem isObject_buildRequest (method : Bytes) (params : Json) (seq : UInt64) :
    (buildRequest method params seq).isObject = true := by
  unfold buildRequest
  have hversion : (Json.null.set "jsonrpc" (.string "2.0")).isObject = true := rfl
  have hmethod := Json.isObject_set (.inl hversion) "method" (.string method)
  apply Json.isObject_set
  left
  split
  · exact hmethod
  · exact Json.isObject_set (.inl hmethod) _ _

end JsonRpcClient

namespace JsonRpcRouter

open JsonRpcClient (buildRequest member?_buildRequest isObject_buildRequest seen)

variable {ω : Type*}

/-- The router sees the params of the call, present or not. -/
theorem paramsOf_buildRequest (method : Bytes) (params : Json) (seq : UInt64) :
    paramsOf (buildRequest method params seq) = params := by
  unfold paramsOf
  rw [member?_buildRequest, if_neg (by decide)]
  by_cases hnull : params.isNull = true
  · rw [if_neg (by simp [hnull]), if_neg (by decide), if_neg (by decide)]
    cases params with
    | null => rfl
    | _ => cases hnull
  · rw [if_pos ⟨rfl, Bool.eq_false_iff.mpr hnull⟩]
    rfl

/-- **The router answers a client's request with what the local call returns**, under the id of the
request. -/
theorem dispatchSingle_buildRequest (r : JsonRpcRouter ω) (call : Bytes × Json) (seq : UInt64) (w : ω) :
    r.dispatchSingle (buildRequest call.1 call.2 seq) w =
      (replyOf (.number (.integer seq.toNat)) (r.localCall call w).1, (r.localCall call w).2) := by
  have hid : (buildRequest call.1 call.2 seq).member? "id" = some (.number (.integer seq.toNat)) := by
    rw [member?_buildRequest, if_pos rfl]
  have hmethod : (buildRequest call.1 call.2 seq).member? "method" = some (.string call.1) := by
    rw [member?_buildRequest, if_neg (by decide), if_neg (by simp +decide), if_pos rfl]
  have hversion : (buildRequest call.1 call.2 seq).hasText "jsonrpc" "2.0" = true := by
    unfold Json.hasText
    rw [member?_buildRequest, if_neg (by decide), if_neg (by simp +decide), if_neg (by decide),
      if_pos rfl]
    exact beq_self_eq_true _
  unfold dispatchSingle
  rw [if_neg (by rw [isObject_buildRequest]; decide)]
  simp only [hid, Option.getD_some, Option.isNone_some, Json.isNumber, Bool.true_eq_false, false_and,
    and_false, if_false, hversion, if_true, hmethod, paramsOf_buildRequest]
  unfold localCall
  cases r.methods call.1 with
  | none => rfl
  | some handler =>
    simp only
    split
    · unfold callHandler
      rcases handler call.2 w with ⟨outcome, w'⟩
      cases outcome with
      | returned _ | jsonException _ | invalidArgument _ | stdException _ | unknownException => rfl
    · rfl

/-! ## The answer -/

theorem isObject_replyOf (id : Json) (outcome : Except RpcFailure Json) :
    (replyOf id outcome).isObject = true := by
  cases outcome with
  | ok _ => rfl
  | error _ => rfl

theorem member?_replyOf_id (id : Json) (outcome : Except RpcFailure Json) :
    (replyOf id outcome).member? "id" = some id := by
  cases outcome with
  | ok result => exact (isResponse_makeResponse id result).sameId
  | error failure => exact (isResponse_makeErrorResponse id failure.code failure.message).sameId

/-- A reply is no batch, and not null. -/
theorem isNull_replyOf (id : Json) (outcome : Except RpcFailure Json) :
    (replyOf id outcome).isNull = false := by
  cases outcome with
  | ok _ => rfl
  | error _ => rfl

end JsonRpcRouter

namespace JsonRpcClient

open JsonRpcRouter (replyOf member?_replyOf_id isObject_replyOf)

/-- The id passes. -/
theorem checkId_replyOf (seq : UInt64) (outcome : Except RpcFailure Json) :
    checkId (replyOf (.number (.integer seq.toNat)) outcome) seq = .ok () := by
  have hcast : (Json.number (.integer seq.toNat)).getUint64 = .ok seq := by
    rw [getUint64_natCast seq.toNat_lt, UInt64.ofNat_toNat]
  unfold checkId
  rw [member?_replyOf_id]
  simp [Json.isNull, hcast]

/-- **The client reads in the answer what the local call returned.** -/
theorem checkResponse_replyOf {text : JsonText} (what : JsonException → Bytes) {seq : UInt64}
    {outcome : Except RpcFailure Json} {line : Bytes}
    (hparse : text.parse line = .ok (replyOf (.number (.integer seq.toNat)) outcome)) :
    checkResponse text what seq line = seen outcome := by
  simp only [checkResponse, hparse, isObject_replyOf, if_true, checkId_replyOf]
  cases outcome with
  | ok result =>
    have herror : checkError (replyOf (.number (.integer seq.toNat)) (.ok result)) = .ok () := rfl
    rw [herror]
    rfl
  | error failure =>
    have herror : checkError (replyOf (.number (.integer seq.toNat)) (.error failure)) =
        .error (.runtimeError (asciiBytes "JSON-RPC Server Error: " ++ failure.message)) := rfl
    rw [herror]
    rfl

end JsonRpcClient

/-! ## With the texts -/

namespace JsonRpcRouter

open JsonRpcClient (buildRequest isObject_buildRequest)

variable {ω : Type*}

/-- The answers to the requests whose text carries have such texts themselves. -/
def Carried (text : JsonText) (r : JsonRpcRouter ω) : Prop :=
  ∀ (call : Bytes × Json) (seq : UInt64) (w : ω), text.Carries (buildRequest call.1 call.2 seq) →
    text.Carries (replyOf (.number (.integer seq.toNat)) (r.localCall call w).1)

/-- **`dispatch` answers the text of a request with the text of its answer.** -/
theorem dispatch_request {text : JsonText} {r : JsonRpcRouter ω} {call : Bytes × Json} {seq : UInt64}
    {w : ω} {request reply : Bytes} (hrequest : text.LineOf (buildRequest call.1 call.2 seq) request)
    (hdump : text.dump (replyOf (.number (.integer seq.toNat)) (r.localCall call w).1) = .ok reply) :
    r.dispatch text request w = (.ok reply, (r.localCall call w).2) := by
  have hobject := isObject_buildRequest call.1 call.2 seq
  have hsingle := dispatchSingle_buildRequest r call seq w
  unfold dispatch
  rw [if_neg hrequest.nonempty, hrequest.parse]
  cases hrequest : buildRequest call.1 call.2 seq with
  | object members =>
    rw [hrequest] at hsingle
    simp only [dispatchRoot, hsingle, isNull_replyOf, Bool.false_eq_true, if_false, JsonText.dumpReply, hdump]
  | _ =>
    rw [hrequest] at hobject
    cases hobject

end JsonRpcRouter

end Tudou
