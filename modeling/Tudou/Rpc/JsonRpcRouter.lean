import Mathlib.Data.List.Forall2
import Mathlib.Logic.Function.Basic
import Tudou.Tcp.Buffer

/-!
# `JsonRpcRouter`: requests, batches and notifications

Model of `src/tudou/rpc/json/JsonRpcRouter.cpp`, with the exceptions of `nlohmann::json`: `dispatch`
catches the `parse_error` of `json::parse`, and `dispatch_single` whatever a handler throws.  The text
of a request and of a response is the business of two parameters, `json::parse` and `dump`.

* `Json` — `nlohmann::json`: an object is a `std::map`, so its members are sorted by their keys; a string
  is a `std::string`, whatever bytes it holds.
* `JsonText` — `json::parse` and `dump`, which may throw.
* `dispatchSingle`, `dispatchBatch`, `dispatch` — the code, with handlers that return or throw and
  may change whatever state they share.
* `Disciplined` — what a reply should be: one response for every element that is no well-formed
  notification, in order and with its id, and none for the others.
* `disciplined_dispatchRoot_iff` — **the reply is disciplined exactly when every well-formed notification
  succeeds**: a notification that fails is answered with an error.
-/

namespace Tudou

/-- The bytes of an ASCII text. -/
def asciiBytes (text : String) : Bytes := text.toList.map fun c => UInt8.ofNat c.toNat

/-- A string literal of the source. -/
local instance : Coe String Bytes := ⟨asciiBytes⟩

inductive JsonNumber where
  | integer (n : Int)
  | float (bits : UInt64)
  deriving DecidableEq, Repr

inductive Json where
  | null
  | bool (b : Bool)
  | number (n : JsonNumber)
  | string (s : Bytes)
  | array (elements : List Json)
  | object (members : List (Bytes × Json))

namespace Json

def isNull : Json → Bool
  | null => true
  | _ => false

def isNumber : Json → Bool
  | number _ => true
  | _ => false

def isString : Json → Bool
  | string _ => true
  | _ => false

def isArray : Json → Bool
  | array _ => true
  | _ => false

def isObject : Json → Bool
  | object _ => true
  | _ => false

/-- `contains(key)` and `operator[](key)`. -/
def member? : Json → Bytes → Option Json
  | object members, key => members.lookup key
  | _, _ => none

/-- The member `key` is this string. -/
def hasText (j : Json) (key text : Bytes) : Bool :=
  match j.member? key with
  | some (string s) => s == text
  | _ => false

/-- `operator[](key) = value` on the members of an object. -/
def insertMember (key : Bytes) (value : Json) : List (Bytes × Json) → List (Bytes × Json)
  | [] => [(key, value)]
  | (key', value') :: members =>
    if key < key' then (key, value) :: (key', value') :: members
    else if key = key' then (key, value) :: members
    else (key', value') :: insertMember key value members

/-- `j[key] = value`; a null value becomes an object. -/
def set (j : Json) (key : Bytes) (value : Json) : Json :=
  match j with
  | object members => object (insertMember key value members)
  | null => object [(key, value)]
  | j => j

theorem lookup_insertMember (key : Bytes) (value : Json) (members : List (Bytes × Json))
    (key' : Bytes) :
    (insertMember key value members).lookup key' =
      if key' = key then some value else members.lookup key' := by
  induction members with
  | nil =>
    by_cases h : key' = key
    · simp [insertMember, h]
    · simp [insertMember, h, List.lookup_cons, beq_eq_false_iff_ne.mpr h]
  | cons m members ih =>
    obtain ⟨k, v⟩ := m
    unfold insertMember
    split
    · by_cases h : key' = key
      · simp [h]
      · simp [h, List.lookup_cons, beq_eq_false_iff_ne.mpr h]
    · split
      · rename_i heq
        by_cases h : key' = key
        · simp [h]
        · have h' : key' ≠ k := heq ▸ h
          simp [h, List.lookup_cons, beq_eq_false_iff_ne.mpr h, beq_eq_false_iff_ne.mpr h']
      · rename_i hne
        by_cases hk : key' = k
        · have h : key' ≠ key := fun h => hne (h.symm.trans hk)
          simp [hk, hk ▸ h]
        · simp [List.lookup_cons, beq_eq_false_iff_ne.mpr hk, ih]

@[simp] theorem member?_set_null (key : Bytes) (value : Json) (key' : Bytes) :
    (null.set key value).member? key' = if key' = key then some value else none := by
  by_cases h : key' = key
  · simp [set, member?, h]
  · simp [set, member?, h, List.lookup_cons, beq_eq_false_iff_ne.mpr h]

theorem member?_set {j : Json} (hj : j.isObject = true) (key : Bytes) (value : Json)
    (key' : Bytes) : (j.set key value).member? key' = if key' = key then some value else j.member? key' := by
  cases j with
  | object members => exact lookup_insertMember key value members key'
  | _ => cases hj

theorem isObject_set {j : Json} (hj : j.isObject = true ∨ j.isNull = true) (key : Bytes)
    (value : Json) : (j.set key value).isObject = true := by
  cases j with
  | object _ | null => rfl
  | _ => rcases hj with hj | hj <;> cases hj

end Json

/-- How a handler ends. -/
inductive HandlerOutcome where
  | returned (result : Json)
  /-- `nlohmann::json::exception`. -/
  | jsonException (what : Bytes)
  | invalidArgument (what : Bytes)
  /-- Any other `std::exception`. -/
  | stdException (what : Bytes)
  | unknownException

/-- A handler, which may depend on state and change it. -/
abbrev RpcHandler (ω : Type*) := Json → ω → HandlerOutcome × ω

structure JsonRpcRouter (ω : Type*) where
  methods : Bytes → Option (RpcHandler ω)

namespace JsonRpcRouter

variable {ω : Type*}

def create : JsonRpcRouter ω := ⟨fun _ => none⟩

def registerMethod (r : JsonRpcRouter ω) (name : Bytes) (handler : RpcHandler ω) : JsonRpcRouter ω :=
  ⟨Function.update r.methods name (some handler)⟩

def makeErrorResponse (id : Json) (code : Int) (message : Bytes) : Json :=
  let err := (Json.null.set "code" (.number (.integer code))).set "message" (.string message)
  ((Json.null.set "jsonrpc" (.string "2.0")).set "error" err).set "id" id

def makeResponse (id result : Json) : Json :=
  ((Json.null.set "jsonrpc" (.string "2.0")).set "result" result).set "id" id

/-- The `params` of a request, `nullptr` where it has none. -/
def paramsOf (req : Json) : Json := (req.member? "params").getD .null

def isStructured (params : Json) : Bool := params.isObject || params.isArray || params.isNull

/-- `dispatch_single`, from the call of the handler on. -/
def callHandler (handler : RpcHandler ω) (params id : Json) (isNotification : Bool) (w : ω) :
    Json × ω :=
  match handler params w with
  | (.jsonException what, w) => (makeErrorResponse id (-32602) ("Invalid params: " ++ what), w)
  | (.invalidArgument what, w) => (makeErrorResponse id (-32602) ("Invalid params: " ++ what), w)
  | (.stdException what, w) => (makeErrorResponse id (-32603) ("Internal error: " ++ what), w)
  | (.unknownException, w) => (makeErrorResponse id (-32603) "Internal error: Unknown exception", w)
  | (.returned result, w) => (if isNotification then .null else makeResponse id result, w)

def dispatchSingle (r : JsonRpcRouter ω) (req : Json) (w : ω) : Json × ω :=
  if req.isObject = false then
    (makeErrorResponse .null (-32600) "Invalid Request (not an object)", w)
  else
    let id := (req.member? "id").getD .null
    let isNotification := (req.member? "id").isNone
    if isNotification = false ∧ id.isString = false ∧ id.isNumber = false ∧ id.isNull = false then
      (makeErrorResponse .null (-32600) "Invalid Request (id must be string, number or null)", w)
    else
      if req.hasText "jsonrpc" "2.0" then
        match req.member? "method" with
        | some (.string methodName) =>
          match r.methods methodName with
          | none => (makeErrorResponse id (-32601) "Method not found", w)
          | some handler =>
            if isStructured (paramsOf req) then
              callHandler handler (paramsOf req) id isNotification w
            else
              (makeErrorResponse id (-32602)
                "Invalid params (must be structured object or array)", w)
        | _ =>
          (makeErrorResponse id (-32600) "Invalid Request (missing or invalid method name)", w)
      else
        (makeErrorResponse id (-32600) "Invalid Request (missing or invalid jsonrpc version)", w)

/-- The loop over a batch: the responses that are not null. -/
def dispatchBatch (r : JsonRpcRouter ω) : List Json → ω → List Json × ω
  | [], w => ([], w)
  | req :: reqs, w =>
    let single := r.dispatchSingle req w
    let rest := r.dispatchBatch reqs single.2
    (if single.1.isNull then rest.1 else single.1 :: rest.1, rest.2)

/-- `dispatch` on a parsed request: the value to dump, `none` for the empty string. -/
def dispatchRoot (r : JsonRpcRouter ω) (root : Json) (w : ω) : Option Json × ω :=
  match root with
  | .array [] => (some (makeErrorResponse .null (-32600) "Invalid Request (empty batch)"), w)
  | .array (req :: reqs) =>
    let batch := r.dispatchBatch (req :: reqs) w
    (if batch.1.isEmpty then none else some (.array batch.1), batch.2)
  | root =>
    let single := r.dispatchSingle root w
    (if single.1.isNull then none else some single.1, single.2)

end JsonRpcRouter

/-- The exceptions of `nlohmann::json` that `json::parse` and `dump` throw. -/
inductive JsonException where
  | parseError
  | outOfRange
  | typeError
  deriving DecidableEq, Repr

/-- `json::parse` and `dump`. -/
structure JsonText where
  parse : Bytes → Except JsonException Json
  dump : Json → Except JsonException Bytes

/-- The text of a reply, empty where there is none. -/
def JsonText.dumpReply (text : JsonText) : Option Json → Except JsonException Bytes
  | none => .ok []
  | some reply => text.dump reply

namespace JsonRpcRouter

variable {ω : Type*}

/-- `dispatch(requestStr)`, which throws what it does not catch. -/
def dispatch (text : JsonText) (r : JsonRpcRouter ω) (requestStr : Bytes) (w : ω) :
    Except JsonException Bytes × ω :=
  if requestStr = [] then
    (text.dump (makeErrorResponse .null (-32600) "Invalid Request (empty body)"), w)
  else
    match text.parse requestStr with
    | .error .parseError => (text.dump (makeErrorResponse .null (-32700) "Parse error"), w)
    | .error e => (.error e, w)
    | .ok root =>
      let reply := r.dispatchRoot root w
      (text.dumpReply reply.1, reply.2)

end JsonRpcRouter

/-! ## What a reply should be -/

namespace Json

/-- An object with `jsonrpc` "2.0", a string method and no id. -/
def isWellFormedNotification (req : Json) : Bool :=
  req.hasText "jsonrpc" "2.0" &&
    match req.member? "method", req.member? "id" with
    | some (string _), none => true
    | _, _ => false

/-- The id of a request, null where it has no usable one. -/
def usableId (req : Json) : Json :=
  match req.member? "id" with
  | some id => if id.isString || id.isNumber || id.isNull then id else null
  | none => null

/-- A response with this id: a result or an error. -/
structure IsResponse (id response : Json) : Prop where
  version : response.member? "jsonrpc" = some (string "2.0")
  sameId : response.member? "id" = some id
  oneOf : (response.member? "result").isSome = !(response.member? "error").isSome

/-- A response for each element that is no well-formed notification, in order. -/
def Answers (elements responses : List Json) : Prop :=
  List.Forall₂ (fun req response => IsResponse req.usableId response)
    (elements.filter fun req => !req.isWellFormedNotification) responses

/-- **Reply discipline**: what `dispatch` should answer, `none` for the empty string. -/
def Disciplined (root : Json) (reply : Option Json) : Prop :=
  match root with
  | array [] => ∃ response err, reply = some response ∧ IsResponse null response ∧
      response.member? "error" = some err ∧ err.member? "code" = some (number (.integer (-32600)))
  | array (req :: reqs) => ∃ responses, Answers (req :: reqs) responses ∧
      reply = if responses = [] then none else some (array responses)
  | root => ∃ responses, Answers [root] responses ∧ reply = responses.head?

/-- The elements of a batch; a single request is its own. -/
def elements : Json → List Json
  | array elements => elements
  | root => [root]

end Json

namespace JsonRpcRouter

variable {ω : Type*}

/-- The method is registered, its params are structured, and its handler returns. -/
def Succeeds (r : JsonRpcRouter ω) (req : Json) (w : ω) : Prop :=
  ∃ methodName handler result, req.member? "method" = some (.string methodName) ∧
    r.methods methodName = some handler ∧ isStructured (paramsOf req) = true ∧
    (handler (paramsOf req) w).1 = .returned result

/-- Every well-formed notification among the elements succeeds when its turn comes. -/
def NotificationsSucceed (r : JsonRpcRouter ω) : List Json → ω → Prop
  | [], _ => True
  | req :: reqs, w =>
    (req.isWellFormedNotification = true → r.Succeeds req w) ∧
      NotificationsSucceed r reqs (r.dispatchSingle req w).2

theorem isResponse_makeErrorResponse (id : Json) (code : Int) (message : Bytes) :
    Json.IsResponse id (makeErrorResponse id code message) := by
  have hobj : (Json.null.set "jsonrpc" (.string "2.0")).isObject = true := rfl
  have hobj' := Json.isObject_set (.inl hobj) "error"
    ((Json.null.set "code" (.number (.integer code))).set "message" (.string message))
  refine ⟨?_, ?_, ?_⟩
  · simp +decide [makeErrorResponse, Json.member?_set hobj', Json.member?_set hobj]
  · simp [makeErrorResponse, Json.member?_set hobj']
  · simp +decide [makeErrorResponse, Json.member?_set hobj', Json.member?_set hobj]

theorem isResponse_makeResponse (id result : Json) : Json.IsResponse id (makeResponse id result) := by
  have hobj : (Json.null.set "jsonrpc" (.string "2.0")).isObject = true := rfl
  have hobj' := Json.isObject_set (.inl hobj) "result" result
  refine ⟨?_, ?_, ?_⟩
  · simp +decide [makeResponse, Json.member?_set hobj', Json.member?_set hobj]
  · simp [makeResponse, Json.member?_set hobj']
  · simp +decide [makeResponse, Json.member?_set hobj', Json.member?_set hobj]

theorem not_isNull_of_isResponse {id response : Json} (h : Json.IsResponse id response) :
    response.isNull = false := by
  cases response with
  | null => cases h.version
  | _ => rfl

/-- **What `dispatch_single` answers.** -/
inductive SingleEnds (r : JsonRpcRouter ω) (req : Json) (w : ω) (response : Json) : Prop where
  | answered : req.isWellFormedNotification = false → Json.IsResponse req.usableId response →
      SingleEnds r req w response
  | silent : req.isWellFormedNotification = true → r.Succeeds req w → response = .null →
      SingleEnds r req w response
  /-- The error of a notification. -/
  | failed : req.isWellFormedNotification = true → ¬r.Succeeds req w →
      Json.IsResponse .null response → SingleEnds r req w response

theorem member?_of_not_isObject {req : Json} (h : req.isObject = false) (key : Bytes) :
    req.member? key = none := by
  cases req with
  | object _ => cases h
  | _ => rfl

/-- An id that passes the check is the usable one. -/
theorem usableId_eq {req : Json}
    (h : ¬((req.member? "id").isNone = false ∧ ((req.member? "id").getD .null).isString = false ∧
      ((req.member? "id").getD .null).isNumber = false ∧
      ((req.member? "id").getD .null).isNull = false)) :
    req.usableId = (req.member? "id").getD .null := by
  unfold Json.usableId
  cases hid : req.member? "id" with
  | none => rfl
  | some id =>
    rw [hid] at h
    simp only [Option.isNone_some, Option.getD_some, true_and] at h ⊢
    rw [if_pos]
    simp only [Bool.or_eq_true]
    by_contra hnot
    apply h
    simp only [not_or, Bool.not_eq_true] at hnot
    exact ⟨hnot.1.1, hnot.1.2, hnot.2⟩

/-- What a well-formed notification is. -/
theorem of_isWellFormedNotification {req : Json} (h : req.isWellFormedNotification = true) :
    req.hasText "jsonrpc" "2.0" = true ∧ (∃ methodName, req.member? "method" = some (.string methodName)) ∧
      req.member? "id" = none := by
  unfold Json.isWellFormedNotification at h
  obtain ⟨hversion, hrest⟩ := Bool.and_eq_true_iff.mp h
  split at hrest
  · rename_i methodName hmethod hid
    exact ⟨hversion, ⟨methodName, hmethod⟩, hid⟩
  · cases hrest

/-- A request with a version and a method is a well-formed notification unless it has an id. -/
theorem isWellFormedNotification_eq {req : Json} {methodName : Bytes}
    (hversion : req.hasText "jsonrpc" "2.0" = true)
    (hmethod : req.member? "method" = some (.string methodName)) :
    req.isWellFormedNotification = (req.member? "id").isNone := by
  unfold Json.isWellFormedNotification
  rw [hversion, hmethod]
  cases req.member? "id" with
  | none => rfl
  | some _ => rfl

/-- Answering an element with its id is right for a request, and for a notification that failed. -/
theorem SingleEnds.of_response {r : JsonRpcRouter ω} {req : Json} {w : ω} {response : Json}
    (hid : req.usableId = (req.member? "id").getD .null)
    (hnot : req.isWellFormedNotification = true → ¬r.Succeeds req w)
    (h : Json.IsResponse ((req.member? "id").getD .null) response) : SingleEnds r req w response := by
  cases hn : req.isWellFormedNotification with
  | false => exact .answered hn (hid ▸ h)
  | true =>
    refine .failed hn (hnot hn) ?_
    rwa [(of_isWellFormedNotification hn).2.2] at h

theorem callHandler_ends {r : JsonRpcRouter ω} {req : Json} {w : ω} {methodName : Bytes}
    {handler : RpcHandler ω} (hid : req.usableId = (req.member? "id").getD .null)
    (hversion : req.hasText "jsonrpc" "2.0" = true)
    (hmethod : req.member? "method" = some (.string methodName))
    (hhandler : r.methods methodName = some handler) (hparams : isStructured (paramsOf req) = true) :
    SingleEnds r req w (callHandler handler (paramsOf req) ((req.member? "id").getD .null)
      (req.member? "id").isNone w).1 := by
  -- a handler that throws makes the call fail
  have hthrows : (∀ result, (handler (paramsOf req) w).1 ≠ .returned result) → ¬r.Succeeds req w := by
    rintro hne ⟨name, handler', result, hname, hhandler', -, hret⟩
    rw [hmethod] at hname
    cases hname
    rw [hhandler] at hhandler'
    cases hhandler'
    exact hne result hret
  unfold callHandler
  split
  · rename_i what w' hout
    exact .of_response hid (fun _ => hthrows (by rw [hout]; simp)) (isResponse_makeErrorResponse _ _ _)
  · rename_i what w' hout
    exact .of_response hid (fun _ => hthrows (by rw [hout]; simp)) (isResponse_makeErrorResponse _ _ _)
  · rename_i what w' hout
    exact .of_response hid (fun _ => hthrows (by rw [hout]; simp)) (isResponse_makeErrorResponse _ _ _)
  · rename_i w' hout
    exact .of_response hid (fun _ => hthrows (by rw [hout]; simp)) (isResponse_makeErrorResponse _ _ _)
  · rename_i result w' hout
    have hnotif := isWellFormedNotification_eq hversion hmethod
    cases hnone : (req.member? "id").isNone with
    | true =>
      exact .silent (hnotif.trans hnone)
        ⟨methodName, handler, result, hmethod, hhandler, hparams, by rw [hout]⟩ rfl
    | false => exact .answered (hnotif.trans hnone) (hid ▸ isResponse_makeResponse _ _)

theorem dispatchSingle_ends (r : JsonRpcRouter ω) (req : Json) (w : ω) :
    SingleEnds r req w (r.dispatchSingle req w).1 := by
  unfold dispatchSingle
  split
  · rename_i hobj
    have hnone := member?_of_not_isObject hobj
    refine .answered ?_ ?_
    · simp [Json.isWellFormedNotification, hnone]
    · rw [Json.usableId, hnone]
      exact isResponse_makeErrorResponse _ _ _
  simp only
  split
  · rename_i hbad
    cases hid : req.member? "id" with
    | none =>
      rw [hid] at hbad
      cases hbad.1
    | some id =>
      rw [hid] at hbad
      refine .answered ?_ ?_
      · simp [Json.isWellFormedNotification, hid]
      · simp only [Option.getD_some] at hbad
        simp only [Json.usableId, hid, hbad, Bool.or_false, Bool.false_eq_true, if_false]
        exact isResponse_makeErrorResponse _ _ _
  rename_i hgood
  have hid := usableId_eq hgood
  split
  · rename_i hversion
    split
    · rename_i methodName hmethod
      split
      · rename_i hnone
        refine .of_response hid (fun _ => ?_) (isResponse_makeErrorResponse _ _ _)
        rintro ⟨name, handler, _, hname, hhandler, _, _⟩
        rw [hmethod] at hname
        cases hname
        rw [hnone] at hhandler
        cases hhandler
      · rename_i handler hhandler
        split
        · rename_i hparams
          exact callHandler_ends hid hversion hmethod hhandler hparams
        · rename_i hparams
          refine .of_response hid (fun _ => ?_) (isResponse_makeErrorResponse _ _ _)
          rintro ⟨_, _, _, _, _, hstructured, _⟩
          exact hparams hstructured
    · rename_i hmethod
      refine .of_response hid (fun hn => ?_) (isResponse_makeErrorResponse _ _ _)
      obtain ⟨-, ⟨methodName, hname⟩, -⟩ := of_isWellFormedNotification hn
      exact absurd hname (hmethod _)
  · rename_i hversion
    refine .of_response hid (fun hn => ?_) (isResponse_makeErrorResponse _ _ _)
    exact absurd (of_isWellFormedNotification hn).1 hversion

/-! ## Batches -/

/-- **A batch whose notifications succeed** is answered element by element. -/
theorem dispatchBatch_answers {r : JsonRpcRouter ω} {reqs : List Json} {w : ω}
    (h : r.NotificationsSucceed reqs w) : Json.Answers reqs (r.dispatchBatch reqs w).1 := by
  induction reqs generalizing w with
  | nil => exact List.Forall₂.nil
  | cons req reqs ih =>
    have hrest := ih h.2
    unfold Json.Answers at hrest ⊢
    unfold dispatchBatch
    cases r.dispatchSingle_ends req w with
    | answered hn hresponse =>
      simp only [hn, not_isNull_of_isResponse hresponse, List.filter_cons, Bool.not_false, if_true,
        Bool.false_eq_true, if_false]
      exact List.Forall₂.cons hresponse hrest
    | silent hn _ hnull =>
      simp only [hn, hnull, Json.isNull, List.filter_cons, Bool.not_true, if_true, Bool.false_eq_true,
        if_false]
      exact hrest
    | failed hn hfails _ => exact absurd (h.1 hn) hfails

/-- A batch gets a response for every element that is no well-formed notification, and more exactly if
a notification fails. -/
theorem length_dispatchBatch (r : JsonRpcRouter ω) (reqs : List Json) (w : ω) :
    (reqs.filter fun req => !req.isWellFormedNotification).length ≤
        (r.dispatchBatch reqs w).1.length ∧
      ((reqs.filter fun req => !req.isWellFormedNotification).length =
        (r.dispatchBatch reqs w).1.length → r.NotificationsSucceed reqs w) := by
  induction reqs generalizing w with
  | nil => exact ⟨Nat.le_refl _, fun _ => trivial⟩
  | cons req reqs ih =>
    obtain ⟨hle, hsucceed⟩ := ih (r.dispatchSingle req w).2
    unfold dispatchBatch NotificationsSucceed
    cases r.dispatchSingle_ends req w with
    | answered hn hresponse =>
      simp only [hn, not_isNull_of_isResponse hresponse, List.filter_cons, Bool.not_false, if_true,
        Bool.false_eq_true, if_false, List.length_cons]
      exact ⟨Nat.succ_le_succ hle, fun heq => ⟨nofun, hsucceed (Nat.succ.inj heq)⟩⟩
    | silent hn hs hnull =>
      simp only [hn, hnull, Json.isNull, List.filter_cons, Bool.not_true, if_true, Bool.false_eq_true,
        if_false]
      exact ⟨hle, fun heq => ⟨fun _ => hs, hsucceed heq⟩⟩
    | failed hn _ hresponse =>
      simp only [hn, not_isNull_of_isResponse hresponse, List.filter_cons, Bool.not_true,
        Bool.false_eq_true, if_false, List.length_cons]
      exact ⟨by omega, fun heq => by omega⟩

theorem answers_dispatchBatch_iff (r : JsonRpcRouter ω) (reqs : List Json) (w : ω) :
    Json.Answers reqs (r.dispatchBatch reqs w).1 ↔ r.NotificationsSucceed reqs w := by
  constructor
  · intro h
    exact (r.length_dispatchBatch reqs w).2 h.length_eq
  · exact dispatchBatch_answers

/-- **Reply discipline of a parsed request.** -/
theorem disciplined_dispatchRoot_iff (r : JsonRpcRouter ω) (root : Json) (w : ω) :
    root.Disciplined (r.dispatchRoot root w).1 ↔ r.NotificationsSucceed root.elements w := by
  -- a request that is no batch is answered like a batch of one
  have hsingle : ∀ req, ((∃ responses, Json.Answers [req] responses ∧
      (if (r.dispatchSingle req w).1.isNull = true then none else some (r.dispatchSingle req w).1) =
        responses.head?) ↔ r.NotificationsSucceed [req] w) := by
    intro req
    have hbatch : (if (r.dispatchSingle req w).1.isNull = true then none
        else some (r.dispatchSingle req w).1) = (r.dispatchBatch [req] w).1.head? := by
      unfold dispatchBatch
      simp only [dispatchBatch]
      split
      · rfl
      · rfl
    rw [hbatch, ← answers_dispatchBatch_iff]
    constructor
    · rintro ⟨responses, hanswers, hhead⟩
      have hle : responses.length ≤ 1 := by
        rw [← hanswers.length_eq]
        exact List.length_filter_le _ _
      have hle' : (r.dispatchBatch [req] w).1.length ≤ 1 := by
        unfold dispatchBatch
        simp only [dispatchBatch]
        split
        · exact Nat.zero_le _
        · exact Nat.le_refl _
      have heq : (r.dispatchBatch [req] w).1 = responses := by
        refine List.ext_getElem? fun i => ?_
        cases i with
        | zero => rw [← List.head?_eq_getElem?, ← List.head?_eq_getElem?, hhead]
        | succ i => rw [List.getElem?_eq_none (by omega), List.getElem?_eq_none (by omega)]
      rw [heq]
      exact hanswers
    · intro hanswers
      exact ⟨_, hanswers, rfl⟩
  cases root with
  | array reqs =>
    cases reqs with
    | nil =>
      refine ⟨fun _ => trivial, fun _ => ⟨_, _, rfl, isResponse_makeErrorResponse _ _ _, rfl, rfl⟩⟩
    | cons req reqs =>
      simp only [Json.elements, ← answers_dispatchBatch_iff]
      unfold dispatchRoot
      simp only [Json.Disciplined, List.isEmpty_iff]
      constructor
      · rintro ⟨responses, hanswers, heq⟩
        have : (r.dispatchBatch (req :: reqs) w).1 = responses := by
          split at heq
          · split at heq
            · rename_i h1 h2
              rw [h1, h2]
            · cases heq
          · split at heq
            · cases heq
            · injection heq with heq
              injection heq
        rw [this]
        exact hanswers
      · intro hanswers
        exact ⟨_, hanswers, rfl⟩
  | null => exact hsingle .null
  | bool b => exact hsingle (.bool b)
  | number n => exact hsingle (.number n)
  | string s => exact hsingle (.string s)
  | object members => exact hsingle (.object members)

end JsonRpcRouter

end Tudou
