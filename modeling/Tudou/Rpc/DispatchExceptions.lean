import Tudou.Rpc.JsonRpcRouter

/-!
# What `JsonRpcRouter::dispatch` returns and throws

`dispatch` of `src/tudou/rpc/json/JsonRpcRouter.cpp` over a `json::parse` and a `dump` that behave as
documented.

* `Bytes.IsUtf8`, `Json.isUtf8` — what `dump` accepts.
* `Documented` — what is documented of `json::parse` and `dump`.
* `SpeaksUtf8` — what the handlers of a request put into its response is UTF-8.
* `dispatch_returns_iff` — **`dispatch` returns exactly when no number of the request overflows and its
  handlers speak UTF-8.**
* `reply_discipline_iff` — **and replies as it should exactly when every well-formed notification succeeds
  as well.**
-/

namespace Tudou

/-! ## UTF-8 -/

namespace Bytes

/-- The bytes encode a text. -/
def IsUtf8 (bytes : Bytes) : Prop := (List.toByteArray bytes).IsValidUTF8

instance (bytes : Bytes) : Decidable bytes.IsUtf8 := inferInstanceAs (Decidable (ByteArray.IsValidUTF8 _))

/-- A one-byte character in front makes no difference. -/
theorem isUtf8_cons_ascii {c : Char} (hc : c.val ≤ 127) (bytes : Bytes) :
    IsUtf8 (UInt8.ofNat c.toNat :: bytes) ↔ bytes.IsUtf8 := by
  have hencode : List.toByteArray (UInt8.ofNat c.toNat :: bytes) = [c].utf8Encode ++ bytes.toByteArray := by
    rw [List.utf8Encode_singleton, String.utf8EncodeChar_eq_singleton (Char.utf8Size_eq_one_iff.mpr hc),
      ← List.toByteArray_append]
    rfl
  unfold IsUtf8
  rw [hencode, ByteArray.isValidUTF8_utf8Encode_singleton_append_iff]

def isAscii (text : String) : Bool := text.toList.all fun c => c.val ≤ 127

/-- Nor does an ASCII text. -/
theorem isUtf8_ascii_append {text : String} (htext : isAscii text = true) (bytes : Bytes) :
    IsUtf8 (asciiBytes text ++ bytes) ↔ bytes.IsUtf8 := by
  unfold isAscii at htext
  unfold asciiBytes
  generalize text.toList = chars at htext ⊢
  induction chars with
  | nil => exact Iff.rfl
  | cons c chars ih =>
    rw [List.all_cons, Bool.and_eq_true, decide_eq_true_eq] at htext
    rw [List.map_cons, List.cons_append, isUtf8_cons_ascii htext.1]
    exact ih htext.2

theorem isUtf8_nil : IsUtf8 [] := ByteArray.isValidUTF8_empty

theorem isUtf8_ascii {text : String} (htext : isAscii text = true) :
    (asciiBytes text).IsUtf8 := by
  rw [← List.append_nil (asciiBytes text), isUtf8_ascii_append htext]
  exact isUtf8_nil

end Bytes

/-- A string literal of the source. -/
local instance : Coe String Bytes := ⟨asciiBytes⟩

namespace Json

mutual

/-- All strings and keys are UTF-8. -/
def isUtf8 : Json → Bool
  | null | bool _ | number _ => true
  | string s => decide s.IsUtf8
  | array elements => allUtf8 elements
  | object members => membersUtf8 members

def allUtf8 : List Json → Bool
  | [] => true
  | element :: elements => element.isUtf8 && allUtf8 elements

def membersUtf8 : List (Bytes × Json) → Bool
  | [] => true
  | (key, value) :: members => decide key.IsUtf8 && value.isUtf8 && membersUtf8 members

end

end Json

/-- What is documented of `json::parse` and `dump`: `parse` reads UTF-8 only, and throws on bad syntax or on
a number that overflows; `dump` throws on the strings that are not UTF-8, and nowhere else. -/
structure JsonText.Documented (text : JsonText) : Prop where
  parse_empty : text.parse [] = .error .parseError
  parse_throws : ∀ {s e}, text.parse s = .error e → e = .parseError ∨ e = .outOfRange
  parse_utf8 : ∀ {s root}, text.parse s = .ok root → root.isUtf8 = true
  dump_returns : ∀ j, (∃ s, text.dump j = .ok s) ↔ j.isUtf8 = true

namespace JsonRpcRouter

variable {ω : Type*}

/-! ## What the handlers say -/

/-- The id is none of a string, a number and null. -/
def idUnusable (req : Json) : Prop :=
  let id := (req.member? "id").getD .null
  (req.member? "id").isNone = false ∧ id.isString = false ∧ id.isNumber = false ∧ id.isNull = false

instance (req : Json) : Decidable (idUnusable req) := inferInstanceAs (Decidable (_ ∧ _))

/-- The handler of a request that passes all checks. -/
def handlerOf (r : JsonRpcRouter ω) (req : Json) : Option (RpcHandler ω) :=
  if req.isObject = false ∨ idUnusable req ∨ req.hasText "jsonrpc" "2.0" = false ∨
    isStructured (paramsOf req) = false then none
  else
    match req.member? "method" with
    | some (.string methodName) => r.methods methodName
    | _ => none

end JsonRpcRouter

/-- What a handler puts into the response is UTF-8: its result, unless the call was a notification, or the
text of its exception. -/
def HandlerOutcome.isUtf8 (isNotification : Bool) : HandlerOutcome → Bool
  | .returned result => isNotification || result.isUtf8
  | .jsonException what | .invalidArgument what | .stdException what => decide what.IsUtf8
  | .unknownException => true

namespace JsonRpcRouter

variable {ω : Type*}

/-- The handlers called for a list of requests, one after the other, speak UTF-8. -/
def SpeaksUtf8 (r : JsonRpcRouter ω) : List Json → ω → Prop
  | [], _ => True
  | req :: reqs, w =>
    (∀ handler, r.handlerOf req = some handler →
      ((handler (paramsOf req) w).1).isUtf8 (req.member? "id").isNone = true) ∧
      SpeaksUtf8 r reqs (r.dispatchSingle req w).2

/-! ## Responses -/

/-- An ASCII text is UTF-8. -/
theorem isUtf8_text (text : String) (htext : Bytes.isAscii text = true) :
    decide (asciiBytes text).IsUtf8 = true := decide_eq_true (Bytes.isUtf8_ascii htext)

/-- An error response is UTF-8 when its id and its message are. -/
theorem isUtf8_makeErrorResponse (id : Json) (code : Int) (message : Bytes) :
    (makeErrorResponse id code message).isUtf8 = (decide message.IsUtf8 && id.isUtf8) := by
  have hresponse : makeErrorResponse id code message = .object
      [("error", .object [("code", .number (.integer code)), ("message", .string message)]), ("id", id),
        ("jsonrpc", .string "2.0")] := by
    rfl
  rw [hresponse]
  simp [Json.isUtf8, Json.membersUtf8, isUtf8_text "error" (by decide), isUtf8_text "code" (by decide),
    isUtf8_text "message" (by decide), isUtf8_text "id" (by decide), isUtf8_text "jsonrpc" (by decide),
    isUtf8_text "2.0" (by decide)]

theorem isUtf8_makeResponse (id result : Json) :
    (makeResponse id result).isUtf8 = (id.isUtf8 && result.isUtf8) := by
  have hresponse : makeResponse id result =
      .object [("id", id), ("jsonrpc", .string "2.0"), ("result", result)] := by
    rfl
  rw [hresponse]
  simp [Json.isUtf8, Json.membersUtf8, isUtf8_text "result" (by decide), isUtf8_text "id" (by decide),
    isUtf8_text "jsonrpc" (by decide), isUtf8_text "2.0" (by decide)]

/-- The members of a value that is UTF-8 are. -/
theorem isUtf8_member {req value : Json} {key : Bytes} (hreq : req.isUtf8 = true)
    (h : req.member? key = some value) : value.isUtf8 = true := by
  cases req with
  | object members =>
    simp only [Json.isUtf8] at hreq
    simp only [Json.member?] at h
    induction members with
    | nil => cases h
    | cons member members ih =>
      obtain ⟨k, v⟩ := member
      simp only [Json.membersUtf8, Bool.and_eq_true] at hreq
      rw [List.lookup_cons] at h
      split at h
      · cases h
        exact hreq.1.2
      · exact ih hreq.2 h
  | _ => cases h

theorem isUtf8_idOf {req : Json} (hreq : req.isUtf8 = true) :
    ((req.member? "id").getD .null).isUtf8 = true := by
  cases hid : req.member? "id" with
  | none => rfl
  | some id => exact isUtf8_member hreq hid

/-- **What `dispatch_single` does with a request**: it answers with a fixed error, or calls the handler. -/
theorem dispatchSingle_cases (r : JsonRpcRouter ω) {req : Json} (hreq : req.isUtf8 = true) (w : ω) :
    r.handlerOf req = none ∧ (r.dispatchSingle req w).1.isUtf8 = true ∨
      ∃ handler, r.handlerOf req = some handler ∧ r.dispatchSingle req w =
        callHandler handler (paramsOf req) ((req.member? "id").getD .null) (req.member? "id").isNone w := by
  have herror : ∀ (id : Json) (code : Int) (text : String), id.isUtf8 = true →
      Bytes.isAscii text = true → (makeErrorResponse id code (asciiBytes text)).isUtf8 = true := by
    intro id code text hid htext
    rw [isUtf8_makeErrorResponse, isUtf8_text text htext, hid]
    rfl
  have hid := isUtf8_idOf hreq
  unfold dispatchSingle
  split
  · rename_i hobject
    exact .inl ⟨if_pos (.inl hobject), herror _ _ _ rfl (by decide)⟩
  rename_i hobject
  simp only
  split
  · rename_i hbad
    exact .inl ⟨if_pos (.inr (.inl hbad)), herror _ _ _ rfl (by decide)⟩
  rename_i hgood
  split
  · rename_i hversion
    split
    · rename_i methodName hmethod
      have hname : isStructured (paramsOf req) = true → r.handlerOf req = r.methods methodName := by
        intro hparams
        unfold handlerOf
        rw [if_neg, hmethod]
        rintro (h | h | h | h)
        · exact hobject h
        · exact hgood h
        · rw [hversion] at h
          cases h
        · rw [hparams] at h
          cases h
      split
      · rename_i hnone
        refine .inl ⟨?_, herror _ _ _ hid (by decide)⟩
        by_cases hparams : isStructured (paramsOf req) = true
        · exact (hname hparams).trans hnone
        · exact if_pos (.inr (.inr (.inr (Bool.eq_false_iff.mpr hparams))))
      · rename_i handler hhandler
        split
        · rename_i hparams
          exact .inr ⟨handler, (hname hparams).trans hhandler, rfl⟩
        · rename_i hparams
          exact .inl ⟨if_pos (.inr (.inr (.inr (Bool.eq_false_iff.mpr hparams)))), herror _ _ _ hid (by decide)⟩
    · rename_i hmethod
      refine .inl ⟨?_, herror _ _ _ hid (by decide)⟩
      unfold handlerOf
      split
      · rfl
      · split
        · exact absurd ‹_› (hmethod _)
        · rfl
  · rename_i hversion
    exact .inl ⟨if_pos (.inr (.inr (.inl (Bool.eq_false_iff.mpr hversion)))), herror _ _ _ hid (by decide)⟩

/-- The response of a handler is UTF-8 exactly when what it says is. -/
theorem isUtf8_callHandler (handler : RpcHandler ω) (params : Json) {id : Json} (hid : id.isUtf8 = true)
    (isNotification : Bool) (w : ω) :
    (callHandler handler params id isNotification w).1.isUtf8 =
      ((handler params w).1).isUtf8 isNotification := by
  have hinvalid : ∀ what, (makeErrorResponse id (-32602) ("Invalid params: " ++ what)).isUtf8 =
      decide what.IsUtf8 := by
    intro what
    rw [isUtf8_makeErrorResponse, hid, Bool.and_true, decide_eq_decide]
    exact Bytes.isUtf8_ascii_append (by decide) what
  have hinternal : ∀ what, (makeErrorResponse id (-32603) ("Internal error: " ++ what)).isUtf8 =
      decide what.IsUtf8 := by
    intro what
    rw [isUtf8_makeErrorResponse, hid, Bool.and_true, decide_eq_decide]
    exact Bytes.isUtf8_ascii_append (by decide) what
  unfold callHandler
  split
  · rename_i what _ hout
    rw [hout]
    exact hinvalid what
  · rename_i what _ hout
    rw [hout]
    exact hinvalid what
  · rename_i what _ hout
    rw [hout]
    exact hinternal what
  · rename_i _ hout
    rw [hout, isUtf8_makeErrorResponse, hid, isUtf8_text _ (by decide)]
    rfl
  · rename_i result _ hout
    rw [hout]
    cases isNotification with
    | true => rfl
    | false =>
      simp only [Bool.false_eq_true, if_false, isUtf8_makeResponse, hid, Bool.true_and,
        HandlerOutcome.isUtf8, Bool.false_or]

/-- **The response to one request** is UTF-8 exactly when its handler speaks UTF-8. -/
theorem isUtf8_dispatchSingle_iff (r : JsonRpcRouter ω) {req : Json} (hreq : req.isUtf8 = true) (w : ω) :
    (r.dispatchSingle req w).1.isUtf8 = true ↔ ∀ handler, r.handlerOf req = some handler →
      ((handler (paramsOf req) w).1).isUtf8 (req.member? "id").isNone = true := by
  rcases r.dispatchSingle_cases hreq w with ⟨hnone, hutf8⟩ | ⟨handler, hsome, hcall⟩
  · refine iff_of_true hutf8 fun handler hhandler => ?_
    rw [hnone] at hhandler
    cases hhandler
  · rw [hcall, isUtf8_callHandler _ _ (isUtf8_idOf hreq)]
    constructor
    · intro h handler' hhandler
      rw [hsome] at hhandler
      cases hhandler
      exact h
    · exact fun h => h handler hsome

/-- **The responses to a batch**, one after the other. -/
theorem allUtf8_dispatchBatch_iff (r : JsonRpcRouter ω) {reqs : List Json} (w : ω)
    (hreqs : Json.allUtf8 reqs = true) :
    Json.allUtf8 (r.dispatchBatch reqs w).1 = true ↔ r.SpeaksUtf8 reqs w := by
  induction reqs generalizing w with
  | nil => exact iff_of_true rfl trivial
  | cons req reqs ih =>
    simp only [Json.allUtf8, Bool.and_eq_true] at hreqs
    have hbatch : (r.dispatchBatch (req :: reqs) w).1 =
        if (r.dispatchSingle req w).1.isNull then (r.dispatchBatch reqs (r.dispatchSingle req w).2).1
        else (r.dispatchSingle req w).1 :: (r.dispatchBatch reqs (r.dispatchSingle req w).2).1 := rfl
    rw [SpeaksUtf8, ← isUtf8_dispatchSingle_iff r hreqs.1 w, ← ih _ hreqs.2, hbatch]
    split
    · rename_i hnull
      cases hsingle : (r.dispatchSingle req w).1 with
      | null => exact (and_iff_right rfl).symm
      | _ =>
        rw [hsingle] at hnull
        cases hnull
    · rw [Json.allUtf8, Bool.and_eq_true]

/-- **The reply to a parsed request** can be dumped exactly when the handlers speak UTF-8. -/
theorem isUtf8_dispatchRoot_iff (r : JsonRpcRouter ω) {root : Json} (hroot : root.isUtf8 = true) (w : ω) :
    (∀ reply, (r.dispatchRoot root w).1 = some reply → reply.isUtf8 = true) ↔
      r.SpeaksUtf8 root.elements w := by
  -- a request that is no batch is a batch of one
  have hsingle : ∀ req : Json, req.isUtf8 = true →
      ((∀ reply, (if (r.dispatchSingle req w).1.isNull then none else some (r.dispatchSingle req w).1) =
        some reply → reply.isUtf8 = true) ↔ r.SpeaksUtf8 [req] w) := by
    intro req hreq
    rw [SpeaksUtf8, ← isUtf8_dispatchSingle_iff r hreq w, SpeaksUtf8, and_true]
    split
    · rename_i hnull
      cases hresponse : (r.dispatchSingle req w).1 with
      | null => exact iff_of_true (fun _ hreply => by cases hreply) rfl
      | _ =>
        rw [hresponse] at hnull
        cases hnull
    · simp only [Option.some.injEq, forall_eq']
  cases root with
  | array reqs =>
    cases reqs with
    | nil =>
      refine iff_of_true (fun reply hreply => ?_) trivial
      obtain rfl := Option.some.inj hreply
      rw [isUtf8_makeErrorResponse, isUtf8_text _ (by decide)]
      rfl
    | cons req reqs =>
      simp only [Json.isUtf8] at hroot
      rw [Json.elements, ← allUtf8_dispatchBatch_iff r w hroot]
      unfold dispatchRoot
      simp only
      cases hbatch : (r.dispatchBatch (req :: reqs) w).1 with
      | nil => exact iff_of_true (fun _ hreply => by cases hreply) rfl
      | cons response responses =>
        simp only [List.isEmpty_cons, Bool.false_eq_true, if_false, Option.some.injEq, forall_eq', Json.isUtf8]
  | null => exact hsingle .null hroot
  | bool b => exact hsingle (.bool b) hroot
  | number n => exact hsingle (.number n) hroot
  | string s => exact hsingle (.string s) hroot
  | object members => exact hsingle (.object members) hroot

/-- **The reply has a text** exactly when the handlers speak UTF-8. -/
theorem dumpReply_returns_iff {text : JsonText} (htext : text.Documented) (r : JsonRpcRouter ω) {root : Json}
    (hroot : root.isUtf8 = true) (w : ω) :
    (∃ reply, text.dumpReply (r.dispatchRoot root w).1 = .ok reply) ↔ r.SpeaksUtf8 root.elements w := by
  rw [← r.isUtf8_dispatchRoot_iff hroot w]
  cases (r.dispatchRoot root w).1 with
  | none => exact iff_of_true ⟨_, rfl⟩ fun _ h => by cases h
  | some reply =>
    simp only [Option.some.injEq, forall_eq']
    exact htext.dump_returns reply

/-- On a text that parses, `dispatch` is `dispatchRoot` and `dump`. -/
theorem dispatch_eq {text : JsonText} (htext : text.Documented) (r : JsonRpcRouter ω) {requestStr : Bytes}
    {root : Json} (hparse : text.parse requestStr = .ok root) (w : ω) :
    (r.dispatch text requestStr w).1 = text.dumpReply (r.dispatchRoot root w).1 := by
  have hne : requestStr ≠ [] := by
    rintro rfl
    rw [htext.parse_empty] at hparse
    cases hparse
  simp only [dispatch, if_neg hne, hparse]

/-- **`dispatch` returns exactly when no number of the request overflows and its handlers speak UTF-8**:
everything else that is thrown is caught. -/
theorem dispatch_returns_iff {text : JsonText} (htext : text.Documented) (r : JsonRpcRouter ω)
    (requestStr : Bytes) (w : ω) :
    (∃ reply, (r.dispatch text requestStr w).1 = .ok reply) ↔
      text.parse requestStr ≠ .error .outOfRange ∧
        ∀ root, text.parse requestStr = .ok root → r.SpeaksUtf8 root.elements w := by
  have hfixed : ∀ (code : Int) (message : String), Bytes.isAscii message = true →
      ∃ reply, text.dump (makeErrorResponse .null code (asciiBytes message)) = .ok reply := by
    intro code message hmessage
    rw [htext.dump_returns, isUtf8_makeErrorResponse, isUtf8_text _ hmessage]
    rfl
  unfold dispatch
  split
  · rename_i hempty
    refine iff_of_true (hfixed _ _ (by decide)) ?_
    rw [hempty, htext.parse_empty]
    exact ⟨nofun, nofun⟩
  · split
    · rename_i hparse
      refine iff_of_true (hfixed _ _ (by decide)) ?_
      rw [hparse]
      exact ⟨nofun, nofun⟩
    · rename_i e hne hparse
      obtain rfl : e = .outOfRange := (htext.parse_throws hparse).resolve_left hne
      refine iff_of_false ?_ fun h => h.1 hparse
      rintro ⟨reply, hreply⟩
      cases hreply
    · rename_i root hparse
      simp only [hparse, ne_eq, reduceCtorEq, not_false_eq_true, true_and, Except.ok.injEq, forall_eq']
      exact r.dumpReply_returns_iff htext (htext.parse_utf8 hparse) w

/-- `json::parse` on one line, and `dump` where every value has the same text. -/
def lineText (line : Bytes) (parsed : Except JsonException Json) (reply : Bytes) : JsonText where
  parse s := if s = line then parsed else .error .parseError
  dump j := if j.isUtf8 then .ok reply else .error .typeError

theorem documented_lineText {line : Bytes} {parsed : Except JsonException Json} {reply : Bytes}
    (hline : line ≠ []) (hthrows : ∀ e, parsed = .error e → e = .parseError ∨ e = .outOfRange)
    (hutf8 : ∀ root, parsed = .ok root → root.isUtf8 = true) : (lineText line parsed reply).Documented where
  parse_empty := if_neg hline.symm
  parse_throws := by
    intro s e h
    unfold lineText at h
    simp only at h
    split at h
    · exact hthrows e h
    · cases h
      exact .inl rfl
  parse_utf8 := by
    intro s root h
    unfold lineText at h
    simp only at h
    split at h
    · exact hutf8 root h
    · cases h
  dump_returns := by
    intro j
    unfold lineText
    simp only
    split
    · rename_i hj
      exact iff_of_true ⟨_, rfl⟩ hj
    · rename_i hj
      exact iff_of_false nofun hj

theorem parse_lineText (line : Bytes) (root : Json) (reply : Bytes) :
    (lineText line (.ok root) reply).parse line = .ok root := by
  simp only [lineText, if_true]

/-- A router with one method, which counts its calls. -/
def countingRouter : JsonRpcRouter Nat :=
  create.registerMethod "count" fun _ n => (.returned (.number (.integer n)), n + 1)

/-- A notification, and a request after it. -/
def notifyThenCount : Json :=
  .array [.object [("jsonrpc", .string "2.0"), ("method", .string "count")],
    .object [("id", .number (.integer 7)), ("jsonrpc", .string "2.0"), ("method", .string "count")]]

def notifyThenCountText : Bytes :=
  asciiBytes ("[\x7b\"jsonrpc\":\"2.0\",\"method\":\"count\"\x7d," ++
    "\x7b\"id\":7,\"jsonrpc\":\"2.0\",\"method\":\"count\"\x7d]")

def countedText : Bytes := asciiBytes "[\x7b\"id\":7,\"jsonrpc\":\"2.0\",\"result\":1\x7d]"

/-- Their texts. -/
def notifyThenCountLine : JsonText := lineText notifyThenCountText (.ok notifyThenCount) countedText

theorem documented_notifyThenCountLine : notifyThenCountLine.Documented := by
  refine documented_lineText (by decide) nofun fun root hroot => ?_
  cases hroot
  simp [notifyThenCount, Json.isUtf8, Json.allUtf8, Json.membersUtf8, isUtf8_text "jsonrpc" (by decide),
    isUtf8_text "2.0" (by decide), isUtf8_text "method" (by decide), isUtf8_text "count" (by decide),
    isUtf8_text "id" (by decide)]

theorem handlerOf_countingRouter {req : Json} {handler : RpcHandler Nat}
    (h : countingRouter.handlerOf req = some handler) :
    handler = fun _ n => (.returned (.number (.integer n)), n + 1) := by
  unfold handlerOf at h
  split at h
  · cases h
  · split at h
    · simp only [countingRouter, registerMethod, Function.update_apply] at h
      split at h
      · exact (Option.some.inj h).symm
      · cases h
    · cases h

theorem speaksUtf8_countingRouter (reqs : List Json) (n : Nat) : countingRouter.SpeaksUtf8 reqs n := by
  induction reqs generalizing n with
  | nil => exact trivial
  | cons req reqs ih =>
    refine ⟨fun handler hhandler => ?_, ih _⟩
    rw [handlerOf_countingRouter hhandler]
    exact Bool.or_true _

theorem dispatch_returns_notifyThenCount :
    ∃ reply, (countingRouter.dispatch notifyThenCountLine notifyThenCountText 0).1 = .ok reply := by
  have hparse : notifyThenCountLine.parse notifyThenCountText = .ok notifyThenCount := parse_lineText _ _ _
  refine (dispatch_returns_iff documented_notifyThenCountLine countingRouter notifyThenCountText 0).mpr
    ⟨?_, fun root _ => speaksUtf8_countingRouter _ _⟩
  rw [hparse]
  exact nofun

/-- **A number that overflows escapes**: `parse` throws `out_of_range`, which is no `parse_error`. -/
theorem overflow_escapes :
    ¬∀ (text : JsonText), text.Documented → ∀ (r : JsonRpcRouter Unit) (requestStr : Bytes),
      ∃ reply, (r.dispatch text requestStr ()).1 = .ok reply := by
  intro h
  have htext : (lineText (asciiBytes "1e999") (.error .outOfRange) []).Documented := by
    refine documented_lineText (by decide) (fun e he => ?_) nofun
    cases he
    exact .inr rfl
  obtain ⟨reply, hreply⟩ := h _ htext create (asciiBytes "1e999")
  unfold dispatch at hreply
  rw [if_neg (by decide)] at hreply
  cases hreply

/-! ## Reply discipline -/

/-- `dispatch` returns, and what it returns is the text of a disciplined reply. -/
def RepliesAsItShould (text : JsonText) (r : JsonRpcRouter ω) (requestStr : Bytes) (root : Json) (w : ω) :
    Prop :=
  ∃ reply, (r.dispatch text requestStr w).1 = .ok reply ∧
    text.dumpReply (r.dispatchRoot root w).1 = .ok reply ∧ root.Disciplined (r.dispatchRoot root w).1

/-- **The reply is as it should be exactly when the notifications succeed and the handlers speak UTF-8**:
for every request text that parses, the text of a disciplined reply, or nothing, is sent back if and only
if every well-formed notification in it names a registered method, has structured params and runs to its
return, and no handler puts bytes into its response that `dump` throws on. -/
theorem reply_discipline_iff {text : JsonText} (htext : text.Documented) (r : JsonRpcRouter ω)
    {requestStr : Bytes} {root : Json} (hparse : text.parse requestStr = .ok root) (w : ω) :
    r.RepliesAsItShould text requestStr root w ↔
      r.NotificationsSucceed root.elements w ∧ r.SpeaksUtf8 root.elements w := by
  rw [← r.disciplined_dispatchRoot_iff, ← r.dumpReply_returns_iff htext (htext.parse_utf8 hparse)]
  unfold RepliesAsItShould
  rw [r.dispatch_eq htext hparse]
  constructor
  · rintro ⟨reply, -, hreply, hdisciplined⟩
    exact ⟨hdisciplined, reply, hreply⟩
  · rintro ⟨hdisciplined, reply, hreply⟩
    exact ⟨reply, hreply, hreply, hdisciplined⟩

theorem reply_discipline_notifyThenCount :
    countingRouter.RepliesAsItShould notifyThenCountLine notifyThenCountText notifyThenCount 0 := by
  have hsucceed : ∀ req w, req.member? "method" = some (.string "count") →
      isStructured (paramsOf req) = true → countingRouter.Succeeds req w := by
    intro req w hname hparams
    have hmethod : countingRouter.methods "count" =
        some fun _ n => (.returned (.number (.integer n)), n + 1) := by
      simp [countingRouter, registerMethod]
    exact ⟨_, _, _, hname, hmethod, hparams, rfl⟩
  refine (reply_discipline_iff documented_notifyThenCountLine countingRouter (parse_lineText _ _ _) 0).mpr
    ⟨?_, speaksUtf8_countingRouter _ _⟩
  exact ⟨fun _ => hsucceed _ _ rfl rfl, fun _ => hsucceed _ _ rfl rfl, trivial⟩

/-- **A notification that fails is answered**: an unknown method, without an id. -/
theorem unknown_notification_answered :
    ¬∀ (text : JsonText), text.Documented → ∀ (r : JsonRpcRouter Unit) (requestStr : Bytes) (root : Json),
      text.parse requestStr = .ok root → r.RepliesAsItShould text requestStr root () := by
  intro h
  let root : Json := .object [("jsonrpc", .string "2.0"), ("method", .string "update")]
  have hutf8 : root.isUtf8 = true := by
    simp [root, Json.isUtf8, Json.membersUtf8, isUtf8_text "jsonrpc" (by decide), isUtf8_text "2.0" (by decide),
      isUtf8_text "method" (by decide), isUtf8_text "update" (by decide)]
  have htext : (lineText (asciiBytes "\x7b\"jsonrpc\":\"2.0\",\"method\":\"update\"\x7d") (.ok root)
      (asciiBytes ("\x7b\"error\":\x7b\"code\":-32601,\"message\":\"Method not found\"\x7d," ++
        "\"id\":null,\"jsonrpc\":\"2.0\"\x7d"))).Documented :=
    documented_lineText (by decide) nofun fun _ hroot => by cases hroot; exact hutf8
  obtain ⟨_, _, _, hdisciplined⟩ := h _ htext create _ root (parse_lineText _ _ _)
  rw [disciplined_dispatchRoot_iff] at hdisciplined
  obtain ⟨hsucceeds, -⟩ := hdisciplined
  obtain ⟨name, handler, _, _, hhandler, _, _⟩ := hsucceeds rfl
  cases hhandler

end JsonRpcRouter

end Tudou
