import Mathlib.Algebra.Group.Nat.Defs
import Tudou.Rpc.DispatchExceptions
import Tudou.Rpc.JsonRpcServer

/-!
# `JsonRpcClient`: whose answer a call returns

Model of `JsonRpcClient::call`: a request with a sequence number as its id, one line read from the
socket, and the checks of the line.  What a read delivers beyond the line is dropped.

* `JsonRpcClient.call` — one call, with `json::parse` and `dump` as parameters and the results of
  `write` and `read` as they come.
* `JsonRpcClient.calls` — any calls one after the other on one socket.
* `returns_answer` — **what a call has read are the bytes of its own reads, those after the reads of
  the calls before it; a call that returns normally returns the result of the first line among them,
  and a number the line has for an id is cast to the number this very call sent**.
* `anonymous_line_accepted`, `truncated_id_accepted` — a line without an id, and one whose id only
  begins with the number, pass for the answer of whichever call reads them.
-/

namespace Tudou

/-- A string literal of the source. -/
local instance : Coe String Bytes := ⟨asciiBytes⟩

/-- `static_cast<uint64_t>` of a `double`, given by its bits: the value without its fraction.  Out of
range, where the cast has no defined value, the model takes the remainder. -/
def truncateDouble (bits : UInt64) : UInt64 :=
  let exponent := bits.toNat / 2 ^ 52 % 2 ^ 11
  let significand := bits.toNat % 2 ^ 52 + if exponent = 0 then 0 else 2 ^ 52
  let magnitude := if exponent < 1075 then significand / 2 ^ (1075 - exponent)
    else significand * 2 ^ (exponent - 1075)
  if bits.toNat / 2 ^ 63 = 0 then UInt64.ofNat magnitude else -UInt64.ofNat magnitude

namespace Json

/-- `get<uint64_t>()`: a number of any kind is cast. -/
def getUint64 : Json → Except JsonException UInt64
  | number (.integer n) => .ok (UInt64.ofInt n)
  | number (.float bits) => .ok (truncateDouble bits)
  | _ => .error .typeError

/-- `get<std::string>()`. -/
def getString : Json → Except JsonException Bytes
  | string s => .ok s
  | _ => .error .typeError

end Json

/-- What `call` throws. -/
inductive ClientException where
  | runtimeError (what : Bytes)
  | json (e : JsonException)
  deriving DecidableEq, Repr

structure JsonRpcClient where
  nextSequenceId : UInt64
  deriving DecidableEq, Repr

/-- What the calls of `write` and `read` on `clientFd_` still to be made return. -/
structure ClientSocket where
  writes : List WriteResult
  reads : List ReadResult
  deriving DecidableEq, Repr

/-- A call that has ended. -/
structure ClientCall where
  seq : UInt64
  request : Json
  /-- All it read from the socket. -/
  responseBuf : Bytes
  outcome : Except ClientException Json

namespace JsonRpcClient

def create : JsonRpcClient := ⟨1⟩

/-- The request of a call. -/
def buildRequest (method : Bytes) (params : Json) (seq : UInt64) : Json :=
  let request := (Json.null.set "jsonrpc" (.string "2.0")).set "method" (.string method)
  let request := if params.isNull then request else request.set "params" params
  request.set "id" (.number (.integer seq.toNat))

/-- The send loop with so many bytes left: whether it has sent all of them, or `none` while a `write`
blocks. -/
def writeAll : Nat → List WriteResult → Option (Bool × List WriteResult)
  | 0, writes => some (true, writes)
  | _ + 1, [] => none
  | left + 1, w :: writes =>
    match w with
    | .failed .eintr => writeAll (left + 1) writes
    | .failed _ | .accepted 0 => some (false, writes)
    | .accepted (n + 1) => writeAll (left - n) writes

/-- The read loop: what it has read, and whether a line end is among it. -/
def readLine : Bytes → List ReadResult → Option (Bytes × Bool × List ReadResult)
  | _, [] => none
  | responseBuf, r :: reads =>
    match r with
    | .failed .eintr => readLine responseBuf reads
    | .failed _ | .data [] => some (responseBuf, false, reads)
    | .data (b :: bs) =>
      let responseBuf := responseBuf ++ b :: bs
      if newline ∈ responseBuf then some (responseBuf, true, reads) else readLine responseBuf reads

/-- `responseBuf.substr(0, delimiterPos)`. -/
def responseLine (responseBuf : Bytes) : Bytes := responseBuf.take (responseBuf.idxOf newline)

/-- The id of the response, where it has one that is not null. -/
def checkId (response : Json) (seq : UInt64) : Except ClientException Unit :=
  match response.member? "id" with
  | none => .ok ()
  | some id =>
    if id.isNull then .ok ()
    else match id.getUint64 with
      | .error e => .error (.json e)
      | .ok respId =>
        if respId ≠ seq then .error (.runtimeError "JsonRpcClient: Response ID mismatch") else .ok ()

/-- The error of the response, where it has one that is not null. -/
def checkError (response : Json) : Except ClientException Unit :=
  match response.member? "error" with
  | none => .ok ()
  | some err =>
    if err.isNull then .ok ()
    else match err.member? "message" with
      | none => .error (.runtimeError (asciiBytes "JSON-RPC Server Error: " ++ asciiBytes "Unknown error"))
      | some message => match message.getString with
        | .error e => .error (.json e)
        | .ok errMsg => .error (.runtimeError (asciiBytes "JSON-RPC Server Error: " ++ errMsg))

/-- The result of the response. -/
def checkResult (response : Json) : Except ClientException Json :=
  match response.member? "result" with
  | none => .error (.runtimeError "JsonRpcClient: Response missing 'result' payload")
  | some result => .ok result

section

variable (text : JsonText) (what : JsonException → Bytes)

/-- The checks of the response line; `what e` is the text of an exception of `json::parse`. -/
def checkResponse (seq : UInt64) (responseLine : Bytes) : Except ClientException Json :=
  match text.parse responseLine with
  | .error e =>
    .error (.runtimeError (asciiBytes "JsonRpcClient: Failed to parse response JSON: " ++ what e))
  | .ok response =>
    if response.isObject then do
      checkId response seq
      checkError response
      checkResult response
    else .error (.runtimeError "JsonRpcClient: Invalid response frame (not an object)")

/-- `call(method, params)`, or `none` while it blocks. -/
def call (client : JsonRpcClient) (socket : ClientSocket) (method : Bytes) (params : Json) :
    Option (ClientCall × JsonRpcClient × ClientSocket) :=
  let seq := client.nextSequenceId
  let client := { client with nextSequenceId := seq + 1 }
  let request := buildRequest method params seq
  match text.dump request with
  | .error e => some (⟨seq, request, [], .error (.json e)⟩, client, socket)
  | .ok requestStr =>
    match writeAll (requestStr.length + 1) socket.writes with
    | none => none
    | some (false, writes) =>
      some (⟨seq, request, [],
        .error (.runtimeError "JsonRpcClient: Failed to send request bytes")⟩, client,
        { socket with writes := writes })
    | some (true, writes) =>
      match readLine [] socket.reads with
      | none => none
      | some (responseBuf, false, reads) =>
        some (⟨seq, request, responseBuf, .error (.runtimeError
          "JsonRpcClient: Connection closed by remote server while waiting for response")⟩, client,
          ⟨writes, reads⟩)
      | some (responseBuf, true, reads) =>
        some (⟨seq, request, responseBuf, checkResponse text what seq (responseLine responseBuf)⟩, client,
          ⟨writes, reads⟩)

/-- Calls one after the other; those that have ended, up to the first that blocks. -/
def calls : List (Bytes × Json) → JsonRpcClient → ClientSocket → List ClientCall
  | [], _, _ => []
  | (method, params) :: requests, client, socket =>
    match call text what client socket method params with
    | none => []
    | some (ended, client, socket) => ended :: calls requests client socket

end

/-! ## What a line has to pass -/

/-- A response that passes the checks of the call with sequence number `seq`. -/
structure IsAnswer (response : Json) (seq : UInt64) (result : Json) : Prop where
  object : response.isObject = true
  id : ∀ id, response.member? "id" = some id → id.isNull = true ∨ id.isNumber = true
  -- A negative id passes for the number it is congruent to.
  integer : ∀ n : Int, response.member? "id" = some (.number (.integer n)) → n % UInt64.size = seq.toNat
  fraction : ∀ bits, response.member? "id" = some (.number (.float bits)) → truncateDouble bits = seq
  noError : ∀ err, response.member? "error" = some err → err.isNull = true
  result : response.member? "result" = some result

/-- An id that is a sequence number at all is the call's own. -/
theorem IsAnswer.own {response result : Json} {seq : UInt64} (h : IsAnswer response seq result) {n : Nat}
    (hn : n < UInt64.size) (hid : response.member? "id" = some (.number (.integer n))) :
    n = seq.toNat := by
  have hmod := h.integer n hid
  unfold UInt64.size at hn hmod
  omega

/-- The strict reading: the id is the sequence number. -/
structure IsOwnAnswer (response : Json) (seq : UInt64) (result : Json) : Prop where
  id : response.member? "id" = some (.number (.integer seq.toNat))
  result : response.member? "result" = some result

theorem getUint64_natCast {n : Nat} (h : n < UInt64.size) :
    (Json.number (.integer n)).getUint64 = .ok (UInt64.ofNat n) := by
  have hmod : ((n : Int) % 2 ^ 64).toNat = n := by
    unfold UInt64.size at h
    omega
  rw [Json.getUint64, UInt64.ofInt, hmod]

theorem toNat_of_getUint64 {n : Int} {respId : UInt64}
    (h : (Json.number (.integer n)).getUint64 = .ok respId) : n % UInt64.size = respId.toNat := by
  have hid : UInt64.ofInt n = respId := Except.ok.inj h
  have hnonneg : 0 ≤ n % UInt64.size := Int.emod_nonneg n (by decide)
  have hlt : n % UInt64.size < UInt64.size := Int.emod_lt_of_pos n (by decide)
  have hnat : (n % UInt64.size).toNat < UInt64.size := by omega
  rw [← hid]
  show n % UInt64.size = ((UInt64.ofNat (n % UInt64.size).toNat).toNat : Int)
  rw [UInt64.toNat_ofNat_of_lt' hnat, Int.toNat_of_nonneg hnonneg]

theorem isNumber_of_getUint64 {j : Json} {respId : UInt64} (h : j.getUint64 = .ok respId) :
    j.isNumber = true := by
  unfold Json.getUint64 at h
  split at h
  · rfl
  · rfl
  · cases h

/-- An id that passes is null or is cast to the sequence number. -/
theorem checkId_ok {response id : Json} {seq : UInt64} (h : checkId response seq = .ok ())
    (hid : response.member? "id" = some id) : id.isNull = true ∨ id.getUint64 = .ok seq := by
  rw [checkId, hid] at h
  simp only at h
  split at h
  · exact .inl ‹_›
  · split at h
    · cases h
    · rename_i respId hget
      split at h
      · cases h
      · rename_i hsame
        exact .inr (not_not.mp hsame ▸ hget)

theorem getUint64_number {response : Json} {seq : UInt64} (h : checkId response seq = .ok ())
    {n : JsonNumber} (hid : response.member? "id" = some (.number n)) :
    (Json.number n).getUint64 = .ok seq :=
  (checkId_ok h hid).resolve_left fun hnull => by cases hnull

theorem checkError_ok {response : Json} (h : checkError response = .ok ()) :
    ∀ err, response.member? "error" = some err → err.isNull = true := by
  intro err herr
  rw [checkError, herr] at h
  simp only at h
  split at h
  · assumption
  · split at h
    · cases h
    · split at h
      · cases h
      · cases h

theorem checkResult_ok {response result : Json} (h : checkResult response = .ok result) :
    response.member? "result" = some result := by
  unfold checkResult at h
  split at h
  · cases h
  · rename_i hresult
    cases h
    exact hresult

theorem checkResponse_ok {text : JsonText} {what : JsonException → Bytes} {seq : UInt64} {line : Bytes}
    {result : Json} (h : checkResponse text what seq line = .ok result) :
    ∃ response, text.parse line = .ok response ∧ IsAnswer response seq result := by
  unfold checkResponse at h
  split at h
  · cases h
  · rename_i response hparse
    refine ⟨response, hparse, ?_⟩
    split at h
    · rename_i hobject
      cases hid : checkId response seq with
      | error e =>
        rw [hid] at h
        cases h
      | ok _ =>
        cases herr : checkError response with
        | error e =>
          rw [hid, herr] at h
          cases h
        | ok _ =>
          rw [hid, herr] at h
          change checkResult response = .ok result at h
          exact {
            object := hobject
            id := fun _ hmember => (checkId_ok hid hmember).imp_right isNumber_of_getUint64
            integer := fun _ hmember => toNat_of_getUint64 (getUint64_number hid hmember)
            fraction := fun _ hmember => Except.ok.inj (getUint64_number hid hmember)
            noError := checkError_ok herr
            result := checkResult_ok h }
    · cases h

/-! ## The calls -/

/-- The bytes that `read` delivers. -/
def bytesOf : List ReadResult → Bytes
  | [] => []
  | .data bytes :: reads => bytes ++ bytesOf reads
  | .failed _ :: reads => bytesOf reads

@[simp] theorem bytesOf_append (rs rs' : List ReadResult) :
    bytesOf (rs ++ rs') = bytesOf rs ++ bytesOf rs' := by
  induction rs with
  | nil => rfl
  | cons r rs ih =>
    cases r with
    | data bytes => simp only [List.cons_append, bytesOf, ih, List.append_assoc]
    | failed e => simpa only [List.cons_append, bytesOf] using ih

/-- The read loop appends what its own reads deliver, up to the first line end. -/
theorem readLine_ends (reads : List ReadResult) {buf buf' : Bytes} {found : Bool}
    {reads' : List ReadResult} (h : readLine buf reads = some (buf', found, reads')) :
    (∃ own, reads = own ++ reads' ∧ buf' = buf ++ bytesOf own) ∧ (found = true → newline ∈ buf') := by
  induction reads generalizing buf with
  | nil => cases h
  | cons r reads ih =>
    unfold readLine at h
    split at h
    · obtain ⟨⟨own, hreads, hbuf⟩, hfound⟩ := ih h
      exact ⟨⟨.failed .eintr :: own, congrArg _ hreads, hbuf⟩, hfound⟩
    · rename_i e _
      cases h
      exact ⟨⟨[.failed e], rfl, (List.append_nil _).symm⟩, Bool.false_ne_true.elim⟩
    · cases h
      exact ⟨⟨[.data []], rfl, (List.append_nil _).symm⟩, Bool.false_ne_true.elim⟩
    · rename_i b bs
      simp only at h
      split at h
      · rename_i hmem
        cases h
        refine ⟨⟨[.data (b :: bs)], rfl, ?_⟩, fun _ => hmem⟩
        rw [bytesOf, bytesOf, List.append_nil]
      · obtain ⟨⟨own, hreads, hbuf⟩, hfound⟩ := ih h
        refine ⟨⟨.data (b :: bs) :: own, congrArg _ hreads, ?_⟩, hfound⟩
        rw [hbuf, bytesOf, List.append_assoc]

/-- What one call does. -/
theorem call_ends {text : JsonText} {what : JsonException → Bytes} {client client' : JsonRpcClient}
    {socket socket' : ClientSocket} {method : Bytes} {params : Json} {c : ClientCall}
    (h : call text what client socket method params = some (c, client', socket')) :
    c.seq = client.nextSequenceId ∧ c.request = buildRequest method params c.seq ∧
      client'.nextSequenceId = client.nextSequenceId + 1 ∧
      (∃ own, socket.reads = own ++ socket'.reads ∧ c.responseBuf = bytesOf own) ∧
      ∀ result, c.outcome = .ok result → newline ∈ c.responseBuf ∧
        ∃ response, text.parse (responseLine c.responseBuf) = .ok response ∧
          IsAnswer response c.seq result := by
  unfold call at h
  simp only at h
  split at h
  · cases h
    exact ⟨rfl, rfl, rfl, ⟨[], rfl, rfl⟩, fun _ hr => by cases hr⟩
  · split at h
    · cases h
    · cases h
      exact ⟨rfl, rfl, rfl, ⟨[], rfl, rfl⟩, fun _ hr => by cases hr⟩
    · split at h
      · cases h
      · rename_i hread
        cases h
        exact ⟨rfl, rfl, rfl, (readLine_ends _ hread).1, fun _ hr => by cases hr⟩
      · rename_i hread
        cases h
        refine ⟨rfl, rfl, rfl, (readLine_ends _ hread).1, fun result hr => ?_⟩
        exact ⟨(readLine_ends _ hread).2 rfl, checkResponse_ok hr⟩

theorem id_buildRequest (method : Bytes) (params : Json) (seq : UInt64) :
    (buildRequest method params seq).member? "id" = some (.number (.integer seq.toNat)) := by
  unfold buildRequest
  have hobject : ((Json.null.set "jsonrpc" (.string "2.0")).set "method" (.string method)).isObject =
      true := Json.isObject_set (.inl (Json.isObject_set (.inr rfl) _ _)) _ _
  simp only
  split
  · rw [Json.member?_set hobject, if_pos rfl]
  · rw [Json.member?_set (Json.isObject_set (.inl hobject) _ _), if_pos rfl]

section

variable {text : JsonText} {what : JsonException → Bytes}

/-- **Whatever the server sends and however it arrives, a call has read the bytes of its own reads,
which follow the reads of the calls before it.  If it returns normally, it returns the result of the
first line among these bytes, and a number that the line has for an id is cast to the number this very
call has sent**; every other call throws. -/
theorem returns_answer (requests : List (Bytes × Json)) (client : JsonRpcClient) (socket : ClientSocket)
    (i : Nat) {c : ClientCall} (h : (calls text what requests client socket)[i]? = some c) :
    c.seq = client.nextSequenceId + UInt64.ofNat i ∧
      c.request.member? "id" = some (.number (.integer c.seq.toNat)) ∧
      (∃ earlier own later, socket.reads = earlier ++ own ++ later ∧
        bytesOf earlier = ((calls text what requests client socket).take i).flatMap (·.responseBuf) ∧
        c.responseBuf = bytesOf own) ∧
      ∀ result, c.outcome = .ok result → newline ∈ c.responseBuf ∧
        ∃ response, text.parse (responseLine c.responseBuf) = .ok response ∧
          IsAnswer response c.seq result := by
  induction requests generalizing client socket i with
  | nil => cases h
  | cons request requests ih =>
    unfold calls at h ⊢
    split at h
    · cases h
    · rename_i ended client' socket' hcall
      obtain ⟨hseq, hrequest, hnext, ⟨own, hreads, hbuf⟩, hok⟩ := call_ends hcall
      cases i with
      | zero =>
        rw [List.getElem?_cons_zero] at h
        cases h
        refine ⟨hseq.trans (UInt64.add_zero _).symm, ?_, ⟨[], own, socket'.reads, hreads, rfl, hbuf⟩, hok⟩
        rw [hrequest]
        exact id_buildRequest _ _ _
      | succ i =>
        obtain ⟨hseq', hid, ⟨earlier, own', later, hreads', hearlier, hbuf'⟩, hrest⟩ := ih client' socket' i h
        refine ⟨?_, hid, ⟨own ++ earlier, own', later, ?_, ?_, hbuf'⟩, hrest⟩
        · rw [hseq', hnext, UInt64.ofNat_add, UInt64.add_assoc, UInt64.add_comm 1]
          rfl
        · rw [hreads, hreads', List.append_assoc, List.append_assoc, List.append_assoc]
        · rw [bytesOf_append, List.take_succ_cons, List.flatMap_cons, hearlier, hbuf]

/-- A server that answers one request, `add` without parameters, with this line. -/
def answering (line : Bytes) (response : Json) : JsonText where
  parse s := if s = line then .ok response else .error .parseError
  dump _ := .ok (asciiBytes "\x7b\"id\":1,\"jsonrpc\":\"2.0\",\"method\":\"add\"\x7d")

def answerLine : Bytes :=
  [123, 34, 105, 100, 34, 58, 49, 44, 34, 114, 101, 115, 117, 108, 116, 34, 58, 55, 125]

example : answerLine = asciiBytes "\x7b\"id\":1,\"result\":7\x7d" := by decide

def answer : Json := .object [("id", .number (.integer 1)), ("result", .number (.integer 7))]

/-- The request goes out in two parts; the line comes in two, with the beginning of another one. -/
def pieces : ClientSocket where
  writes := [.failed .eintr, .accepted 10, .accepted 30]
  reads := [.data (answerLine.take 8), .failed .eintr, .data (answerLine.drop 8 ++ [newline, 123])]

theorem returns_answer_pieces :
    ∃ c, (calls (answering answerLine answer) (fun _ => []) [("add", .null)] create pieces)[0]? = some c ∧
      (∃ earlier own later, pieces.reads = earlier ++ own ++ later ∧ bytesOf earlier = [] ∧
        c.responseBuf = bytesOf own) ∧
      newline ∈ c.responseBuf ∧
        ∃ response, (answering answerLine answer).parse (responseLine c.responseBuf) = .ok response ∧
          IsAnswer response c.seq (.number (.integer 7)) := by
  have h : (calls (answering answerLine answer) (fun _ => []) [("add", .null)] create pieces)[0]? =
      some _ := rfl
  obtain ⟨-, -, hread, hok⟩ := returns_answer _ _ _ 0 h
  exact ⟨_, h, hread, hok (.number (.integer 7)) rfl⟩

/-- A result without an id. -/
def anonymousLine : Bytes := [123, 34, 114, 101, 115, 117, 108, 116, 34, 58, 55, 125]

example : anonymousLine = asciiBytes "\x7b\"result\":7\x7d" := by decide

def anonymous : Json := .object [("result", .number (.integer 7))]

def anonymousPieces : ClientSocket where
  writes := [.accepted 40]
  reads := [.data (anonymousLine ++ [newline])]

theorem returns_answer_anonymous :
    ¬∀ (text : JsonText) (what : JsonException → Bytes) (requests : List (Bytes × Json))
      (socket : ClientSocket) (i : Nat) (c : ClientCall) (result : Json),
      (calls text what requests create socket)[i]? = some c → c.outcome = .ok result →
        ∃ response, text.parse (responseLine c.responseBuf) = .ok response ∧
          IsOwnAnswer response c.seq result := by
  intro h
  have hcall : (calls (answering anonymousLine anonymous) (fun _ => []) [("add", .null)] create
      anonymousPieces)[0]? = some _ := rfl
  obtain ⟨response, hparse, hown⟩ := h _ _ _ _ 0 _ (.number (.integer 7)) hcall rfl
  have hresponse : response = anonymous := by
    have heq : Except.ok anonymous = Except.ok response := hparse
    exact (Except.ok.inj heq).symm
  have hid := hown.id
  rw [hresponse] at hid
  cases hid

/-- A line without an id, or with a null one, passes for the answer of whichever call reads it. -/
theorem anonymous_line_accepted {line : Bytes} {response result : Json} (seq : UInt64)
    (hparse : text.parse line = .ok response) (hobject : response.isObject = true)
    (hid : ∀ id, response.member? "id" = some id → id.isNull = true)
    (herr : ∀ err, response.member? "error" = some err → err.isNull = true)
    (hresult : response.member? "result" = some result) :
    checkResponse text what seq line = .ok result := by
  have hcheckId : checkId response seq = .ok () := by
    unfold checkId
    split
    · rfl
    · exact if_pos (hid _ ‹_›)
  have hcheckError : checkError response = .ok () := by
    unfold checkError
    split
    · rfl
    · exact if_pos (herr _ ‹_›)
  simp only [checkResponse, hparse, hobject, if_true, hcheckId, hcheckError]
  exact (by rw [checkResult, hresult] : checkResult response = .ok result)

/-- A fraction passes for the sequence number it begins with. -/
theorem truncated_id_accepted {response : Json} {bits : UInt64}
    (h : response.member? "id" = some (.number (.float bits))) (seq : UInt64) :
    checkId response seq = .ok () ↔ truncateDouble bits = seq := by
  simp only [checkId, h, Json.isNull, Bool.false_eq_true, if_false, Json.getUint64]
  split
  · rename_i hne
    exact iff_of_false (by simp) hne
  · rename_i heq
    exact iff_of_true rfl (not_not.mp heq)

/-- `1.5`. -/
example : truncateDouble 0x3FF8000000000000 = 1 := by decide

/-- No two calls read the same bytes: one after the other they read what the server has sent. -/
theorem responseBufs_prefix (requests : List (Bytes × Json)) (client : JsonRpcClient)
    (socket : ClientSocket) :
    ((calls text what requests client socket).flatMap (·.responseBuf)) <+: bytesOf socket.reads := by
  induction requests generalizing client socket with
  | nil => exact List.nil_prefix
  | cons request requests ih =>
    unfold calls
    split
    · exact List.nil_prefix
    · rename_i ended client' socket' hcall
      obtain ⟨own, hreads, hbuf⟩ := (call_ends hcall).2.2.2.1
      rw [hreads, bytesOf_append, List.flatMap_cons, hbuf]
      exact (List.prefix_append_right_inj _).mpr (ih client' socket')

end

end JsonRpcClient

end Tudou
