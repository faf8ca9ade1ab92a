import Tudou.Http.RequestStream
import Tudou.Http.TlsResponses

/-!
# `HttpServer` with TLS

Model of the TLS stage of `HttpServer::on_message` in `src/tudou/http/HttpServer.cpp`, in front of the
request loop.

* `HttpsServer` — the server and what it runs on; `onMessage`, `receiveAll`.
* `Receiving` — a connection in `MemoryBio` mode that has read a stream without an invalid record.
* `replies_memoryBio` — **its replies are sent, and close the connection where they are to.**
-/

namespace Tudou

open Framing

/-- A server with TLS enabled and what it runs on. -/
structure HttpsServer (P ω S : Type*) where
  llhttp : Llhttp P
  ssl : OpenSsl S
  handler : HttpHandler ω
  /-- The answers of `pread`. -/
  preads : Nat → Option Nat
  offload : KtlsOffload
  /-- The network keeps the connection open. -/
  net : List Request → Bool
  /-- What `receive` returns for ciphertext once the socket belongs to kernel TLS, given the
  ciphertext before it. -/
  kernelRead : Bytes → Bytes → Bytes

/-- A connection of such a server. -/
abbrev HttpsSession (P ω S : Type*) := HttpSession P ω (ConnectionTls S)

/-- `create_connection_state(conn)`. -/
def ConnectionTls.create {S : Type*} (ssl : OpenSsl S) (tlsMode : TlsMode) : ConnectionTls S :=
  ⟨some (.create ssl), tlsMode, false, 0, [], false, []⟩

/-- The switch to kernel TLS in `on_message`. -/
def ConnectionTls.switch {S : Type*} (ssl : OpenSsl S) (offload : KtlsOffload) (t : ConnectionTls S) :
    ConnectionTls S :=
  match t.tlsConnection with
  | none => t
  | some tls =>
    if t.tlsMode = .kernelTls ∧ tls.state = .established then
      let (tls, ok) := tls.enableKtlsOffload ssl offload
      if ok then { t with tlsConnection := some tls, isKtlsOffloaded := true }
      else { t with tlsConnection := some tls, tlsMode := .memoryBio }
    else t

/-- The socket was handed to kernel TLS: `SSL_set_bio` was reached. -/
def ConnectionTls.switched {S : Type*} (t : ConnectionTls S) : Bool :=
  match t.tlsConnection with
  | none => false
  | some tls => !tls.hasBios

namespace HttpsServer

variable {P ω S : Type*} (E : HttpsServer P ω S)

/-- `send_http_response`. -/
def reply : HttpReply (ConnectionTls S) := httpsReply E.ssl E.preads

def create (w : ω) (tlsMode : TlsMode) : HttpsSession P ω S :=
  HttpSession.create E.llhttp w (.create E.ssl tlsMode)

def isOpen (s : HttpsSession P ω S) : Bool := HttpSession.isOpen E.net s.issued

/-- The payload goes to the request loop. -/
def parse (fuel : Nat) (payload : Bytes) (s : HttpsSession P ω S) : Option (HttpsSession P ω S) :=
  { s with tls := { s.tls with parsed := s.tls.parsed ++ payload } }.serve E.llhttp E.handler E.reply
    E.net fuel payload

/-- The `TlsConnection` has moved on, and what it wants to send is sent. -/
def sendOutbound (tls : TlsConnection S) (outbound : Bytes) (s : HttpsSession P ω S) :
    HttpsSession P ω S :=
  { s with
    tls := { s.tls with tlsConnection := some tls }
    issued := s.issued ++ if outbound = [] then [] else [.send outbound] }

/-- `on_message(conn)` behind a successful `read_plaintext`. -/
def onPlaintext (fuel : Nat) (result : TlsReadResult) (plaintext : Bytes) (s : HttpsSession P ω S) :
    Option (HttpsSession P ω S) :=
  let s := { s with tls := s.tls.switch E.ssl E.offload }
  if result ≠ .ready ∧ s.tls.isKtlsOffloaded = false then some s
  else E.parse fuel plaintext s

/-- `on_message(conn)`. -/
def onMessage (fuel : Nat) (receivedData : Bytes) (s : HttpsSession P ω S) :
    Option (HttpsSession P ω S) :=
  if receivedData = [] then some s
  else if E.isOpen s = false then some s
  else
    match s.tls.tlsConnection, s.tls.isKtlsOffloaded with
    | some tls, false =>
      match tls.readPlaintext E.ssl fuel receivedData with
      | none => none
      | some (tls, result, plaintext, outbound) =>
        let s := sendOutbound tls outbound s
        if result = .error then some { s with tls := { s.tls with readError := true } }
        else E.onPlaintext fuel result plaintext s
    -- an error is logged: the `TlsConnection` is missing
    | none, false => some s
    | _, true => E.parse fuel receivedData s

/-- The ciphertext of a connection, chunk by chunk, behind the ciphertext `received`. -/
def receiveAll (fuel : Nat) : Bytes → HttpsSession P ω S → List Bytes → Option (HttpsSession P ω S)
  | _, s, [] => some s
  | received, s, chunk :: chunks =>
    let data := if s.tls.switched then E.kernelRead received chunk else chunk
    match E.onMessage fuel data s with
    | none => none
    | some s => receiveAll fuel (received ++ chunk) s chunks

/-! ## Replies in `MemoryBio` mode -/

/-- Whether a reply closes the connection, given the number of `pread` calls before: only one that was
sent completely does. -/
def afterMemoryBio (preads : Nat → Option Nat) (response : HttpResponse) (i : Nat) : Option Nat :=
  let (_, i, ok) := MemoryBioSend.plaintexts preads response response.responseHead i
  if ok && response.closeConnection then none else some i

/-- A connection in `MemoryBio` mode that has read `received`, without an invalid record, and has
parsed its plaintext. -/
structure Receiving (T : TlsStream) (Sees : S → TlsView → Prop) (received : Bytes) (i : Nat)
    (t : ConnectionTls S) : Prop where
  tlsMode : t.tlsMode = .memoryBio
  notOffloaded : t.isKtlsOffloaded = false
  preads : t.preads = i
  parsed : t.parsed = T.plaintext received
  noError : t.readError = false
  agrees : ∃ tls, t.tlsConnection = some tls ∧ tls.Agrees T Sees received

variable {E} {T : TlsStream} {Sees : S → TlsView → Prop} {received : Bytes}

/-- **One reply** of an established connection: what was sent, and where it leaves the connection. -/
theorem reply_memoryBio (hssl : E.ssl.Ideal T Sees)
    (hestablished : (T.view received).state = .established) {t : ConnectionTls S}
    (hmode : t.tlsMode = .memoryBio) {tls : TlsConnection S} (htls : t.tlsConnection = some tls)
    (hagrees : tls.Agrees T Sees received) (response : HttpResponse)
    (hlen : response.responseHead.length < 2 ^ 31) :
    ∃ (ciphertexts : List Bytes) (tls' : TlsConnection S),
      E.reply response t = (ciphertexts.map Request.send ++
          (if (MemoryBioSend.plaintexts E.preads response response.responseHead t.preads).2.2 then
            if response.closeConnection then [Request.forceClose] else []
          else []),
        { t with
          tlsConnection := some tls'
          preads := (MemoryBioSend.plaintexts E.preads response response.responseHead t.preads).2.1 }) ∧
      tls'.Agrees T Sees received ∧
      tls'.taken = tls.taken ++
        (MemoryBioSend.plaintexts E.preads response response.responseHead t.preads).1.flatten := by
  obtain ⟨m, hsend, hsent, hcount⟩ := @MemoryBioSend.sendMemoryBioResponse_sent _ _ E.preads _
    (hssl.acceptsWrites hestablished) ⟨tls, t.preads, [], []⟩ (hagrees.writable hestablished)
    response.withContentLength _ response.responseHead_ne_nil hlen
  have hplain : ∀ i, MemoryBioSend.plaintexts E.preads response.withContentLength
      response.responseHead i = MemoryBioSend.plaintexts E.preads response response.responseHead i := by
    intro i
    simp only [MemoryBioSend.plaintexts, HttpResponse.withContentLength_validFile,
      HttpResponse.withContentLength_fileBody]
  rw [hplain] at hsend hsent hcount
  obtain ⟨ciphertexts, hsends⟩ := hsent.sends
  refine ⟨ciphertexts, m.tls, ?_, ?_, hsent.taken⟩
  · simp only [reply, httpsReply, hmode, htls]
    rw [show response.withContentLength.packageToString = response.responseHead from rfl, hsend]
    simp only [hsends, hcount, List.nil_append, HttpResponse.withContentLength_closeConnection]
  · exact ⟨hsent.writable.hasBios, hsent.writable.state.trans hestablished.symm,
      hsent.writable.isOpen, hagrees.sound⟩

theorem length_badRequest : badRequest.responseHead.length < 2 ^ 31 := by decide +kernel

/-- A connection that cannot encrypt sends nothing. -/
theorem reply_unwritable {t : ConnectionTls S} (hmode : t.tlsMode = .memoryBio) {tls : TlsConnection S}
    (htls : t.tlsConnection = some tls) (hno : tls.ensureTlsSession = false ∨ tls.state ≠ .established)
    (response : HttpResponse) : E.reply response t = ([], t) := by
  have hwrite : tls.writePlaintext E.ssl response.responseHead = (tls, false, []) := by
    rw [TlsConnection.writePlaintext, if_neg response.responseHead_ne_nil]
    cases hready : tls.ensureTlsSession with
    | false => rfl
    | true =>
      rw [hready] at hno
      exact if_pos (hno.resolve_left (by simp))
  have hsend : MemoryBioSend.sendMemoryBioResponse E.ssl E.preads response.withContentLength
      response.responseHead ⟨tls, t.preads, [], []⟩ =
      (⟨tls, t.preads, [response.responseHead], []⟩, false) := by
    unfold MemoryBioSend.sendMemoryBioResponse MemoryBioSend.sendMemoryBioPlaintext
    rw [hwrite]
    cases response.withContentLength.validFile with
    | none => rfl
    | some file => rfl
  obtain ⟨conn, mode, offloaded, preads, parsed, readError, kernelSent⟩ := t
  obtain rfl : mode = .memoryBio := hmode
  obtain rfl : conn = some tls := htls
  simp only [reply, httpsReply]
  rw [show response.withContentLength.packageToString = response.responseHead from rfl, hsend]
  rfl

/-- **What the replies make of the connection.** -/
theorem replies_memoryBio (hssl : E.ssl.Ideal T Sees)
    (hlen : ∀ request w, (E.handler request w).1.responseHead.length < 2 ^ 31)
    (hestablished : (T.view received).state = .established) :
    HttpSession.Replies E.handler E.reply (Receiving T Sees received) (afterMemoryBio E.preads) where
  sends := by
    intro request w i i' t ht hafter
    obtain ⟨tls, htls, hagrees⟩ := ht.agrees
    obtain ⟨ciphertexts, tls', hreply, hagrees', -⟩ :=
      reply_memoryBio hssl hestablished ht.tlsMode htls hagrees _ (hlen request w)
    rw [ht.preads] at hreply
    unfold afterMemoryBio at hafter
    simp only at hafter
    split at hafter
    · cases hafter
    · rename_i hkeep
      cases hafter
      rw [hreply]
      refine ⟨fun r hr => ?_, ht.tlsMode, ht.notOffloaded, rfl, ht.parsed, ht.noError, tls', rfl, hagrees'⟩
      rcases List.mem_append.mp hr with hr | hr
      · obtain ⟨ciphertext, -, rfl⟩ := List.mem_map.mp hr
        exact ⟨ciphertext, rfl⟩
      · split at hr
        · split at hr
          · rename_i hok hclose
            exact absurd (by rw [hok, hclose]; rfl) hkeep
          · cases hr
        · cases hr
  closes := by
    intro request w i t ht hafter
    obtain ⟨tls, htls, hagrees⟩ := ht.agrees
    obtain ⟨ciphertexts, tls', hreply, -⟩ :=
      reply_memoryBio hssl hestablished ht.tlsMode htls hagrees _ (hlen request w)
    rw [ht.preads] at hreply
    unfold afterMemoryBio at hafter
    simp only at hafter
    split at hafter
    · rename_i hclose
      obtain ⟨hok, hclose⟩ := Bool.and_eq_true_iff.mp hclose
      rw [hreply, if_pos hok, if_pos hclose]
      exact List.mem_append_right _ (List.mem_singleton_self _)
    · cases hafter
  rejects := by
    intro i t ht
    obtain ⟨tls, htls, hagrees⟩ := ht.agrees
    obtain ⟨ciphertexts, tls', hreply, -⟩ :=
      reply_memoryBio hssl hestablished ht.tlsMode htls hagrees badRequest length_badRequest
    rw [hreply]
    exact List.mem_append_right _ (List.mem_singleton_self _)

/-- A server that answers the request of `getRequest`, on a network that never fails. -/
def answeringGet (offload : KtlsOffload) : HttpsServer HttpSession.Script Unit (TlsView × Bytes) where
  llhttp := HttpSession.scripted HttpSession.getRequest
  ssl := .ofStream .ofBytes
  handler := HttpSession.sayOk
  preads _ := none
  offload := offload
  net _ := true
  kernelRead _ chunk := chunk

theorem length_answeringGet (offload : KtlsOffload) (request : HttpRequest) (w : Unit) :
    ((answeringGet offload).handler request w).1.responseHead.length < 2 ^ 31 := by
  show ({ body := .ofLiteral "ok" } : HttpResponse).responseHead.length < 2 ^ 31
  decide +kernel

end HttpsServer

end Tudou
