import Tudou.Http.PipelinedResponses
import Tudou.Http.HttpsServer

/-!
# A connection and the `HttpServer` that serves it

`HttpServer::on_message` (`src/tudou/http/HttpServer.cpp`), with or without TLS, on top of the connection
of `Tudou.Tcp.TcpConnection`: the code runs in the message callback, and the socket takes what it likes in
between.

* `HttpTransport` — what TLS makes of received data and of responses; `plainTransport` without TLS,
  `HttpsServer.transport` with it.
* `ServedConnection`, `servedConnection` — the connection and the code running in its callbacks.
* `plainHttp_simulates` — without TLS these are the runs of `plainHttp`.
* `HttpsServer.onMessage_eq` — with TLS the first stage is the one of `HttpsServer.onMessage`.
* `complete_of_supplied` — **a `MemoryBio` response whose file can be read to its declared size, and whose
  pieces are all encrypted, is put on the stream completely.**
-/

namespace Tudou

open Transition TcpConnection

/-- The part of `HttpServer` that depends on the TLS mode, on the TLS part of a `ConnectionState`. -/
structure HttpTransport (τ : Type*) where
  /-- The first stage of `on_message`: what is sent at once, and the payload, if there is one. -/
  receive : Bytes → τ → Option (τ × List Request × Option Bytes)
  reply : HttpReply τ
  /-- The reply puts a part of the response on the stream and leaves it at that. -/
  incomplete : HttpResponse → τ → Bool
  /-- The file and the TLS engine give the reply all it asks them for. -/
  supplied : HttpResponse → τ → Bool
  complete : ∀ {response t}, supplied response t = true → incomplete response t = false

/-- A server without TLS: the connection gets every response in one piece. -/
def plainTransport : HttpTransport Unit where
  receive data t := some (t, [], some data)
  reply := plainReply
  incomplete _ _ := false
  supplied _ _ := true
  complete _ := rfl

/-- The code running in the message callback. -/
inductive ServedStage where
  | idle
  | receiving (data : Bytes)
  | outbound (todo : List Request) (payload : Option Bytes)
  | running
  deriving DecidableEq, Repr

structure ServedConnection (P ω τ : Type*) where
  machine : Machine
  hasState : Bool
  stage : ServedStage
  code : OnMessage P ω τ
  /-- The response that is being sent, and the TLS state it was given to. -/
  replying : Option (HttpResponse × τ)

/-- The response one pass through the loop comes to. -/
def OnMessage.nextResponse {P ω τ : Type*} (L : Llhttp P) (handler : HttpHandler ω) (rest : Bytes)
    (m : OnMessage P ω τ) : Option HttpResponse :=
  let (context, result, _) := m.context.parse L rest
  match result with
  | .needMoreData => none
  | .rejected => some badRequest
  | .complete => some (handler context.request m.world).1

namespace ServedConnection

variable {P ω τ : Type*} (L : Llhttp P) (handler : HttpHandler ω) (T : HttpTransport τ)

def leave (c : ServedConnection P ω τ) : Option (ServedConnection P ω τ) :=
  (c.machine.step .leave).map fun m => { c with machine := m, stage := .idle }

def nextReplying (c : ServedConnection P ω τ) : Option (HttpResponse × τ) :=
  match c.code.phase with
  | .loop rest => if rest = [] then none else (c.code.nextResponse L handler rest).map (·, c.code.tls)
  | .reply (_ :: _) _ => c.replying
  | .reply [] _ | .done => none

def onMessage (c : ServedConnection P ω τ) : Option (ServedConnection P ω τ) :=
  match c.stage with
  | .idle =>
    (c.machine.step (.call .receive)).map fun m =>
      { c with machine := m, stage := .receiving c.machine.session.conn.readBuffer.readable }
  | .receiving data =>
    if data = [] ∨ c.hasState = false then c.leave
    else
      match T.receive data c.code.tls with
      | none => none
      | some (tls, todo, payload) =>
        some { c with stage := .outbound todo payload, code := { c.code with tls := tls } }
  | .outbound (r :: todo) payload =>
    (c.machine.step (.call r)).map fun m => { c with machine := m, stage := .outbound todo payload }
  | .outbound [] none => c.leave
  | .outbound [] (some payload) =>
    some { c with stage := .running, code := { c.code with phase := .loop payload } }
  | .running =>
    if c.code.phase = .done then c.leave
    else
      let (code, request) := c.code.advance L handler T.reply c.hasState
      let c' := { c with code := code, replying := c.nextReplying L handler }
      match request with
      | none => some c'
      | some r => (c.machine.step (.call r)).map fun m => { c' with machine := m }

def step (c : ServedConnection P ω τ) : HttpLabel → Option (ServedConnection P ω τ)
  | .tcp (.call _) | .tcp .leave => none
  | .tcp l => (c.machine.step l).map fun m => { c with machine := m }
  | .http =>
    match c.machine.stack with
    | .user .message :: _ => c.onMessage L handler T
    -- `on_close(conn)`
    | .user .close :: _ =>
      (c.machine.step .leave).map fun m => { c with machine := m, hasState := false }
    | _ => none

end ServedConnection

/-- **The connection and its server**, from the moment the connection is established. -/
def servedConnection {P ω τ : Type*} (L : Llhttp P) (handler : HttpHandler ω) (T : HttpTransport τ)
    (highWaterMark : Nat) (w : ω) (tls : τ) : System (ServedConnection P ω τ) HttpLabel where
  init := ⟨⟨Session.fresh httpCallbacks highWaterMark, [], []⟩, true, .idle,
    ⟨.create L, w, tls, [], .done⟩, none⟩
  step := ServedConnection.step L handler T

/-! ## Without TLS -/

namespace ServedConnection

variable {P ω : Type*} {L : Llhttp P} {handler : HttpHandler ω} {highWaterMark : Nat} {w : ω}

def plainStage : HttpStage → ServedStage
  | .idle => .idle
  | .receiving data => .receiving data
  | .running => .running

def ofPlain (c : PlainHttp P ω) (replying : Option (HttpResponse × Unit)) : ServedConnection P ω Unit :=
  ⟨c.machine, c.hasState, plainStage c.stage, c.code, replying⟩

theorem run_ofPlain {c c' : PlainHttp P ω} {rest : List Task} (replying : Option (HttpResponse × Unit))
    (hst : c.machine.stack = .user .message :: rest) (hs : c.onMessage L handler = some c') :
    ∃ ls replying', (servedConnection L handler plainTransport highWaterMark w ()).run
      (ofPlain c replying) ls = some (ofPlain c' replying') := by
  obtain ⟨⟨session, stack, handlers⟩, hasState, stage, code, received⟩ := c
  obtain rfl : stack = .user .message :: rest := hst
  cases stage with
  | idle =>
    cases hs
    exact ⟨[.http], replying, rfl⟩
  | receiving data =>
    simp only [PlainHttp.onMessage] at hs
    split at hs
    · rename_i hdone
      cases hs
      refine ⟨[.http], replying, ?_⟩
      simp only [System.run, servedConnection, step, ofPlain, plainStage, onMessage, if_pos hdone]
      rfl
    · rename_i hdata
      cases hs
      refine ⟨[.http, .http], replying, ?_⟩
      simp only [System.run, servedConnection, step, ofPlain, plainStage, onMessage, if_neg hdata,
        plainTransport]
  | running =>
    simp only [PlainHttp.onMessage] at hs
    split at hs
    · rename_i hdone
      cases hs
      refine ⟨[.http], replying, ?_⟩
      simp only [System.run, servedConnection, step, ofPlain, plainStage, onMessage, if_pos hdone]
      rfl
    · rename_i hphase
      generalize hadvance : code.advance L handler plainReply hasState = advanced at hs
      obtain ⟨code', request⟩ := advanced
      simp only at hs
      refine ⟨[.http], nextReplying L handler (ofPlain
        ⟨⟨session, .user .message :: rest, handlers⟩, hasState, .running, code, received⟩ replying), ?_⟩
      cases request with
      | none =>
        cases hs
        simp only [System.run, servedConnection, step, ofPlain, plainStage, onMessage, if_neg hphase,
          plainTransport, hadvance]
      | some r =>
        cases hs
        simp only [System.run, servedConnection, step, ofPlain, plainStage, onMessage, if_neg hphase,
          plainTransport, hadvance]
        rfl

theorem run_tcp {c : PlainHttp P ω} {replying : Option (HttpResponse × Unit)} {l : Label} {m : Machine}
    (hm : c.machine.step l = some m) (hcall : l.isCall = false) (hleave : l ≠ .leave) :
    (servedConnection L handler plainTransport highWaterMark w ()).run (ofPlain c replying) [.tcp l] =
      some (ofPlain { c with machine := m } replying) := by
  cases l with
  | call r => cases hcall
  | leave => exact absurd rfl hleave
  | events | dispatch | exec | ret =>
    simp only [System.run, servedConnection, step, ofPlain, hm, Option.map_some]

/-- **Without TLS** the connection and its server are those of `plainHttp`. -/
theorem plainHttp_simulates : Simulation (plainHttp L handler highWaterMark w) (fun _ _ => True)
    (servedConnection L handler plainTransport highWaterMark w ())
    (fun c d => ∃ replying, d = ofPlain c replying) where
  init := ⟨none, rfl⟩
  step := by
    rintro c l c' _ ⟨replying, rfl⟩ - hs
    cases l with
    | tcp l =>
      cases l with
      | call r => cases hs
      | leave => cases hs
      | events | dispatch | exec | ret =>
        obtain ⟨m, hm, rfl⟩ := Option.map_eq_some_iff.mp hs
        exact ⟨_, ofPlain { c with machine := m } replying, run_tcp hm rfl nofun, replying, rfl⟩
    | http =>
      simp only [plainHttp, PlainHttp.step] at hs
      split at hs
      · rename_i hst
        obtain ⟨ls, replying', hrun⟩ := run_ofPlain replying hst hs
        exact ⟨ls, _, hrun, replying', rfl⟩
      · rename_i hst
        obtain ⟨m, hm, rfl⟩ := Option.map_eq_some_iff.mp hs
        refine ⟨[.http], ofPlain { c with machine := m, hasState := false } replying, ?_, replying, rfl⟩
        simp only [System.run, servedConnection, step, ofPlain, hst, hm, Option.map_some]
      · cases hs

end ServedConnection

/-! ## With TLS -/

namespace HttpsServer

variable {P ω S : Type*} (E : HttpsServer P ω S)

/-- The first stage of `on_message(conn)` of a server with TLS enabled. -/
def receive (fuel : Nat) (receivedData : Bytes) (t : ConnectionTls S) :
    Option (ConnectionTls S × List Request × Option Bytes) :=
  let parsed (payload : Bytes) (t : ConnectionTls S) := { t with parsed := t.parsed ++ payload }
  match t.tlsConnection, t.isKtlsOffloaded with
  | some tls, false =>
    match tls.readPlaintext E.ssl fuel receivedData with
    | none => none
    | some (tls, result, plaintext, outbound) =>
      let t := { t with tlsConnection := some tls }
      let todo := if outbound = [] then [] else [.send outbound]
      if result = .error then some ({ t with readError := true }, todo, none)
      else
        let t := t.switch E.ssl E.offload
        if result ≠ .ready ∧ t.isKtlsOffloaded = false then some (t, todo, none)
        else some (parsed plaintext t, todo, some plaintext)
  -- an error is logged: the `TlsConnection` is missing
  | none, false => some (t, [], none)
  | _, true => some (parsed receivedData t, [], some receivedData)

/-- The first stage is the one of `onMessage`. -/
theorem onMessage_eq (fuel : Nat) {receivedData : Bytes} {s : HttpsSession P ω S} (hdata : receivedData ≠ [])
    (hopen : E.isOpen s = true) :
    E.onMessage fuel receivedData s =
      match E.receive fuel receivedData s.tls with
      | none => none
      | some (tls, todo, payload) =>
        let s := { s with tls := tls, issued := s.issued ++ todo }
        match payload with
        | none => some s
        | some payload => s.serve E.llhttp E.handler E.reply E.net fuel payload := by
  obtain ⟨context, world, ⟨tlsConnection, tlsMode, isKtlsOffloaded, preads, parsed, readError, kernelSent⟩,
    log, issued⟩ := s
  unfold onMessage receive
  rw [if_neg hdata, if_neg (by rw [hopen]; exact nofun)]
  cases tlsConnection with
  | none =>
    cases isKtlsOffloaded with
    | false =>
      simp only [List.append_nil]
    | true =>
      simp only [List.append_nil]
      rfl
  | some tls =>
    cases isKtlsOffloaded with
    | true =>
      simp only [List.append_nil]
      rfl
    | false =>
      simp only
      cases tls.readPlaintext E.ssl fuel receivedData with
      | none => rfl
      | some read =>
        obtain ⟨tls, result, plaintext, outbound⟩ := read
        simp only [onPlaintext, sendOutbound]
        by_cases hresult : result = .error
        · simp only [if_pos hresult]
        · simp only [if_neg hresult]
          by_cases hready : result ≠ .ready ∧ (ConnectionTls.switch E.ssl E.offload
            ⟨some tls, tlsMode, false, preads, parsed, readError, kernelSent⟩).isKtlsOffloaded = false
          · rw [if_pos hready]
            exact if_pos hready
          · rw [if_neg hready]
            exact if_neg hready

/-! ## Responses in pieces -/

end HttpsServer

/-- The length of the message: the head with an in-memory body, and the declared size of a file body. -/
def HttpResponse.messageLength (r : HttpResponse) : Nat :=
  r.responseHead.length + if r.validFile.isSome then r.fileBody.size else 0

/-- `SSL_write` takes each piece as a whole and yields ciphertext for it. -/
def TlsConnection.takesAll {S : Type*} (ssl : OpenSsl S) : List Bytes → TlsConnection S → Bool
  | [], _ => true
  | piece :: pieces, c =>
    let (c', ok, _) := c.writePlaintext ssl piece
    ok && c'.taken == c.taken ++ piece && takesAll ssl pieces c'

/-- Reads that get to the end have returned as many bytes as were asked for. -/
theorem ScopedFd.length_readFile_of_complete {preads : Nat → Option Nat} {file : ScopedFd}
    (remaining : Nat) : ∀ offset i : Nat, (file.readFile preads remaining offset i).2.2 = true →
      (file.readFile preads remaining offset i).1.flatten.length = remaining := by
  induction remaining using Nat.strongRecOn with
  | _ remaining ih =>
    intro offset i
    rw [readFile]
    by_cases hzero : remaining = 0
    · rw [if_pos hzero]
      exact fun _ => hzero.symm
    · have hle := file.length_pread (preads i) (min kTlsFileChunkSize remaining) offset
      simp only [if_neg hzero]
      generalize file.pread (preads i) (min kTlsFileChunkSize remaining) offset = chunk at hle ⊢
      by_cases hne : chunk = []
      · rw [if_pos hne]
        exact fun hok => absurd hok Bool.false_ne_true
      · have hpos := List.length_pos_iff.mpr hne
        rw [if_neg hne]
        intro hok
        have hrest := ih (remaining - chunk.length) (by omega) (offset + chunk.length) (i + 1) hok
        simp only [List.flatten_cons, List.length_append, hrest]
        omega

namespace MemoryBioSend

variable {S : Type*} {ssl : OpenSsl S} {preads : Nat → Option Nat}

/-- A file whose reads get to the end, and whose chunks are all taken. -/
theorem sendFileLoop_takesAll (file : ScopedFd) (remaining : Nat) :
    ∀ (offset : Nat) (m : MemoryBioSend S),
      (file.readFile preads remaining offset m.preads).2.2 = true →
      m.tls.takesAll ssl (file.readFile preads remaining offset m.preads).1 = true →
      (m.sendFileLoop ssl preads file remaining offset).1.tls.taken =
        m.tls.taken ++ (file.readFile preads remaining offset m.preads).1.flatten := by
  induction remaining using Nat.strongRecOn with
  | _ remaining ih =>
    intro offset m
    rw [sendFileLoop, ScopedFd.readFile]
    by_cases hzero : remaining = 0
    · simp only [if_pos hzero]
      exact fun _ _ => (List.append_nil _).symm
    · simp only [if_neg hzero]
      generalize file.pread (preads m.preads) (min kTlsFileChunkSize remaining) offset = chunk
      by_cases hne : chunk = []
      · simp only [if_pos hne]
        exact fun hok => absurd hok Bool.false_ne_true
      · have hpos := List.length_pos_iff.mpr hne
        simp only [if_neg hne, TlsConnection.takesAll]
        intro hok htakes
        simp only [Bool.and_eq_true, beq_iff_eq] at htakes
        obtain ⟨⟨hwrite, htaken⟩, hrest⟩ := htakes
        simp only [sendMemoryBioPlaintext, hwrite, if_true]
        rw [ih (remaining - chunk.length) (by omega) _ _ hok hrest, htaken, List.flatten_cons,
          List.append_assoc]

/-- **A response whose file can be read, and whose pieces are all taken**, goes out completely. -/
theorem sendMemoryBioResponse_takesAll {tls : TlsConnection S} (r : HttpResponse) (i : Nat)
    (hread : (plaintexts preads r r.responseHead i).2.2 = true)
    (htakes : tls.takesAll ssl (plaintexts preads r r.responseHead i).1 = true) :
    (sendMemoryBioResponse ssl preads r.withContentLength r.responseHead ⟨tls, i, [], []⟩).1.tls.taken.length =
      tls.taken.length + r.messageLength := by
  unfold plaintexts at hread htakes
  unfold sendMemoryBioResponse HttpResponse.messageLength
  simp only [HttpResponse.withContentLength_validFile, HttpResponse.withContentLength_fileBody]
  cases hfile : r.validFile with
  | none =>
    simp only [hfile, TlsConnection.takesAll, Bool.and_true, Bool.and_eq_true, beq_iff_eq] at htakes
    simp only [sendMemoryBioPlaintext, htakes.2, List.length_append, Option.isSome_none, Bool.false_eq_true,
      if_false, Nat.add_zero]
  | some file =>
    simp only [hfile] at hread htakes
    simp only [TlsConnection.takesAll, Bool.and_eq_true, beq_iff_eq] at htakes
    obtain ⟨⟨hwrite, htaken⟩, hrest⟩ := htakes
    simp only [sendMemoryBioPlaintext, hwrite, if_true, Option.isSome_some]
    rw [sendFileLoop_takesAll file _ _ _ hread hrest, List.length_append, htaken, List.length_append,
      ScopedFd.length_readFile_of_complete _ _ _ hread, Nat.add_assoc]

end MemoryBioSend

namespace HttpsServer

variable {P ω S : Type*} (E : HttpsServer P ω S)

/-- `send_memory_bio_response` has put a part of the message on the stream, and no more. -/
def incomplete (response : HttpResponse) (t : ConnectionTls S) : Bool :=
  match t.tlsMode, t.tlsConnection with
  | .memoryBio, some tls =>
    let m := (MemoryBioSend.sendMemoryBioResponse E.ssl E.preads response.withContentLength
      response.responseHead ⟨tls, t.preads, [], []⟩).1
    m.sends != [] && m.tls.taken.length != tls.taken.length + response.messageLength
  | _, _ => false

/-- The reads return the file up to its declared size, and `SSL_write` takes every piece; or it does not
take the head, and nothing is sent. -/
def supplied (response : HttpResponse) (t : ConnectionTls S) : Bool :=
  match t.tlsMode, t.tlsConnection with
  | .memoryBio, some tls =>
    let (pieces, _, read) := MemoryBioSend.plaintexts E.preads response response.responseHead t.preads
    !(tls.writePlaintext E.ssl response.responseHead).2.1 || read && tls.takesAll E.ssl pieces
  | _, _ => true

theorem complete_of_supplied {response : HttpResponse} {t : ConnectionTls S}
    (h : E.supplied response t = true) : E.incomplete response t = false := by
  unfold supplied at h
  unfold incomplete
  split at h
  · rename_i tls hmode htls
    rw [Bool.or_eq_true, Bool.and_eq_true, Bool.not_eq_true'] at h
    rcases h with hhead | ⟨hread, htakes⟩
    · -- the head is not sent, and nothing behind it
      have hsends : (MemoryBioSend.sendMemoryBioResponse E.ssl E.preads response.withContentLength
          response.responseHead ⟨tls, t.preads, [], []⟩).1.sends = [] := by
        unfold MemoryBioSend.sendMemoryBioResponse
        split
        · simp only [MemoryBioSend.sendMemoryBioPlaintext, hhead]
          rfl
        · simp only [MemoryBioSend.sendMemoryBioPlaintext, hhead]
          rfl
      simp [hsends]
    · have hlength := MemoryBioSend.sendMemoryBioResponse_takesAll response t.preads hread htakes
      simp [hlength]
  · rfl

/-- The server with TLS enabled; `fuel` bounds the calls of `SSL_read` in one `read_plaintext`. -/
def transport (fuel : Nat) : HttpTransport (ConnectionTls S) where
  receive := E.receive fuel
  reply := E.reply
  incomplete := E.incomplete
  supplied := E.supplied
  complete := E.complete_of_supplied

end HttpsServer

end Tudou
