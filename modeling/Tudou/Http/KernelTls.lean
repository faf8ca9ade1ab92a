import Tudou.Http.TlsReception

/-!
# `KernelTls` mode against `MemoryBio` mode

Two connections of one `HttpServer` on the same ciphertext, one in each mode.

* `peerPlaintext` — what the peer decrypts; `Transparent` — both modes dispatch the same and send the
  same.
* `Keeps`, `receiveAll_keeps` — the rule for invariants of what was dispatched and sent.
* `Encrypting`, `Offloaded`, `Stranded` — a connection in `MemoryBio` mode; one whose socket encrypts;
  one whose BIOs are gone while it is back in `MemoryBio` mode.
* `Shaking` — both connections during the handshake.
* `kernel_tls_transparent_iff` — **`KernelTls` mode is transparent exactly when no established
  connection is switched.**
-/

namespace Tudou

open Framing

/-- **What the peer decrypts**: what `SSL_write` has taken, and what the kernel was left to encrypt. -/
def ConnectionTls.peerPlaintext {S : Type*} (t : ConnectionTls S) : Bytes :=
  (match t.tlsConnection with
    | none => []
    | some tls => tls.taken) ++ t.kernelSent

/-- In one of the chunks that follow `received` the handshake ends, with no invalid record in that
chunk. -/
def TlsStream.Establishes (T : TlsStream) : Bytes → List Bytes → Prop
  | _, [] => False
  | received, chunk :: chunks =>
    (T.view (received ++ chunk)).state = .established ∨
      (T.view (received ++ chunk)).state = .handshaking ∧ T.Establishes (received ++ chunk) chunks

namespace HttpsServer

variable {P ω S : Type*} {E : HttpsServer P ω S} {hL : E.llhttp.Incremental} {T : TlsStream}
  {Sees : S → TlsView → Prop} {w₀ w : ω}

/-- The same requests are dispatched, and the peer decrypts the same. -/
structure Transparent (s s' : HttpsSession P ω S) : Prop where
  dispatched : s'.log = s.log
  decrypted : s'.tls.peerPlaintext = s.tls.peerPlaintext

/-- The responses to what was done, one after the other, and the handlers' state behind them. -/
def answered (handler : HttpHandler ω) (w : ω) (log : List HttpOutcome) : Bytes × ω :=
  log.foldl (fun (bytes, w) outcome =>
    match outcome with
    | .dispatched request => (bytes ++ (handler request w).1.serialised, (handler request w).2)
    | .rejected => (bytes ++ badRequest.serialised, w)) ([], w)

theorem answered_dispatched (handler : HttpHandler ω) (w : ω) (log : List HttpOutcome)
    (request : HttpRequest) :
    answered handler w (log ++ [.dispatched request]) =
      ((answered handler w log).1 ++ (handler request (answered handler w log).2).1.serialised,
        (handler request (answered handler w log).2).2) := by
  simp only [answered, List.foldl_append, List.foldl_cons, List.foldl_nil]

theorem answered_rejected (handler : HttpHandler ω) (w : ω) (log : List HttpOutcome) :
    answered handler w (log ++ [.rejected]) =
      ((answered handler w log).1 ++ badRequest.serialised, (answered handler w log).2) := by
  simp only [answered, List.foldl_append, List.foldl_cons, List.foldl_nil]

/-! ## Invariants of what was dispatched and sent -/

/-- A property of what was dispatched, the handlers and the TLS part that every step of `on_message`
keeps; the connections that have it are no longer switched. -/
structure Keeps (E : HttpsServer P ω S) (J : List HttpOutcome → ω → ConnectionTls S → Prop) : Prop where
  dispatch : ∀ {log w t} request, J log w t →
    J (log ++ [.dispatched request]) (E.handler request w).2 (E.reply (E.handler request w).1 t).2
  reject : ∀ {log w t}, J log w t → J (log ++ [.rejected]) w (E.reply badRequest t).2
  read : ∀ {log w t tls data}, J log w t → t.tlsConnection = some tls → t.isKtlsOffloaded = false →
    data ≠ [] → ∃ tls' result plaintext outbound n,
      (∀ fuel ≥ n, tls.readPlaintext E.ssl fuel data = some (tls', result, plaintext, outbound)) ∧
      J log w { t with tlsConnection := some tls' }
  parsed : ∀ {log w t} bytes, J log w t → J log w { t with parsed := bytes }
  readError : ∀ {log w t}, J log w t → J log w { t with readError := true }
  switched : ∀ {log w t}, J log w t → t.isKtlsOffloaded = false → t.switch E.ssl E.offload = t
  connected : ∀ {log w t}, J log w t → t.tlsConnection ≠ none

variable {J : List HttpOutcome → ω → ConnectionTls S → Prop}

/-- Between two chunks: the context has read the beginning of a message, and the invariant holds. -/
structure Rests (hL : E.llhttp.Incremental) (J : List HttpOutcome → ω → ConnectionTls S → Prop)
    (s : HttpsSession P ω S) : Prop where
  reads : ∃ left, (HttpContext.httpParser hL).Reads s.context left
  keeps : J s.log s.world s.tls

theorem Rests.parse (hJ : E.Keeps J) {s : HttpsSession P ω S} (h : Rests hL J s) (payload : Bytes) :
    ∃ s' n, (∀ fuel ≥ n, E.parse fuel payload s = some s') ∧ Rests hL J s' := by
  obtain ⟨left, hreads⟩ := h.reads
  obtain ⟨s', n, left', hrun, hreads', hJ'⟩ :=
    @HttpSession.run_ends _ _ _ _ E.handler E.reply E.net hL J hJ.dispatch hJ.reject payload _ _ _ _ _
      s.issued hreads (hJ.parsed (s.tls.parsed ++ payload) h.keeps)
  exact ⟨s', n, hrun, ⟨left', hreads'⟩, hJ'⟩

theorem Rests.onPlaintext (hJ : E.Keeps J) {s : HttpsSession P ω S} (h : Rests hL J s)
    (hoff : s.tls.isKtlsOffloaded = false) (result : TlsReadResult) (plaintext : Bytes) :
    ∃ s' n, (∀ fuel ≥ n, E.onPlaintext fuel result plaintext s = some s') ∧ Rests hL J s' := by
  have hstep : ∀ fuel, E.onPlaintext fuel result plaintext s =
      if result = .ready then E.parse fuel plaintext s else some s := by
    intro fuel
    unfold HttpsServer.onPlaintext
    simp only [hJ.switched h.keeps hoff, hoff, and_true, ite_not]
  by_cases hready : result = .ready
  · obtain ⟨s', n, hparse, hrests⟩ := h.parse hJ plaintext
    exact ⟨s', n, fun fuel hfuel => (hstep fuel).trans ((if_pos hready).trans (hparse fuel hfuel)), hrests⟩
  · exact ⟨s, 0, fun fuel _ => (hstep fuel).trans (if_neg hready), h⟩

/-- **One chunk.** -/
theorem Rests.onMessage (hJ : E.Keeps J) {s : HttpsSession P ω S} (h : Rests hL J s) (data : Bytes) :
    ∃ s' n, (∀ fuel ≥ n, E.onMessage fuel data s = some s') ∧ Rests hL J s' := by
  by_cases hdata : data = []
  · subst hdata
    exact ⟨s, 0, fun fuel _ => onMessage_nil fuel s, h⟩
  cases hopen : E.isOpen s with
  | false => exact ⟨s, 0, fun fuel _ => onMessage_closed hopen fuel data, h⟩
  | true =>
    obtain ⟨tls, htls⟩ := Option.ne_none_iff_exists'.mp (hJ.connected h.keeps)
    cases hoff : s.tls.isKtlsOffloaded with
    | true =>
      have hstep : ∀ fuel, E.onMessage fuel data s = E.parse fuel data s := by
        intro fuel
        simp only [HttpsServer.onMessage, if_neg hdata, hopen, reduceCtorEq, if_false, htls, hoff]
      obtain ⟨s', n, hparse, hrests⟩ := h.parse hJ data
      exact ⟨s', n, fun fuel hfuel => (hstep fuel).trans (hparse fuel hfuel), hrests⟩
    | false =>
      obtain ⟨tls', result, plaintext, outbound, n, hread, hkeeps⟩ := hJ.read h.keeps htls hoff hdata
      have hstep := fun fuel hfuel => onMessage_read hdata hopen htls hoff (hread fuel hfuel)
      have hsent : Rests hL J (sendOutbound tls' outbound s) := ⟨h.reads, hkeeps⟩
      by_cases herror : result = .error
      · exact ⟨_, n, fun fuel hfuel => (hstep fuel hfuel).trans (if_pos herror), h.reads,
          hJ.readError hkeeps⟩
      · obtain ⟨s', n', hrun, hrests⟩ := hsent.onPlaintext hJ hoff result plaintext
        refine ⟨s', max n n', fun fuel hfuel => (hstep fuel (by omega)).trans ?_, hrests⟩
        rw [if_neg herror]
        exact hrun fuel (by omega)

/-- **A whole connection.** -/
theorem Rests.receiveAll (hJ : E.Keeps J) (chunks : List Bytes) :
    ∀ (received : Bytes) {s : HttpsSession P ω S}, Rests hL J s →
      ∃ s' n, (∀ fuel ≥ n, E.receiveAll fuel received s chunks = some s') ∧ Rests hL J s' := by
  induction chunks with
  | nil => exact fun received s h => ⟨s, 0, fun _ _ => rfl, h⟩
  | cons chunk chunks ih =>
    intro received s h
    obtain ⟨s₁, n₁, hrun, hrests⟩ := h.onMessage hJ
      (if s.tls.switched then E.kernelRead received chunk else chunk)
    obtain ⟨s', n, hmore, hrests'⟩ := ih (received ++ chunk) hrests
    refine ⟨s', max n₁ n, fun fuel hfuel => ?_, hrests'⟩
    simp only [HttpsServer.receiveAll, hrun fuel (by omega)]
    exact hmore fuel (by omega)

/-! ## The three kinds of connections -/

/-- A connection in `MemoryBio` mode: its `SSL` object has taken at most `bound` bytes, and none or
more than one. -/
structure Encrypting (T : TlsStream) (Sees : S → TlsView → Prop) (bound : Nat) (t : ConnectionTls S) :
    Prop where
  tlsMode : t.tlsMode = .memoryBio
  notOffloaded : t.isKtlsOffloaded = false
  kernelSent : t.kernelSent = []
  connection : ∃ tls, t.tlsConnection = some tls ∧
    (tls.state = .error ∨ ∃ received, tls.Agrees T Sees received) ∧
    tls.taken.length ≤ bound ∧ (tls.taken = [] ∨ 2 ≤ tls.taken.length)

theorem two_le_length_responseHead (r : HttpResponse) : 2 ≤ r.responseHead.length := by
  simp only [HttpResponse.responseHead, HttpResponse.packageToString, crlf, List.length_append,
    List.length_cons, List.length_nil]
  omega

/-- **A reply** adds at most its response. -/
theorem Encrypting.reply (hssl : E.ssl.Ideal T Sees) {bound : Nat} {t : ConnectionTls S}
    (h : Encrypting T Sees bound t) {r : HttpResponse} (hlen : r.responseHead.length < 2 ^ 31) :
    Encrypting T Sees (bound + r.serialised.length) (E.reply r t).2 := by
  obtain ⟨tls, htls, hstate, hle, htaken⟩ := h.connection
  have hsame : tls.ensureTlsSession = false ∨ tls.state ≠ .established →
      Encrypting T Sees (bound + r.serialised.length) (E.reply r t).2 := by
    intro hno
    rw [reply_unwritable h.tlsMode htls hno]
    exact ⟨h.tlsMode, h.notOffloaded, h.kernelSent, tls, htls, hstate, by omega, htaken⟩
  rcases hstate with herror | ⟨received, hagrees⟩
  · exact hsame (.inr (by rw [herror]; exact nofun))
  · by_cases hestablished : (T.view received).state = .established
    · obtain ⟨ciphertexts, tls', hreply, hagrees', htaken'⟩ :=
        reply_memoryBio hssl hestablished h.tlsMode htls hagrees r hlen
      rw [hreply]
      have hmost := @MemoryBioSend.length_plaintexts E.preads r t.preads
      have hleast := @MemoryBioSend.length_responseHead_le E.preads r t.preads
      have htwo := two_le_length_responseHead r
      have hlength : tls'.taken.length = tls.taken.length +
          (MemoryBioSend.plaintexts E.preads r r.responseHead t.preads).1.flatten.length := by
        rw [htaken', List.length_append]
      exact ⟨h.tlsMode, h.notOffloaded, h.kernelSent, tls', rfl, .inr ⟨received, hagrees'⟩, by omega,
        .inr (by omega)⟩
    · exact hsame (.inr (by rw [hagrees.state]; exact hestablished))

/-- What was dispatched in `MemoryBio` mode, and what was sent. -/
def InMemoryBio (E : HttpsServer P ω S) (T : TlsStream) (Sees : S → TlsView → Prop) (w₀ : ω)
    (log : List HttpOutcome) (w : ω) (t : ConnectionTls S) : Prop :=
  (answered E.handler w₀ log).2 = w ∧ Encrypting T Sees (answered E.handler w₀ log).1.length t

theorem keeps_inMemoryBio (hssl : E.ssl.Ideal T Sees)
    (hlen : ∀ request w, (E.handler request w).1.responseHead.length < 2 ^ 31) :
    E.Keeps (InMemoryBio E T Sees w₀) where
  dispatch := by
    rintro log _ t request ⟨rfl, h⟩
    rw [InMemoryBio, answered_dispatched]
    refine ⟨rfl, ?_⟩
    rw [List.length_append]
    exact h.reply hssl (hlen request _)
  reject := by
    rintro log w t ⟨hw, h⟩
    rw [InMemoryBio, answered_rejected]
    refine ⟨hw, ?_⟩
    rw [List.length_append]
    exact h.reply hssl length_badRequest
  read := by
    rintro log w t tls data ⟨hw, h⟩ htls hoff hdata
    obtain ⟨tls₁, htls₁, hstate, hle, htaken⟩ := h.connection
    obtain rfl : tls = tls₁ := Option.some.inj (htls.symm.trans htls₁)
    have hread : ∃ tls' result plaintext outbound n,
        (∀ fuel ≥ n, tls.readPlaintext E.ssl fuel data = some (tls', result, plaintext, outbound)) ∧
        (tls'.state = .error ∨ ∃ received, tls'.Agrees T Sees received) := by
      rcases hstate with herror | ⟨received, hagrees⟩
      · exact ⟨tls, .error, [], [], 0, fun fuel _ => TlsConnection.readPlaintext_error herror fuel data,
          .inl herror⟩
      · obtain ⟨tls', result, plaintext, outbound, n, hread, hcontinues⟩ :=
          hagrees.readPlaintext hssl hdata
        refine ⟨tls', result, plaintext, outbound, n, hread, ?_⟩
        by_cases hbroken : T.view (received ++ data) = .broken
        · exact .inl (hcontinues.broken hbroken).2
        · exact .inr ⟨_, hcontinues.agrees hbroken⟩
    obtain ⟨tls', result, plaintext, outbound, n, hread, hstate'⟩ := hread
    have hsame := TlsConnection.readPlaintext_taken (hread n (Nat.le_refl n))
    refine ⟨tls', result, plaintext, outbound, n, hread, hw, h.tlsMode, h.notOffloaded, h.kernelSent,
      tls', rfl, hstate', ?_, ?_⟩
    · rw [hsame]
      exact hle
    · rw [hsame]
      exact htaken
  parsed bytes h := ⟨h.1, h.2.tlsMode, h.2.notOffloaded, h.2.kernelSent, h.2.connection⟩
  readError h := ⟨h.1, h.2.tlsMode, h.2.notOffloaded, h.2.kernelSent, h.2.connection⟩
  switched h _ := switch_memoryBio h.2.tlsMode
  connected h := by
    obtain ⟨tls, htls, -⟩ := h.2.connection
    rw [htls]
    exact nofun

/-- **An offloaded connection**: one byte went ahead of the responses, which the kernel encrypts. -/
structure Offloaded (E : HttpsServer P ω S) (w₀ : ω) (log : List HttpOutcome) (w : ω)
    (t : ConnectionTls S) : Prop where
  world : (answered E.handler w₀ log).2 = w
  tlsMode : t.tlsMode = .kernelTls
  offloaded : t.isKtlsOffloaded = true
  kernelSent : t.kernelSent = (answered E.handler w₀ log).1
  connection : ∃ tls, t.tlsConnection = some tls ∧ tls.taken = [32]

theorem reply_offloaded {t : ConnectionTls S} (hmode : t.tlsMode = .kernelTls)
    (hoff : t.isKtlsOffloaded = true) (r : HttpResponse) :
    (E.reply r t).2 = { t with kernelSent := t.kernelSent ++ r.serialised } := by
  obtain ⟨conn, mode, offloaded, preads, parsed, readError, kernelSent⟩ := t
  obtain rfl : mode = .kernelTls := hmode
  obtain rfl : offloaded = true := hoff
  simp only [reply, httpsReply, if_true]
  rw [← HttpResponse.payload_sendPlainResponse]
  rfl

theorem keeps_offloaded : E.Keeps (Offloaded E w₀) where
  dispatch := by
    intro log w t request h
    rw [reply_offloaded h.tlsMode h.offloaded]
    refine ⟨?_, h.tlsMode, h.offloaded, ?_, h.connection⟩
    · rw [answered_dispatched, h.world]
    · rw [answered_dispatched, h.world, h.kernelSent]
  reject := by
    intro log w t h
    rw [reply_offloaded h.tlsMode h.offloaded]
    refine ⟨?_, h.tlsMode, h.offloaded, ?_, h.connection⟩
    · rw [answered_rejected, h.world]
    · rw [answered_rejected, h.kernelSent]
  read := by
    intro log w t tls data h _ hoff _
    exact absurd (h.offloaded.symm.trans hoff) nofun
  parsed bytes h := ⟨h.world, h.tlsMode, h.offloaded, h.kernelSent, h.connection⟩
  readError h := ⟨h.world, h.tlsMode, h.offloaded, h.kernelSent, h.connection⟩
  switched h hoff := absurd (h.offloaded.symm.trans hoff) nofun
  connected h := by
    obtain ⟨tls, htls, -⟩ := h.connection
    rw [htls]
    exact nofun

/-- **A stranded connection**: back in `MemoryBio` mode after its memory BIOs are gone. -/
structure Stranded (t : ConnectionTls S) : Prop where
  tlsMode : t.tlsMode = .memoryBio
  notOffloaded : t.isKtlsOffloaded = false
  kernelSent : t.kernelSent = []
  connection : ∃ tls, t.tlsConnection = some tls ∧ tls.hasBios = false ∧ tls.taken = [32]

theorem Stranded.reply {t : ConnectionTls S} (h : Stranded t) (r : HttpResponse) :
    E.reply r t = ([], t) := by
  obtain ⟨tls, htls, hbios, -⟩ := h.connection
  refine reply_unwritable h.tlsMode htls (.inl ?_) r
  simp only [TlsConnection.ensureTlsSession, hbios, Bool.false_and]

theorem keeps_stranded : E.Keeps fun _ _ t => Stranded t where
  dispatch := by
    intro log w t request h
    rw [h.reply]
    exact h
  reject := by
    intro log w t h
    rw [h.reply]
    exact h
  read := by
    intro log w t tls data h htls hoff _
    obtain ⟨tls₁, htls₁, hbios, htaken⟩ := h.connection
    obtain rfl : tls = tls₁ := Option.some.inj (htls.symm.trans htls₁)
    exact ⟨tls, .error, [], [], 0, fun fuel _ => TlsConnection.readPlaintext_noBios hbios fuel data,
      h.tlsMode, h.notOffloaded, h.kernelSent, tls, rfl, hbios, htaken⟩
  parsed bytes h := ⟨h.tlsMode, h.notOffloaded, h.kernelSent, h.connection⟩
  readError h := ⟨h.tlsMode, h.notOffloaded, h.kernelSent, h.connection⟩
  switched h _ := switch_memoryBio h.tlsMode
  connected h := by
    obtain ⟨tls, htls, -⟩ := h.connection
    rw [htls]
    exact nofun

/-- **An offloaded connection is not transparent**: its stream is a byte longer than its responses. -/
theorem Offloaded.not_transparent {s s' : HttpsSession P ω S}
    (h : InMemoryBio E T Sees w₀ s.log s.world s.tls) (h' : Offloaded E w₀ s'.log s'.world s'.tls) :
    ¬ Transparent s s' := by
  rintro ⟨hlog, hsame⟩
  obtain ⟨tls, htls, -, hle, -⟩ := h.2.connection
  obtain ⟨tls', htls', htaken'⟩ := h'.connection
  have hlength := congrArg List.length hsame
  simp only [ConnectionTls.peerPlaintext, htls, htls', htaken', h.2.kernelSent, h'.kernelSent, hlog,
    List.length_append, List.length_cons, List.length_nil] at hlength
  omega

/-- **Neither is a stranded one**: its stream is one byte. -/
theorem Stranded.not_transparent {s s' : HttpsSession P ω S}
    (h : InMemoryBio E T Sees w₀ s.log s.world s.tls) (h' : Stranded s'.tls) : ¬ Transparent s s' := by
  rintro ⟨-, hsame⟩
  obtain ⟨tls, htls, -, -, htaken⟩ := h.2.connection
  obtain ⟨tls', htls', -, htaken'⟩ := h'.connection
  have hlength := congrArg List.length hsame
  simp only [ConnectionTls.peerPlaintext, htls, htls', htaken', h.2.kernelSent, h'.kernelSent,
    List.append_nil, List.length_cons, List.length_nil] at hlength
  rcases htaken with hnil | htwo
  · rw [hnil, List.length_nil] at hlength
    omega
  · omega

/-! ## The handshake -/

/-- The same connection in `KernelTls` mode. -/
def inKernelMode (s : HttpsSession P ω S) : HttpsSession P ω S :=
  { s with tls := { s.tls with tlsMode := .kernelTls } }

/-- A connection in `MemoryBio` mode on which nothing was dispatched yet. -/
structure Silent (hL : E.llhttp.Incremental) (T : TlsStream) (Sees : S → TlsView → Prop) (w₀ : ω)
    (received : Bytes) (s : HttpsSession P ω S) : Prop where
  reads : (HttpContext.httpParser hL).Reads s.context []
  log : s.log = []
  world : s.world = w₀
  sends : HttpSession.OnlySends s.issued
  tlsMode : s.tls.tlsMode = .memoryBio
  notOffloaded : s.tls.isKtlsOffloaded = false
  kernelSent : s.tls.kernelSent = []
  connection : ∃ tls, s.tls.tlsConnection = some tls ∧ tls.Agrees T Sees received ∧ tls.taken = []

theorem Silent.rests {received : Bytes} {s : HttpsSession P ω S} (h : Silent hL T Sees w₀ received s) :
    Rests hL (InMemoryBio E T Sees w₀) s := by
  obtain ⟨tls, htls, hagrees, htaken⟩ := h.connection
  refine ⟨⟨[], h.reads⟩, ?_, h.tlsMode, h.notOffloaded, h.kernelSent, tls, htls, .inr ⟨received, hagrees⟩,
    ?_, .inl htaken⟩
  · rw [h.log, h.world]
    rfl
  · rw [htaken]
    exact Nat.zero_le _

/-- **One chunk in both modes**: the same data is read, and either both fail or both go on with the same
plaintext. -/
theorem Silent.onMessage (hssl : E.ssl.Ideal T Sees)
    (hnet : ∀ issued, HttpSession.OnlySends issued → E.net issued = true) {received : Bytes}
    {s : HttpsSession P ω S} (h : Silent hL T Sees w₀ received s) {chunk : Bytes} (hchunk : chunk ≠ []) :
    ∃ tls' result plaintext s₁ n,
      TlsConnection.Continues T Sees received chunk tls' result plaintext ∧
      tls'.taken = [] ∧ s₁.tls = { s.tls with tlsConnection := some tls' } ∧
      (tls'.Agrees T Sees (received ++ chunk) → Silent hL T Sees w₀ (received ++ chunk) s₁) ∧
      s₁.log = [] ∧ HttpSession.OnlySends s₁.issued ∧
      (∀ fuel ≥ n, E.onMessage fuel chunk s =
        if result = .error then some { s₁ with tls := { s₁.tls with readError := true } }
        else E.onPlaintext fuel result plaintext s₁) ∧
      (∀ fuel ≥ n, E.onMessage fuel chunk (inKernelMode s) =
        if result = .error then
          some (inKernelMode { s₁ with tls := { s₁.tls with readError := true } })
        else E.onPlaintext fuel result plaintext (inKernelMode s₁)) := by
  obtain ⟨tls, htls, hagrees, htaken⟩ := h.connection
  obtain ⟨tls', result, plaintext, outbound, n, hread, hcontinues⟩ := hagrees.readPlaintext hssl hchunk
  have htaken' := (TlsConnection.readPlaintext_taken (hread n (Nat.le_refl n))).trans htaken
  have hopen : E.isOpen s = true := h.sends.isOpen hnet
  have hsends := onlySends_outbound h.sends outbound
  refine ⟨tls', result, plaintext, sendOutbound tls' outbound s, n, hcontinues, htaken', rfl, ?_, h.log,
    hsends, ?_, ?_⟩
  · exact fun hagrees' => ⟨h.reads, h.log, h.world, hsends, h.tlsMode, h.notOffloaded, h.kernelSent, tls',
      rfl, hagrees', htaken'⟩
  · exact fun fuel hfuel => onMessage_read hchunk hopen htls h.notOffloaded (hread fuel hfuel)
  · intro fuel hfuel
    have hopen' : E.isOpen (inKernelMode s) = true := hopen
    have htls' : (inKernelMode s).tls.tlsConnection = some tls := htls
    exact onMessage_read hchunk hopen' htls' h.notOffloaded (hread fuel hfuel)

/-- During the handshake nothing is switched. -/
theorem onPlaintext_handshaking {received : Bytes} {s : HttpsSession P ω S}
    (h : Silent hL T Sees w₀ received s) (hshaking : (T.view received).state = .handshaking) (fuel : Nat)
    (plaintext : Bytes) :
    E.onPlaintext fuel .needMoreData plaintext (inKernelMode s) = some (inKernelMode s) := by
  obtain ⟨tls, htls, hagrees, -⟩ := h.connection
  have hstate : tls.state ≠ .established := by
    rw [hagrees.state, hshaking]
    exact nofun
  have hkernel : (inKernelMode s).tls.tlsConnection = some tls := htls
  have hoff : (inKernelMode s).tls.isKtlsOffloaded = false := h.notOffloaded
  have hswitch : (inKernelMode s).tls.switch E.ssl E.offload = (inKernelMode s).tls := by
    simp only [ConnectionTls.switch, hkernel, hstate, and_false, if_false]
  unfold onPlaintext
  simp only [hswitch, hoff, and_true, ite_not, reduceCtorEq, if_false]

/-- **A refused offload** leads back to `MemoryBio` mode. -/
theorem onPlaintext_refused (hrefused : E.offload = .refused) {s : HttpsSession P ω S}
    (hmode : s.tls.tlsMode = .memoryBio) {tls : TlsConnection S} (htls : s.tls.tlsConnection = some tls)
    (hstate : tls.state = .established) (fuel : Nat) (result : TlsReadResult) (plaintext : Bytes) :
    E.onPlaintext fuel result plaintext (inKernelMode s) = E.onPlaintext fuel result plaintext s := by
  have hswitch : (inKernelMode s).tls.switch E.ssl E.offload = s.tls := by
    obtain ⟨context, world, ⟨conn, mode, offloaded, preads, parsed, readError, kernelSent⟩, log, issued⟩ := s
    obtain rfl : mode = .memoryBio := hmode
    obtain rfl : conn = some tls := htls
    simp only [inKernelMode, ConnectionTls.switch, hstate, and_self, if_true, hrefused,
      TlsConnection.enableKtlsOffload, Bool.false_eq_true, if_false]
  unfold onPlaintext
  rw [hswitch, switch_memoryBio hmode]
  rfl

/-- **A switched connection** is offloaded or stranded. -/
theorem onPlaintext_switched (hsocket : ∀ s, (E.ssl.write (E.ssl.setSocketBio s) [32]).2 = .written 1)
    {sends : Bool} (hoffload : E.offload = .switched sends) {received : Bytes} {s : HttpsSession P ω S}
    (h : Silent hL T Sees w₀ received s) (hestablished : (T.view received).state = .established)
    (result : TlsReadResult) (plaintext : Bytes) :
    ∃ s' n, (∀ fuel ≥ n, E.onPlaintext fuel result plaintext (inKernelMode s) = some s') ∧
      (Rests hL (Offloaded E w₀) s' ∨ Rests hL (fun _ _ t => Stranded t) s') := by
  obtain ⟨tls, htls, hagrees, htaken⟩ := h.connection
  have hstate : tls.state = .established := hagrees.state.trans hestablished
  have henable : ∃ tls', tls.enableKtlsOffload E.ssl E.offload = (tls', sends) ∧ tls'.hasBios = false ∧
      tls'.taken = [32] := by
    refine ⟨_, by rw [hoffload, TlsConnection.enableKtlsOffload], rfl, ?_⟩
    rw [hsocket tls.ssl, htaken]
    rfl
  obtain ⟨tls', henable, hbios, htaken'⟩ := henable
  have hkernel : (inKernelMode s).tls.tlsConnection = some tls := htls
  have hmode : (inKernelMode s).tls.tlsMode = .kernelTls := rfl
  cases sends with
  | true =>
    have hswitch : (inKernelMode s).tls.switch E.ssl E.offload =
        { (inKernelMode s).tls with tlsConnection := some tls', isKtlsOffloaded := true } := by
      simp only [ConnectionTls.switch, hkernel, hmode, hstate, and_self, if_true, henable]
    have hrests : Rests hL (Offloaded E w₀) { inKernelMode s with
        tls := { (inKernelMode s).tls with tlsConnection := some tls', isKtlsOffloaded := true } } := by
      refine ⟨⟨[], h.reads⟩, ?_, rfl, rfl, ?_, tls', rfl, htaken'⟩
      · show (answered E.handler w₀ s.log).2 = s.world
        rw [h.log, h.world]
        rfl
      · show s.tls.kernelSent = (answered E.handler w₀ s.log).1
        rw [h.log, h.kernelSent]
        rfl
    obtain ⟨s', n, hparse, hrests'⟩ := hrests.parse keeps_offloaded plaintext
    refine ⟨s', n, fun fuel hfuel => ?_, .inl hrests'⟩
    unfold onPlaintext
    simp only [hswitch, reduceCtorEq, and_false, if_false]
    exact hparse fuel hfuel
  | false =>
    have hswitch : (inKernelMode s).tls.switch E.ssl E.offload =
        { (inKernelMode s).tls with tlsConnection := some tls', tlsMode := .memoryBio } := by
      simp only [ConnectionTls.switch, hkernel, hmode, hstate, and_self, if_true, henable,
        Bool.false_eq_true, if_false]
    have hrests : Rests hL (fun _ _ t => Stranded t) { inKernelMode s with
        tls := { (inKernelMode s).tls with tlsConnection := some tls', tlsMode := .memoryBio } } :=
      ⟨⟨[], h.reads⟩, rfl, h.notOffloaded, h.kernelSent, tls', rfl, hbios, htaken'⟩
    have hstep : ∀ fuel, E.onPlaintext fuel result plaintext (inKernelMode s) =
        if result = .ready then E.parse fuel plaintext { inKernelMode s with
          tls := { (inKernelMode s).tls with tlsConnection := some tls', tlsMode := .memoryBio } }
        else some { inKernelMode s with
          tls := { (inKernelMode s).tls with tlsConnection := some tls', tlsMode := .memoryBio } } := by
      intro fuel
      have hoff : (inKernelMode s).tls.isKtlsOffloaded = false := h.notOffloaded
      unfold onPlaintext
      simp only [hswitch, hoff, and_true, ite_not]
    by_cases hready : result = .ready
    · obtain ⟨s', n, hparse, hrests'⟩ := hrests.parse keeps_stranded plaintext
      exact ⟨s', n, fun fuel hfuel => (hstep fuel).trans ((if_pos hready).trans (hparse fuel hfuel)),
        .inr hrests'⟩
    · exact ⟨_, 0, fun fuel _ => (hstep fuel).trans (if_neg hready), .inr hrests⟩

/-! ## Both modes over a whole connection -/

theorem receiveAll_failed {s : HttpsSession P ω S} (h : Failed E s) (chunks : List Bytes) :
    ∀ (fuel : Nat) (received : Bytes), E.receiveAll fuel received s chunks = some s := by
  induction chunks with
  | nil => exact fun _ _ => rfl
  | cons chunk chunks ih =>
    intro fuel received
    simp only [receiveAll, h.onMessage]
    exact ih fuel (received ++ chunk)

/-- The chunk in front. -/
theorem receiveAll_cons {s s' : HttpsSession P ω S} {fuel : Nat} {received chunk : Bytes}
    (hswitched : s.tls.switched = false) (h : E.onMessage fuel chunk s = some s') (chunks : List Bytes) :
    E.receiveAll fuel received s (chunk :: chunks) =
      E.receiveAll fuel (received ++ chunk) s' chunks := by
  simp only [receiveAll, hswitched, Bool.false_eq_true, if_false, h]

theorem Silent.not_switched {received : Bytes} {s : HttpsSession P ω S}
    (h : Silent hL T Sees w₀ received s) : s.tls.switched = false := by
  obtain ⟨tls, htls, hagrees, -⟩ := h.connection
  simp only [ConnectionTls.switched, htls, hagrees.hasBios, Bool.not_true]

/-- The outcome of the two runs from a state. -/
def RunsTransparently (E : HttpsServer P ω S) (received : Bytes) (s s' : HttpsSession P ω S)
    (chunks : List Bytes) (condition : Prop) : Prop :=
  ∃ t t' n, (∀ fuel ≥ n, E.receiveAll fuel received s chunks = some t) ∧
    (∀ fuel ≥ n, E.receiveAll fuel received s' chunks = some t') ∧ (Transparent t t' ↔ condition)

section Run

variable (hssl : E.ssl.Ideal T Sees)
  (hlen : ∀ request w, (E.handler request w).1.responseHead.length < 2 ^ 31)
include hssl hlen

/-- **Behind the end of the handshake** both connections are the same, or not transparent. -/
theorem Silent.runs_established
    (hsocket : ∀ s, (E.ssl.write (E.ssl.setSocketBio s) [32]).2 = .written 1) {received : Bytes}
    {s : HttpsSession P ω S} (h : Silent hL T Sees w₀ received s)
    (hestablished : (T.view received).state = .established) (result : TlsReadResult) (plaintext : Bytes)
    (chunks : List Bytes) :
    ∃ t t' n, (∀ fuel ≥ n, ∃ s₁, E.onPlaintext fuel result plaintext s = some s₁ ∧
        E.receiveAll fuel received s₁ chunks = some t) ∧
      (∀ fuel ≥ n, ∃ s₁, E.onPlaintext fuel result plaintext (inKernelMode s) = some s₁ ∧
        E.receiveAll fuel received s₁ chunks = some t') ∧
      (Transparent t t' ↔ E.offload = .refused) := by
  have hkeeps : E.Keeps (InMemoryBio E T Sees w₀) := keeps_inMemoryBio hssl hlen
  obtain ⟨s₁, n₁, hfirst, hrests₁⟩ := (h.rests (E := E)).onPlaintext hkeeps h.notOffloaded result plaintext
  obtain ⟨t, n₂, hall, hrests⟩ := hrests₁.receiveAll hkeeps chunks received
  cases hoffload : E.offload with
  | refused =>
    obtain ⟨tls, htls, hagrees, -⟩ := h.connection
    have hsame := fun fuel => onPlaintext_refused hoffload h.tlsMode htls
      (hagrees.state.trans hestablished) fuel result plaintext
    refine ⟨t, t, max n₁ n₂, fun fuel hfuel => ⟨s₁, hfirst fuel (by omega), hall fuel (by omega)⟩,
      fun fuel hfuel => ⟨s₁, ?_, hall fuel (by omega)⟩, fun _ => rfl, fun _ => ⟨rfl, rfl⟩⟩
    rw [hsame]
    exact hfirst fuel (by omega)
  | switched sends =>
    obtain ⟨s₁', n₁', hfirst', hkind⟩ := onPlaintext_switched hsocket hoffload h hestablished result plaintext
    have hrest : ∃ t' n, (∀ fuel ≥ n, E.receiveAll fuel received s₁' chunks = some t') ∧
        ¬ Transparent t t' := by
      rcases hkind with hoffloaded | hstranded
      · obtain ⟨t', n, hall', hrests'⟩ := hoffloaded.receiveAll keeps_offloaded chunks received
        exact ⟨t', n, hall', Offloaded.not_transparent hrests.keeps hrests'.keeps⟩
      · obtain ⟨t', n, hall', hrests'⟩ := hstranded.receiveAll keeps_stranded chunks received
        exact ⟨t', n, hall', Stranded.not_transparent hrests.keeps hrests'.keeps⟩
    obtain ⟨t', n₂', hall', hno⟩ := hrest
    refine ⟨t, t', max (max n₁ n₂) (max n₁' n₂'),
      fun fuel hfuel => ⟨s₁, hfirst fuel (by omega), hall fuel (by omega)⟩,
      fun fuel hfuel => ⟨s₁', hfirst' fuel (by omega), hall' fuel (by omega)⟩,
      fun htransparent => absurd htransparent hno, nofun⟩

/-- **During the handshake** both connections move in step. -/
theorem Silent.runs (hnet : ∀ issued, HttpSession.OnlySends issued → E.net issued = true)
    (hsocket : ∀ s, (E.ssl.write (E.ssl.setSocketBio s) [32]).2 = .written 1) (chunks : List Bytes) :
    ∀ {received : Bytes} {s : HttpsSession P ω S}, Silent hL T Sees w₀ received s →
      (T.view received).state = .handshaking →
      RunsTransparently E received s (inKernelMode s) chunks
        (¬ (E.offload ≠ .refused ∧ T.Establishes received chunks)) := by
  induction chunks with
  | nil =>
    intro received s h _
    refine ⟨s, inKernelMode s, 0, fun _ _ => rfl, fun _ _ => rfl, ?_, fun _ => ⟨rfl, rfl⟩⟩
    exact fun _ hno => hno.2.elim
  | cons chunk chunks ih =>
    intro received s h hshaking
    have hswitched := h.not_switched
    have hswitched' : (inKernelMode s).tls.switched = false := hswitched
    by_cases hchunk : chunk = []
    · subst hchunk
      obtain ⟨t, t', n, hrun, hrun', hiff⟩ := ih h hshaking
      refine ⟨t, t', n, fun fuel hfuel => ?_, fun fuel hfuel => ?_, ?_⟩
      · rw [receiveAll_cons hswitched (onMessage_nil fuel s), List.append_nil]
        exact hrun fuel hfuel
      · rw [receiveAll_cons hswitched' (onMessage_nil fuel _), List.append_nil]
        exact hrun' fuel hfuel
      · rw [hiff, TlsStream.Establishes, List.append_nil, hshaking]
        simp only [reduceCtorEq, true_and, false_or]
    · obtain ⟨tls', result, plaintext, s₁, n, hcontinues, htaken, htls, hsilent, hlog, hsends, hstep,
        hstep'⟩ := h.onMessage hssl hnet hchunk
      by_cases hbroken : T.view (received ++ chunk) = .broken
      · -- the handshake fails, or ends in front of an invalid record
        obtain ⟨rfl, herror⟩ := hcontinues.broken hbroken
        have hfailed : Failed E { s₁ with tls := { s₁.tls with readError := true } } := by
          refine ⟨hsends.isOpen hnet, rfl, ?_, tls', ?_, herror⟩
          · rw [htls]
            exact h.notOffloaded
          · rw [htls]
        have hfailed' : Failed E (inKernelMode { s₁ with tls := { s₁.tls with readError := true } }) :=
          ⟨hfailed.isOpen, rfl, hfailed.notOffloaded, hfailed.error⟩
        refine ⟨{ s₁ with tls := { s₁.tls with readError := true } },
          inKernelMode { s₁ with tls := { s₁.tls with readError := true } }, n, fun fuel hfuel => ?_,
          fun fuel hfuel => ?_, fun _ hno => ?_, fun _ => ⟨rfl, rfl⟩⟩
        · rw [receiveAll_cons hswitched ((hstep fuel hfuel).trans (if_pos rfl))]
          exact receiveAll_failed hfailed chunks fuel _
        · rw [receiveAll_cons hswitched' ((hstep' fuel hfuel).trans (if_pos rfl))]
          exact receiveAll_failed hfailed' chunks fuel _
        · have hestablishes := hno.2
          rw [TlsStream.Establishes, hbroken] at hestablishes
          rcases hestablishes with hstate | ⟨hstate, -⟩ <;> cases hstate
      · have hagrees := hcontinues.agrees hbroken
        have hs₁ := hsilent hagrees
        have hresult : result ≠ .error := by
          rw [hcontinues.outcome hbroken]
          split <;> exact nofun
        cases hview : (T.view (received ++ chunk)).state with
        | error =>
          cases hv : T.view (received ++ chunk) with
          | broken => exact absurd hv hbroken
          | handshaking input => rw [hv] at hview; cases hview
          | reading input pending => rw [hv] at hview; cases hview
          | shut => rw [hv] at hview; cases hview
        | established =>
          obtain ⟨t, t', m, hrun, hrun', hiff⟩ :=
            hs₁.runs_established hssl hlen hsocket hview result plaintext chunks
          refine ⟨t, t', max n m, fun fuel hfuel => ?_, fun fuel hfuel => ?_, ?_⟩
          · obtain ⟨s₂, hfirst, hall⟩ := hrun fuel (by omega)
            have hone := (hstep fuel (by omega)).trans ((if_neg hresult).trans hfirst)
            rw [receiveAll_cons hswitched hone]
            exact hall
          · obtain ⟨s₂, hfirst, hall⟩ := hrun' fuel (by omega)
            have hone := (hstep' fuel (by omega)).trans ((if_neg hresult).trans hfirst)
            rw [receiveAll_cons hswitched' hone]
            exact hall
          · rw [hiff, TlsStream.Establishes, hview]
            simp only [true_or, and_true, not_not]
        | handshaking =>
          -- there is no plaintext yet, and nothing to switch
          have hplain : plaintext = [] := by
            have hdelivers := hcontinues.delivers hbroken
            rw [TlsStream.plaintext_of_handshaking hview] at hdelivers
            exact (List.append_eq_nil_iff.mp hdelivers.symm).2
          have hmore : result = .needMoreData := (hcontinues.outcome hbroken).trans (if_pos hplain)
          obtain ⟨t, t', m, hrun, hrun', hiff⟩ := ih hs₁ hview
          refine ⟨t, t', max n m, fun fuel hfuel => ?_, fun fuel hfuel => ?_, ?_⟩
          · have hfirst := onPlaintext_memoryBio (E := E) hs₁.tlsMode hs₁.notOffloaded fuel result plaintext
            rw [hmore, if_neg (by exact nofun), ← hmore] at hfirst
            have hone := (hstep fuel (by omega)).trans ((if_neg hresult).trans hfirst)
            rw [receiveAll_cons hswitched hone]
            exact hrun fuel (by omega)
          · have hfirst := onPlaintext_handshaking hs₁ hview fuel plaintext
            rw [← hmore] at hfirst
            have hone := (hstep' fuel (by omega)).trans ((if_neg hresult).trans hfirst)
            rw [receiveAll_cons hswitched' hone]
            exact hrun' fuel (by omega)
          · rw [hiff, TlsStream.Establishes, hview]
            simp only [reduceCtorEq, true_and, false_or]

/-- **`KernelTls` mode is transparent exactly when no established connection is switched**: on every
ciphertext, cut into chunks in any way, and for every outcome of `enable_ktls_offload`. -/
theorem kernel_tls_transparent_iff (hL : E.llhttp.Incremental)
    (hnet : ∀ issued, HttpSession.OnlySends issued → E.net issued = true)
    (hsocket : ∀ s, (E.ssl.write (E.ssl.setSocketBio s) [32]).2 = .written 1) (w₀ : ω)
    (chunks : List Bytes) :
    RunsTransparently E [] (E.create w₀ .memoryBio) (E.create w₀ .kernelTls) chunks
      (¬ (E.offload ≠ .refused ∧ T.Establishes [] chunks)) := by
  have hview : T.view [] = .handshaking [] := TlsStream.view_of_more T.starts
  have hsilent : Silent hL T Sees w₀ [] (E.create w₀ .memoryBio) :=
    ⟨.init, rfl, rfl, nofun, rfl, rfl, rfl, _, rfl, .create hssl, rfl⟩
  exact hsilent.runs hssl hlen hnet hsocket chunks (by rw [hview]; rfl)

end Run

/-- An offload that succeeds, with a request behind the handshake. -/
theorem kernel_tls_transparent_iff_offloaded :
    let request := HttpSession.getRequest.map Prod.fst
    let E := answeringGet (.switched true)
    E.RunsTransparently [] (E.create () .memoryBio) (E.create () .kernelTls) [[22], request]
      (¬ (E.offload ≠ .refused ∧ TlsStream.ofBytes.Establishes [] [[22], request])) := by
  intro request E
  exact kernel_tls_transparent_iff (OpenSsl.ofStream_ideal .ofBytes) (length_answeringGet (.switched true))
    HttpSession.complete_getRequest.incremental (fun _ _ => rfl) (fun _ => rfl) () _

/-- **A switched connection is not transparent.**  When the kernel takes over, the peer decrypts a
space in front of the response; when it does not, the request that follows is not even read. -/
theorem kernel_tls_not_transparent :
    let request := HttpSession.getRequest.map Prod.fst
    let seen := fun offload tlsMode chunks => ((answeringGet offload).receiveAll 100 []
      ((answeringGet offload).create () tlsMode) chunks).map fun s => (s.log, s.tls.peerPlaintext)
    let response := (HttpSession.sayOk HttpSession.getRoot ()).1.serialised
    seen (.switched true) .memoryBio [22 :: request] = some ([.dispatched HttpSession.getRoot], response) ∧
      seen (.switched true) .kernelTls [22 :: request] =
        some ([.dispatched HttpSession.getRoot], 32 :: response) ∧
      seen (.switched false) .memoryBio [[22], request] =
        some ([.dispatched HttpSession.getRoot], response) ∧
      seen (.switched false) .kernelTls [[22], request] = some ([], [32]) := by
  decide +kernel

end HttpsServer

end Tudou
