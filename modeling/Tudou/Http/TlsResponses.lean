import Tudou.Http.RequestLoop
import Tudou.Http.TlsConnection

/-!
# Responses through TLS

Model of `send_memory_bio_response` and what it calls in `src/tudou/http/HttpServer.cpp`, and of
`send_http_response` on a connection with TLS.  How many bytes a `pread` returns is up to the kernel.

* `sendMemoryBioPlaintext`, `sendFileLoop`, `sendMemoryBioResponse` — encrypt and send.
* `readFile` — what the file loop reads.
* `memory_bio_sends_serialised` — **the plaintexts handed to `write_plaintext` are the bytes the plain
  path passes to the connection**, however short the reads are.
* `httpsReply` — `send_http_response`, for each `TlsMode`.
-/

namespace Tudou

def kTlsFileChunkSize : Nat := 16 * 1024

/-- `pread(fd, buf, len, offset)`: the kernel returns at most `answer` bytes, `none` for an error. -/
def ScopedFd.pread (file : ScopedFd) (answer : Option Nat) (len offset : Nat) : Bytes :=
  match answer with
  | none => []
  | some n => (file.segment len offset).take n

/-- An encrypting `TlsConnection` and what became of the response so far. -/
structure MemoryBioSend (S : Type*) where
  tls : TlsConnection S
  /-- How often `pread` was called on this connection. -/
  preads : Nat
  /-- The plaintexts handed to `write_plaintext`. -/
  handed : List Bytes
  /-- What was asked of the connection. -/
  sends : List Request

namespace MemoryBioSend

variable {S : Type*} (ssl : OpenSsl S) (preads : Nat → Option Nat)

/-- `send_memory_bio_plaintext(conn, tlsConnection, plaintext)`. -/
def sendMemoryBioPlaintext (plaintext : Bytes) (m : MemoryBioSend S) : MemoryBioSend S × Bool :=
  let (tls, ok, encrypted) := m.tls.writePlaintext ssl plaintext
  let sends := if ok && encrypted != [] then [Request.send encrypted] else []
  ({ m with tls := tls, handed := m.handed ++ [plaintext], sends := m.sends ++ sends }, ok)

/-- The `while` loop of `send_memory_bio_file_response`. -/
def sendFileLoop (file : ScopedFd) (remaining offset : Nat) (m : MemoryBioSend S) :
    MemoryBioSend S × Bool :=
  if remaining = 0 then (m, true)
  else
    let chunk := file.pread (preads m.preads) (min kTlsFileChunkSize remaining) offset
    if chunk = [] then ({ m with preads := m.preads + 1 }, false)
    else
      let (m, ok) := { m with preads := m.preads + 1 }.sendMemoryBioPlaintext ssl chunk
      if ok then sendFileLoop file (remaining - chunk.length) (offset + chunk.length) m
      else (m, false)
termination_by remaining
decreasing_by exact Nat.sub_lt (Nat.pos_of_ne_zero ‹_›) (List.length_pos_iff.mpr ‹_›)

/-- `send_memory_bio_response(conn, tlsConnection, resp, responseHead)`. -/
def sendMemoryBioResponse (resp : HttpResponse) (responseHead : Bytes) (m : MemoryBioSend S) :
    MemoryBioSend S × Bool :=
  match resp.validFile with
  | none => m.sendMemoryBioPlaintext ssl responseHead
  | some file =>
    -- `send_memory_bio_file_response`
    let (m, ok) := m.sendMemoryBioPlaintext ssl responseHead
    if ok then m.sendFileLoop ssl preads file resp.fileBody.size resp.fileBody.offset else (m, false)

end MemoryBioSend

/-- What the file loop reads: the chunks, the number of calls made, and whether it got to the end. -/
def ScopedFd.readFile (preads : Nat → Option Nat) (file : ScopedFd) (remaining offset i : Nat) :
    List Bytes × Nat × Bool :=
  if remaining = 0 then ([], i, true)
  else
    let chunk := file.pread (preads i) (min kTlsFileChunkSize remaining) offset
    if chunk = [] then ([], i + 1, false)
    else
      let (chunks, i, ok) :=
        ScopedFd.readFile preads file (remaining - chunk.length) (offset + chunk.length) (i + 1)
      (chunk :: chunks, i, ok)
termination_by remaining
decreasing_by exact Nat.sub_lt (Nat.pos_of_ne_zero ‹_›) (List.length_pos_iff.mpr ‹_›)

/-! ## `send_http_response` -/

/-- `TlsMode`. -/
inductive TlsMode where
  | none
  | memoryBio
  | kernelTls
  deriving DecidableEq, Repr

/-- The TLS part of a `ConnectionState`, and what happened on it. -/
structure ConnectionTls (S : Type*) where
  tlsConnection : Option (TlsConnection S)
  tlsMode : TlsMode
  isKtlsOffloaded : Bool
  /-- How often `pread` was called. -/
  preads : Nat
  /-- The payloads handed to the HTTP parser. -/
  parsed : Bytes
  /-- `read_plaintext` has reported `Error`. -/
  readError : Bool
  /-- What was passed to the connection for the kernel to encrypt. -/
  kernelSent : Bytes

/-- `send_http_response` of a server with TLS enabled. -/
def httpsReply {S : Type*} (ssl : OpenSsl S) (preads : Nat → Option Nat) : HttpReply (ConnectionTls S) :=
  fun response t =>
    let resp := response.withContentLength
    let head := resp.packageToString
    let close := if resp.closeConnection then [Request.forceClose] else []
    match t.tlsMode, t.tlsConnection with
    | .memoryBio, some tls =>
      let (m, ok) := MemoryBioSend.sendMemoryBioResponse ssl preads resp head ⟨tls, t.preads, [], []⟩
      (m.sends ++ if ok then close else [],
        { t with tlsConnection := some m.tls, preads := m.preads })
    | .kernelTls, _ =>
      -- `send_kernel_tls_response` sends nothing
      if t.isKtlsOffloaded then
        (resp.sendPlainResponse head :: close,
          { t with kernelSent := t.kernelSent ++ (resp.sendPlainResponse head).payload })
      else ([], t)
    -- an error is logged: the `TlsConnection` is missing
    | .none, _ | .memoryBio, none => ([], t)

/-! ## What the file loop reads -/

namespace ScopedFd

variable {preads : Nat → Option Nat} {file : ScopedFd}

theorem length_pread (file : ScopedFd) (answer : Option Nat) (len offset : Nat) :
    (file.pread answer len offset).length ≤ len := by
  unfold pread segment
  cases answer with
  | none => exact Nat.zero_le len
  | some n =>
    simp only [List.length_take]
    omega

/-- **A read is the front of the segment** that is still to be sent. -/
theorem pread_append_segment (file : ScopedFd) (answer : Option Nat) {len remaining : Nat} (offset : Nat)
    (hlen : len ≤ remaining) :
    file.pread answer len offset ++
        file.segment (remaining - (file.pread answer len offset).length)
          (offset + (file.pread answer len offset).length) =
      file.segment remaining offset := by
  have hprefix : ∃ k ≤ remaining, file.pread answer len offset = (file.content.drop offset).take k := by
    unfold pread segment
    cases answer with
    | none => exact ⟨0, Nat.zero_le _, rfl⟩
    | some n => exact ⟨min n len, by omega, List.take_take⟩
  obtain ⟨k, hk, hread⟩ := hprefix
  generalize file.pread answer len offset = chunk at hread ⊢
  have hle : chunk.length ≤ remaining := by
    rw [hread, List.length_take]
    omega
  have hchunk : chunk = (file.content.drop offset).take chunk.length := by
    rw [hread, List.length_take]
    exact List.take_eq_take_min
  calc chunk ++ file.segment (remaining - chunk.length) (offset + chunk.length)
      = (file.content.drop offset).take chunk.length ++
          ((file.content.drop offset).drop chunk.length).take (remaining - chunk.length) := by
        rw [← hchunk, List.drop_drop]
        rfl
    _ = (file.content.drop offset).take (chunk.length + (remaining - chunk.length)) :=
        List.take_add.symm
    _ = file.segment remaining offset := by
        rw [Nat.add_sub_cancel' hle]
        rfl

/-- The chunks of the whole segment, when no read fails and the file is long enough. -/
theorem readFile_complete (hpreads : ∀ i, ∃ n, preads i = some (n + 1)) (remaining : Nat) :
    ∀ offset i : Nat, offset + remaining ≤ file.content.length →
      (file.readFile preads remaining offset i).1.flatten = file.segment remaining offset ∧
        (file.readFile preads remaining offset i).2.2 = true := by
  induction remaining using Nat.strongRecOn with
  | _ remaining ih =>
    intro offset i hlong
    rw [readFile]
    by_cases hzero : remaining = 0
    · rw [if_pos hzero, hzero]
      exact ⟨(List.take_zero).symm, rfl⟩
    · obtain ⟨n, hn⟩ := hpreads i
      have hne : file.pread (preads i) (min kTlsFileChunkSize remaining) offset ≠ [] := by
        rw [hn]
        refine List.ne_nil_of_length_pos ?_
        simp only [pread, segment, List.length_take, List.length_drop, kTlsFileChunkSize]
        omega
      have happend := file.pread_append_segment (preads i) offset (Nat.min_le_right kTlsFileChunkSize remaining)
      have hle := file.length_pread (preads i) (min kTlsFileChunkSize remaining) offset
      simp only [if_neg hzero, if_neg hne, List.flatten_cons]
      generalize file.pread (preads i) (min kTlsFileChunkSize remaining) offset = chunk
        at hne happend hle ⊢
      have hpos := List.length_pos_iff.mpr hne
      obtain ⟨hflatten, hok⟩ :=
        ih (remaining - chunk.length) (by omega) (offset + chunk.length) (i + 1) (by omega)
      rw [hflatten]
      exact ⟨happend, hok⟩

/-- However the reads go, what they return is in the segment. -/
theorem length_readFile (remaining : Nat) : ∀ offset i : Nat,
    (file.readFile preads remaining offset i).1.flatten.length ≤
      (file.segment remaining offset).length := by
  induction remaining using Nat.strongRecOn with
  | _ remaining ih =>
    intro offset i
    rw [readFile]
    by_cases hzero : remaining = 0
    · rw [if_pos hzero]
      exact Nat.zero_le _
    · have happend := file.pread_append_segment (preads i) offset (Nat.min_le_right kTlsFileChunkSize remaining)
      simp only [if_neg hzero]
      generalize file.pread (preads i) (min kTlsFileChunkSize remaining) offset = chunk at happend ⊢
      by_cases hne : chunk = []
      · rw [if_pos hne]
        exact Nat.zero_le _
      · have hpos := List.length_pos_iff.mpr hne
        have hrest := ih (remaining - chunk.length) (by omega) (offset + chunk.length) (i + 1)
        rw [if_neg hne, ← happend]
        simp only [List.flatten_cons, List.length_append]
        omega

end ScopedFd

/-! ## Sending -/

namespace MemoryBioSend

variable {S : Type*} {ssl : OpenSsl S} {preads : Nat → Option Nat} {Open : S → Prop}

/-- The plaintexts `chunks` were encrypted and sent. -/
structure Sent (Open : S → Prop) (chunks : List Bytes) (m m' : MemoryBioSend S) : Prop where
  writable : m'.tls.Writable Open
  taken : m'.tls.taken = m.tls.taken ++ chunks.flatten
  handed : m'.handed = m.handed ++ chunks
  sends : ∃ ciphertexts : List Bytes, m'.sends = m.sends ++ ciphertexts.map Request.send

theorem Sent.refl {m : MemoryBioSend S} (h : m.tls.Writable Open) : Sent Open [] m m :=
  ⟨h, (List.append_nil _).symm, (List.append_nil _).symm, [], (List.append_nil _).symm⟩

theorem Sent.trans {chunks more : List Bytes} {m m' m'' : MemoryBioSend S} (h : Sent Open chunks m m')
    (h' : Sent Open more m' m'') : Sent Open (chunks ++ more) m m'' := by
  obtain ⟨ciphertexts, hsends⟩ := h.sends
  obtain ⟨ciphertexts', hsends'⟩ := h'.sends
  refine ⟨h'.writable, ?_, ?_, ciphertexts ++ ciphertexts', ?_⟩
  · rw [h'.taken, h.taken, List.flatten_append, List.append_assoc]
  · rw [h'.handed, h.handed, List.append_assoc]
  · rw [hsends', hsends, List.map_append, List.append_assoc]

theorem sendMemoryBioPlaintext_sent (h : ssl.AcceptsWrites Open) {m : MemoryBioSend S}
    (hm : m.tls.Writable Open) {plaintext : Bytes} (hne : plaintext ≠ [])
    (hlen : plaintext.length < 2 ^ 31) :
    ∃ m', m.sendMemoryBioPlaintext ssl plaintext = (m', true) ∧ Sent Open [plaintext] m m' ∧
      m'.preads = m.preads := by
  obtain ⟨s, ciphertext, hwrite, hcipher, hs⟩ := hm.writePlaintext h hne hlen
  refine ⟨⟨{ m.tls with ssl := s, taken := m.tls.taken ++ plaintext }, m.preads,
    m.handed ++ [plaintext], m.sends ++ [.send ciphertext]⟩, ?_, ?_, rfl⟩
  · simp [sendMemoryBioPlaintext, hwrite, hcipher]
  · refine ⟨⟨hm.hasBios, hm.state, hs⟩, ?_, rfl, [ciphertext], rfl⟩
    rw [List.flatten_singleton]

/-- **The file loop** encrypts and sends what it reads. -/
theorem sendFileLoop_sent (h : ssl.AcceptsWrites Open) (file : ScopedFd) (remaining : Nat) :
    ∀ (offset : Nat) {m : MemoryBioSend S}, m.tls.Writable Open →
      ∃ m', m.sendFileLoop ssl preads file remaining offset =
          (m', (file.readFile preads remaining offset m.preads).2.2) ∧
        Sent Open (file.readFile preads remaining offset m.preads).1 m m' ∧
        m'.preads = (file.readFile preads remaining offset m.preads).2.1 := by
  induction remaining using Nat.strongRecOn with
  | _ remaining ih =>
    intro offset m hm
    rw [sendFileLoop, ScopedFd.readFile]
    by_cases hzero : remaining = 0
    · simp only [if_pos hzero]
      exact ⟨m, rfl, .refl hm, rfl⟩
    · simp only [if_neg hzero]
      have hle := file.length_pread (preads m.preads) (min kTlsFileChunkSize remaining) offset
      generalize file.pread (preads m.preads) (min kTlsFileChunkSize remaining) offset = chunk at hle ⊢
      by_cases hne : chunk = []
      · simp only [if_pos hne]
        exact ⟨_, rfl, ⟨hm, (List.append_nil _).symm, (List.append_nil _).symm, [],
          (List.append_nil _).symm⟩, rfl⟩
      · have hpos := List.length_pos_iff.mpr hne
        have hlen : chunk.length < 2 ^ 31 := by
          simp only [kTlsFileChunkSize] at hle
          omega
        obtain ⟨m₁, hsend, hsent, hcount⟩ :=
          @sendMemoryBioPlaintext_sent _ _ _ h { m with preads := m.preads + 1 } hm chunk hne hlen
        obtain ⟨m', hloop, hsent', hcount'⟩ :=
          ih (remaining - chunk.length) (by omega) (offset + chunk.length) hsent.writable
        simp only [if_neg hne, hsend, if_true]
        rw [hcount] at hloop hsent' hcount'
        refine ⟨m', hloop, ?_, hcount'⟩
        obtain ⟨hwritable, htaken, hhanded, hsends⟩ := hsent.trans hsent'
        exact ⟨hwritable, htaken, hhanded, hsends⟩

/-- A whole response: the plaintexts handed over, the reads made, and whether all of it was sent. -/
def plaintexts (preads : Nat → Option Nat) (resp : HttpResponse) (responseHead : Bytes) (i : Nat) :
    List Bytes × Nat × Bool :=
  match resp.validFile with
  | none => ([responseHead], i, true)
  | some file =>
    let (chunks, i, ok) := file.readFile preads resp.fileBody.size resp.fileBody.offset i
    (responseHead :: chunks, i, ok)

/-- Never more than the whole response is handed over. -/
theorem length_plaintexts (r : HttpResponse) (i : Nat) :
    (plaintexts preads r r.responseHead i).1.flatten.length ≤ r.serialised.length := by
  unfold plaintexts HttpResponse.serialised HttpResponse.fileSegment
  cases r.validFile with
  | none => simp only [List.flatten_singleton, List.append_nil, Nat.le_refl]
  | some file =>
    have hfile := @ScopedFd.length_readFile preads file r.fileBody.size r.fileBody.offset i
    simp only [List.flatten_cons, List.length_append]
    omega

/-- The head is handed over first. -/
theorem length_responseHead_le (r : HttpResponse) (i : Nat) :
    r.responseHead.length ≤ (plaintexts preads r r.responseHead i).1.flatten.length := by
  unfold plaintexts
  cases r.validFile with
  | none => simp only [List.flatten_singleton, Nat.le_refl]
  | some file =>
    simp only [List.flatten_cons, List.length_append]
    omega

/-- **A response** is encrypted and sent piece by piece. -/
theorem sendMemoryBioResponse_sent (h : ssl.AcceptsWrites Open) {m : MemoryBioSend S}
    (hm : m.tls.Writable Open) (resp : HttpResponse) {responseHead : Bytes} (hne : responseHead ≠ [])
    (hlen : responseHead.length < 2 ^ 31) :
    ∃ m', m.sendMemoryBioResponse ssl preads resp responseHead =
        (m', (plaintexts preads resp responseHead m.preads).2.2) ∧
      Sent Open (plaintexts preads resp responseHead m.preads).1 m m' ∧
      m'.preads = (plaintexts preads resp responseHead m.preads).2.1 := by
  obtain ⟨m₁, hsend, hsent, hcount⟩ := sendMemoryBioPlaintext_sent h hm hne hlen
  unfold sendMemoryBioResponse plaintexts
  cases resp.validFile with
  | none => exact ⟨m₁, hsend, hsent, hcount⟩
  | some file =>
    obtain ⟨m', hloop, hsent', hcount'⟩ := @sendFileLoop_sent _ _ preads _ h file
      resp.fileBody.size resp.fileBody.offset _ hsent.writable
    simp only [hsend, if_true]
    rw [hcount] at hloop hsent' hcount'
    exact ⟨m', hloop, hsent.trans hsent', hcount'⟩

/-- **The same plaintext as on the plain path**, and the file loop ends: for every pattern of reads
that return at least one byte, the plaintexts handed to `write_plaintext` are the bytes that
`send_plain_response` passes to the connection, the head with the body or with the file segment. -/
theorem memory_bio_sends_serialised (h : ssl.AcceptsWrites Open) {tls : TlsConnection S}
    (htls : tls.Writable Open) (r : HttpResponse) (hlen : r.responseHead.length < 2 ^ 31)
    (hfile : ∀ file, r.validFile = some file →
      r.fileBody.offset + r.fileBody.size ≤ file.content.length)
    (hpreads : ∀ i, ∃ n, preads i = some (n + 1)) :
    ∃ m, sendMemoryBioResponse ssl preads r.withContentLength r.responseHead ⟨tls, 0, [], []⟩ =
        (m, true) ∧
      m.handed.flatten = (r.withContentLength.sendPlainResponse r.responseHead).payload ∧
      m.handed.flatten = r.serialised := by
  obtain ⟨m, hsend, hsent, -⟩ := @sendMemoryBioResponse_sent _ _ preads _ h ⟨tls, 0, [], []⟩ htls
    r.withContentLength _ r.responseHead_ne_nil hlen
  have hplain : (plaintexts preads r.withContentLength r.responseHead 0).1.flatten = r.serialised ∧
      (plaintexts preads r.withContentLength r.responseHead 0).2.2 = true := by
    unfold plaintexts HttpResponse.serialised HttpResponse.fileSegment
    rw [HttpResponse.withContentLength_validFile, HttpResponse.withContentLength_fileBody]
    cases hvalid : r.validFile with
    | none => exact ⟨by rw [List.flatten_singleton, List.append_nil], rfl⟩
    | some file =>
      obtain ⟨hflatten, hok⟩ := ScopedFd.readFile_complete hpreads r.fileBody.size r.fileBody.offset 0
        (hfile file hvalid)
      exact ⟨by rw [List.flatten_cons, hflatten], hok⟩
  have hhanded : m.handed.flatten = r.serialised := by
    rw [hsent.handed, List.nil_append]
    exact hplain.1
  refine ⟨m, ?_, ?_, hhanded⟩
  · rw [hsend, hplain.2]
  · rw [hhanded, HttpResponse.payload_sendPlainResponse]

/-- Five bytes of a file, in reads of at most two bytes. -/
theorem memory_bio_sends_serialised_shortReads :
    let file : ScopedFd := ⟨true, true, .ofLiteral "abcdefgh"⟩
    let r := ({} : HttpResponse).setFileBody (some file) 5 1
    let tls : TlsConnection (TlsView × Bytes) := ⟨(.reading [] [], []), true, .established, []⟩
    ∃ m, sendMemoryBioResponse (.ofStream .ofBytes) (fun _ => some 2) r.withContentLength r.responseHead
        ⟨tls, 0, [], []⟩ = (m, true) ∧
      m.handed.flatten = (r.withContentLength.sendPlainResponse r.responseHead).payload ∧
      m.handed.flatten = r.serialised := by
  intro file r tls
  have hopen : tls.Writable fun s => s.1 = .reading [] [] := ⟨rfl, rfl, rfl⟩
  refine memory_bio_sends_serialised ((OpenSsl.ofStream_ideal .ofBytes).acceptsWrites rfl) hopen r
    (by decide +kernel) ?_ fun _ => ⟨1, rfl⟩
  intro file' hfile
  obtain rfl : file = file' := Option.some.inj hfile
  decide

end MemoryBioSend

end Tudou
