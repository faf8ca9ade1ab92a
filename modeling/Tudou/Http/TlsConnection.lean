import Mathlib.Algebra.Group.Nat.Defs
import Tudou.Foundation.Framing
import Tudou.Tcp.Buffer

/-!
# `TlsConnection` over an ideal record layer

Model of `src/tudou/http/TlsConnection.{h,cpp}`.  OpenSSL is not part of the repository: `OpenSsl` is
the interface the class uses, on an abstract `SSL` object with its two memory BIOs.

* `readPlaintext`, `writePlaintext`, `enableKtlsOffload` — the operations of the class.
* `TlsStream` — what a ciphertext stream means: where the handshake ends, the records after it, and
  where it is invalid.
* `OpenSsl.Ideal` — the `SSL` object reads such a stream, and accepts what it is given to write.
* `Agrees.readPlaintext` — **one call of `read_plaintext` continues the stream**, up to the first
  invalid record.
* `Writable.writePlaintext` — what is written is encrypted and handed out.
* `ofStream`, `ofBytes` — a small `OpenSsl` for examples.
-/

namespace Tudou

open Framing

/-! ## OpenSSL -/

/-- `SSL_do_handshake` and `SSL_get_error`. -/
inductive SslHandshake where
  | done
  /-- `SSL_ERROR_WANT_READ` or `SSL_ERROR_WANT_WRITE`. -/
  | wantMore
  | failed
  deriving DecidableEq, Repr

/-- `SSL_read` and `SSL_get_error`. -/
inductive SslRead where
  | data (plaintext : Bytes)
  | wantRead
  | zeroReturn
  | failed
  deriving DecidableEq, Repr

/-- `SSL_write` and `SSL_get_error`. -/
inductive SslWrite where
  | written (n : Nat)
  | wantWrite
  | failed
  deriving DecidableEq, Repr

/-- An `SSL` object and its BIOs. -/
structure OpenSsl (S : Type*) where
  /-- `SSL_new`, with two memory BIOs and `SSL_set_accept_state`. -/
  init : S
  /-- `BIO_write` to the read BIO, `none` when it returns no positive count. -/
  bioWrite : S → Bytes → Option S
  doHandshake : S → S × SslHandshake
  /-- `SSL_read` with a buffer of `kTlsBufferSize` bytes. -/
  read : S → S × SslRead
  write : S → Bytes → S × SslWrite
  /-- `BIO_ctrl_pending` and `BIO_read` on the write BIO. -/
  drain : S → S × Bytes
  /-- `SSL_set_bio` with a socket BIO for both directions. -/
  setSocketBio : S → S

/-- `static_cast<int>` of a size. -/
def castInt (n : Nat) : Int := (BitVec.ofNat 32 n).toInt

theorem castInt_of_lt {n : Nat} (h : n < 2 ^ 31) : castInt n = n := by
  unfold castInt
  rw [BitVec.toInt_eq_toNat_of_lt]
  · rw [BitVec.toNat_ofNat, Nat.mod_eq_of_lt (by omega)]
  · rw [BitVec.toNat_ofNat, Nat.mod_eq_of_lt (by omega)]
    omega

/-! ## The class -/

/-- `TlsConnection::State`. -/
inductive TlsConnectionState where
  | handshaking
  | established
  | error
  deriving DecidableEq, Repr

/-- `TlsConnection::ReadResult`. -/
inductive TlsReadResult where
  | error
  | needMoreData
  | ready
  deriving DecidableEq, Repr

/-- `TlsConnection`; `hasBios` is that `rbio_` and `wbio_` are not null. -/
structure TlsConnection (S : Type*) where
  ssl : S
  hasBios : Bool
  state : TlsConnectionState
  /-- The plaintext `SSL_write` has taken. -/
  taken : Bytes

/-- How the switch to kernel TLS goes. -/
inductive KtlsOffload where
  /-- Not compiled in, refused by `setsockopt(TCP_ULP)`, or no socket BIO. -/
  | refused
  /-- `SSL_set_bio` was reached; `sends` is `BIO_get_ktls_send`. -/
  | switched (sends : Bool)
  deriving DecidableEq, Repr

namespace TlsConnection

variable {S : Type*} (ssl : OpenSsl S)

/-- `TlsConnection(ssl)`. -/
def create : TlsConnection S := ⟨ssl.init, true, .handshaking, []⟩

def markError (c : TlsConnection S) : TlsConnection S := { c with state := .error }

/-- `ensure_tls_session(action)`. -/
def ensureTlsSession (c : TlsConnection S) : Bool := c.hasBios && c.state != .error

/-- `drain_ciphertext()`. -/
def drainCiphertext (c : TlsConnection S) : TlsConnection S × Bytes :=
  if c.hasBios then ({ c with ssl := (ssl.drain c.ssl).1 }, (ssl.drain c.ssl).2) else (c, [])

/-- The `SSL_read` loop with the plaintext so far, `none` if it has not ended after `fuel` calls. -/
def readLoop : Nat → TlsConnection S → Bytes → Option (TlsConnection S × TlsReadResult × Bytes)
  | 0, _, _ => none
  | fuel + 1, c, plaintext =>
    match ssl.read c.ssl with
    | (s, .data bytes) => readLoop fuel { c with ssl := s } (plaintext ++ bytes)
    | (s, .wantRead) | (s, .zeroReturn) =>
      some ({ c with ssl := s }, if plaintext = [] then .needMoreData else .ready, plaintext)
    | (s, .failed) => some ({ c with ssl := s }.markError, .error, plaintext)

/-- The handshake step of `read_plaintext`; `false` when it failed. -/
def advanceHandshake (c : TlsConnection S) : TlsConnection S × Bool :=
  if c.state = .handshaking then
    match ssl.doHandshake c.ssl with
    | (s, .done) => ({ c with ssl := s, state := .established }, true)
    | (s, .wantMore) => ({ c with ssl := s }, true)
    | (s, .failed) => ({ c with ssl := s, state := .error }, false)
  else (c, true)

/-- `read_plaintext(ciphertext, plaintext, outboundCiphertext)`; the result comes with the two
strings, in this order. -/
def readPlaintext (fuel : Nat) (ciphertext : Bytes) (c : TlsConnection S) :
    Option (TlsConnection S × TlsReadResult × Bytes × Bytes) :=
  if !c.ensureTlsSession then some (c, .error, [], [])
  else
    match if ciphertext = [] then some c.ssl else ssl.bioWrite c.ssl ciphertext with
    | none => some (c.markError, .error, [], [])
    | some s =>
      let (c, ok) := { c with ssl := s }.advanceHandshake ssl
      if !ok then some (c, .error, [], [])
      else
        let (c, outbound) := c.drainCiphertext ssl
        match c.state with
        | .handshaking => some (c, .needMoreData, [], outbound)
        | .error => some (c, .error, [], outbound)
        | .established =>
          (c.readLoop ssl fuel []).map fun (c, result, plaintext) => (c, result, plaintext, outbound)

/-- `write_plaintext(plaintext, ciphertext)`: its result and the ciphertext. -/
def writePlaintext (plaintext : Bytes) (c : TlsConnection S) : TlsConnection S × Bool × Bytes :=
  if plaintext = [] then (c, true, [])
  else if !c.ensureTlsSession then (c, false, [])
  else if c.state ≠ .established then (c, false, [])
  else
    let num := castInt plaintext.length
    let (s, result) := if num < 0 then (c.ssl, .failed) else ssl.write c.ssl (plaintext.take num.toNat)
    let c := { c with ssl := s }
    match result with
    | .written (n + 1) =>
      let (c, ciphertext) := { c with taken := c.taken ++ plaintext.take (n + 1) }.drainCiphertext ssl
      (c, ciphertext != [], ciphertext)
    | .wantWrite => (c, true, [])
    | .written 0 | .failed => (c.markError, false, [])

/-- `enable_ktls_offload(fd)`: the memory BIOs are gone once `SSL_set_bio` is reached, and one byte is
written through the socket. -/
def enableKtlsOffload (offload : KtlsOffload) (c : TlsConnection S) : TlsConnection S × Bool :=
  match offload with
  | .refused => (c, false)
  | .switched sends =>
    let (s, result) := ssl.write (ssl.setSocketBio c.ssl) [32]
    let taken :=
      match result with
      | .written n => [32].take n
      | .wantWrite | .failed => []
    ({ c with ssl := s, hasBios := false, taken := c.taken ++ taken }, sends)

end TlsConnection

/-! ## What a ciphertext stream means -/

/-- A record after the handshake. -/
inductive TlsRecord where
  | plaintext (bytes : Bytes)
  /-- `close_notify`: nothing is read after it. -/
  | closeNotify
  deriving DecidableEq, Repr

/-- The reading side of the record layer: where the handshake ends, and the records after it.
Records without plaintext belong to the next one. -/
structure TlsStream where
  handshake : Splitter Byte Unit
  starts : handshake.scan [] = .more
  records : Splitter Byte TlsRecord
  plaintext_ne : ∀ {xs bytes rest}, records.scan xs = .message (.plaintext bytes) rest → bytes ≠ []

/-- The plaintext of records, up to a `close_notify`. -/
def delivered : List TlsRecord → Bytes
  | [] => []
  | .plaintext bytes :: records => bytes ++ delivered records
  | .closeNotify :: _ => []

/-- Where an `SSL` object stands in its stream. -/
inductive TlsView where
  /-- With the bytes received so far. -/
  | handshaking (input : Bytes)
  /-- With the bytes of an unfinished record, and what is unread of the last one. -/
  | reading (input pending : Bytes)
  /-- Behind a `close_notify`. -/
  | shut
  /-- At an invalid record, for good. -/
  | broken
  deriving DecidableEq, Repr

/-- The state of the `TlsConnection` of such an `SSL` object. -/
def TlsView.state : TlsView → TlsConnectionState
  | .handshaking _ => .handshaking
  | .reading _ _ | .shut => .established
  | .broken => .error

/-- More ciphertext in the read BIO. -/
def TlsView.receive (data : Bytes) : TlsView → TlsView
  | .handshaking input => .handshaking (input ++ data)
  | .reading input pending => .reading (input ++ data) pending
  | .shut => .shut
  | .broken => .broken

namespace TlsStream

variable (T : TlsStream)

/-- Where records leave an `SSL` object that has read them. -/
def afterRecords (split : List TlsRecord × Option Bytes) : TlsView :=
  if .closeNotify ∈ split.1 then .shut
  else
    match split.2 with
    | none => .broken
    | some left => .reading left []

/-- Where a stream leaves an `SSL` object that has read all of it. -/
def view (stream : Bytes) : TlsView :=
  match T.handshake.scan stream with
  | .more => .handshaking stream
  | .corrupt => .broken
  | .message _ rest => afterRecords (T.records.split rest)

/-- The plaintext a stream carries, before an invalid record. -/
def plaintext (stream : Bytes) : Bytes :=
  match T.handshake.scan stream with
  | .more | .corrupt => []
  | .message _ rest => delivered (T.records.split rest).1

end TlsStream

/-- **The ideal record layer**: the `SSL` object `s` stands at `Sees s` in the stream it is fed, and
accepts all it is given to write. -/
structure OpenSsl.Ideal {S : Type*} (ssl : OpenSsl S) (T : TlsStream) (Sees : S → TlsView → Prop) :
    Prop where
  init : Sees ssl.init (.handshaking [])
  bioWrite : ∀ {s v data}, Sees s v → data ≠ [] →
    ∃ s', ssl.bioWrite s data = some s' ∧ Sees s' (v.receive data)
  handshake_more : ∀ {s input}, Sees s (.handshaking input) → T.handshake.scan input = .more →
    (ssl.doHandshake s).2 = .wantMore ∧ Sees (ssl.doHandshake s).1 (.handshaking input)
  handshake_done : ∀ {s input rest}, Sees s (.handshaking input) →
    T.handshake.scan input = .message () rest →
    (ssl.doHandshake s).2 = .done ∧ Sees (ssl.doHandshake s).1 (.reading rest [])
  handshake_failed : ∀ {s input}, Sees s (.handshaking input) → T.handshake.scan input = .corrupt →
    (ssl.doHandshake s).2 = .failed
  /-- A call returns some of the plaintext of one record. -/
  read_pending : ∀ {s input pending}, Sees s (.reading input pending) → pending ≠ [] →
    ∃ n, 0 < n ∧ n ≤ pending.length ∧ (ssl.read s).2 = .data (pending.take n) ∧
      Sees (ssl.read s).1 (.reading input (pending.drop n))
  read_record : ∀ {s input bytes rest}, Sees s (.reading input []) →
    T.records.scan input = .message (.plaintext bytes) rest →
    ∃ n, 0 < n ∧ n ≤ bytes.length ∧ (ssl.read s).2 = .data (bytes.take n) ∧
      Sees (ssl.read s).1 (.reading rest (bytes.drop n))
  read_closeNotify : ∀ {s input rest}, Sees s (.reading input []) →
    T.records.scan input = .message .closeNotify rest →
    (ssl.read s).2 = .zeroReturn ∧ Sees (ssl.read s).1 .shut
  read_more : ∀ {s input}, Sees s (.reading input []) → T.records.scan input = .more →
    (ssl.read s).2 = .wantRead ∧ Sees (ssl.read s).1 (.reading input [])
  read_corrupt : ∀ {s input}, Sees s (.reading input []) → T.records.scan input = .corrupt →
    (ssl.read s).2 = .failed
  read_shut : ∀ {s}, Sees s .shut → (ssl.read s).2 = .zeroReturn ∧ Sees (ssl.read s).1 .shut
  drain : ∀ {s v}, Sees s v → Sees (ssl.drain s).1 v
  write : ∀ {s v data}, Sees s v → v.state = .established → data ≠ [] →
    (ssl.write s data).2 = .written data.length ∧ Sees (ssl.write s data).1 v ∧
      (ssl.drain (ssl.write s data).1).2 ≠ []

/-- `SSL_write` takes the whole buffer it is given and yields some ciphertext, in the states `Open`. -/
structure OpenSsl.AcceptsWrites {S : Type*} (ssl : OpenSsl S) (Open : S → Prop) : Prop where
  write : ∀ {s data}, Open s → data ≠ [] →
    (ssl.write s data).2 = .written data.length ∧ Open (ssl.drain (ssl.write s data).1).1 ∧
      (ssl.drain (ssl.write s data).1).2 ≠ []

theorem OpenSsl.Ideal.acceptsWrites {S : Type*} {ssl : OpenSsl S} {T : TlsStream}
    {Sees : S → TlsView → Prop} (h : ssl.Ideal T Sees) {v : TlsView} (hv : v.state = .established) :
    ssl.AcceptsWrites (Sees · v) where
  write hs hdata :=
    have ⟨hresult, hs', hcipher⟩ := h.write hs hv hdata
    ⟨hresult, h.drain hs', hcipher⟩

/-! ## Streams in pieces -/

theorem delivered_append {records : List TlsRecord} (h : .closeNotify ∉ records)
    (more : List TlsRecord) : delivered (records ++ more) = delivered records ++ delivered more := by
  induction records with
  | nil => rfl
  | cons record records ih =>
    cases record with
    | closeNotify => exact absurd List.mem_cons_self h
    | plaintext bytes =>
      have hrest : .closeNotify ∉ records := fun hm => h (List.mem_cons_of_mem _ hm)
      simp only [List.cons_append, delivered, ih hrest, List.append_assoc]

theorem delivered_append_of_mem {records : List TlsRecord} (h : .closeNotify ∈ records)
    (more : List TlsRecord) : delivered (records ++ more) = delivered records := by
  induction records with
  | nil => cases h
  | cons record records ih =>
    cases record with
    | closeNotify => rfl
    | plaintext bytes =>
      have hrest : .closeNotify ∈ records := (List.mem_cons.mp h).resolve_left nofun
      simp only [List.cons_append, delivered, ih hrest]

namespace TlsStream

variable {T : TlsStream}

theorem view_of_more {stream : Bytes} (h : T.handshake.scan stream = .more) :
    T.view stream = .handshaking stream := by
  simp only [view, h]

theorem view_of_corrupt {stream : Bytes} (h : T.handshake.scan stream = .corrupt) :
    T.view stream = .broken := by
  simp only [view, h]

theorem view_of_message {stream rest : Bytes} (h : T.handshake.scan stream = .message () rest) :
    T.view stream = afterRecords (T.records.split rest) := by
  simp only [view, h]

theorem plaintext_of_more {stream : Bytes} (h : T.handshake.scan stream = .more) :
    T.plaintext stream = [] := by
  simp only [plaintext, h]

theorem plaintext_of_message {stream rest : Bytes} (h : T.handshake.scan stream = .message () rest) :
    T.plaintext stream = delivered (T.records.split rest).1 := by
  simp only [plaintext, h]

theorem afterRecords_plaintext (bytes : Bytes) (split : List TlsRecord × Option Bytes) :
    afterRecords (.plaintext bytes :: split.1, split.2) = afterRecords split := by
  simp only [afterRecords, List.mem_cons, reduceCtorEq, false_or]

theorem afterRecords_closeNotify (split : List TlsRecord × Option Bytes) :
    afterRecords (.closeNotify :: split.1, split.2) = .shut :=
  if_pos List.mem_cons_self

/-- The two ways of a stream of records that is not broken. -/
theorem afterRecords_cases {split : List TlsRecord × Option Bytes} (h : afterRecords split ≠ .broken) :
    (.closeNotify ∈ split.1 ∧ afterRecords split = .shut) ∨
      (.closeNotify ∉ split.1 ∧ ∃ left, split.2 = some left ∧ afterRecords split = .reading left []) := by
  unfold afterRecords at h ⊢
  split at h
  · rename_i hclose
    exact .inl ⟨hclose, if_pos hclose⟩
  · rename_i hclose
    split at h
    · exact absurd rfl h
    · rename_i left hleft
      exact .inr ⟨hclose, left, hleft, if_neg hclose⟩

theorem state_afterRecords {split : List TlsRecord × Option Bytes} (h : afterRecords split ≠ .broken) :
    (afterRecords split).state = .established := by
  rcases afterRecords_cases h with ⟨-, hshut⟩ | ⟨-, left, -, hreading⟩
  · rw [hshut]
    rfl
  · rw [hreading]
    rfl

/-- **More records behind an unfinished one.** -/
theorem records_append {rest left : Bytes} (hclose : .closeNotify ∉ (T.records.split rest).1)
    (hleft : (T.records.split rest).2 = some left) (data : Bytes) :
    afterRecords (T.records.split (rest ++ data)) = afterRecords (T.records.split (left ++ data)) ∧
      delivered (T.records.split (rest ++ data)).1 =
        delivered (T.records.split rest).1 ++ delivered (T.records.split (left ++ data)).1 := by
  rw [Splitter.split_append data hleft]
  refine ⟨?_, delivered_append hclose _⟩
  simp only [afterRecords, List.mem_append, hclose, false_or]

/-- **Nothing counts behind a `close_notify`.** -/
theorem records_append_shut {rest : Bytes} (hclose : .closeNotify ∈ (T.records.split rest).1)
    (data : Bytes) :
    afterRecords (T.records.split (rest ++ data)) = .shut ∧
      delivered (T.records.split (rest ++ data)).1 = delivered (T.records.split rest).1 := by
  have hmore : ∃ more, (T.records.split (rest ++ data)).1 = (T.records.split rest).1 ++ more := by
    cases hleft : (T.records.split rest).2 with
    | none => exact ⟨[], by rw [Splitter.split_append_of_corrupt data hleft, List.append_nil]⟩
    | some left => exact ⟨_, congrArg Prod.fst (Splitter.split_append data hleft)⟩
  obtain ⟨more, hmore⟩ := hmore
  rw [hmore]
  refine ⟨?_, delivered_append_of_mem hclose more⟩
  unfold afterRecords
  rw [hmore, if_pos (List.mem_append_left more hclose)]

/-- **The plaintext only grows.** -/
theorem plaintext_append (stream data : Bytes) :
    ∃ more, T.plaintext (stream ++ data) = T.plaintext stream ++ more := by
  cases hscan : T.handshake.scan stream with
  | more => exact ⟨_, by rw [plaintext_of_more hscan, List.nil_append]⟩
  | corrupt =>
    refine ⟨[], ?_⟩
    simp only [plaintext, hscan, T.handshake.corrupt_append data hscan, List.append_nil]
  | message _ rest =>
    rw [plaintext_of_message hscan, plaintext_of_message (T.handshake.message_append data hscan)]
    by_cases hclose : .closeNotify ∈ (T.records.split rest).1
    · exact ⟨[], by rw [(records_append_shut hclose data).2, List.append_nil]⟩
    · cases hleft : (T.records.split rest).2 with
      | none => exact ⟨[], by rw [Splitter.split_append_of_corrupt data hleft, List.append_nil]⟩
      | some left => exact ⟨_, (records_append hclose hleft data).2⟩

/-- There is plaintext behind the handshake only. -/
theorem established_of_plaintext {stream : Bytes} (hsound : T.view stream ≠ .broken)
    (hne : T.plaintext stream ≠ []) : (T.view stream).state = .established := by
  cases hscan : T.handshake.scan stream with
  | more => exact absurd (plaintext_of_more hscan) hne
  | corrupt => exact absurd (view_of_corrupt hscan) hsound
  | message _ rest =>
    rw [view_of_message hscan] at hsound ⊢
    exact state_afterRecords hsound

theorem plaintext_of_handshaking {stream : Bytes} (h : (T.view stream).state = .handshaking) :
    T.plaintext stream = [] := by
  by_contra hne
  have hsound : T.view stream ≠ .broken := by
    intro hbroken
    rw [hbroken] at h
    cases h
  rw [established_of_plaintext hsound hne] at h
  cases h

end TlsStream

/-! ## One call of `read_plaintext` -/

namespace TlsConnection

variable {S : Type*} {ssl : OpenSsl S} {T : TlsStream} {Sees : S → TlsView → Prop}

/-- Reading out one record. -/
theorem readLoop_pending (h : ssl.Ideal T Sees) {input : Bytes} (pending : Bytes) :
    ∀ {c : TlsConnection S} {plaintext : Bytes}, Sees c.ssl (.reading input pending) →
      ∃ s k, Sees s (.reading input []) ∧ ∀ fuel,
        c.readLoop ssl (fuel + k) plaintext = { c with ssl := s }.readLoop ssl fuel (plaintext ++ pending) := by
  induction hlen : pending.length using Nat.strongRecOn generalizing pending with
  | _ len ih =>
    intro c plaintext hs
    by_cases hp : pending = []
    · subst hp
      exact ⟨c.ssl, 0, hs, fun fuel => by rw [List.append_nil]; rfl⟩
    · obtain ⟨n, hpos, hle, hread, hs'⟩ := h.read_pending hs hp
      have hshorter : (pending.drop n).length < len := by
        rw [List.length_drop]
        omega
      obtain ⟨s, k, hs'', hloop⟩ :=
        @ih _ hshorter (pending.drop n) rfl { c with ssl := (ssl.read c.ssl).1 }
          (plaintext ++ pending.take n) hs'
      refine ⟨s, k + 1, hs'', fun fuel => ?_⟩
      have hstep : ssl.read c.ssl = ((ssl.read c.ssl).1, .data (pending.take n)) :=
        Prod.ext rfl hread
      rw [← Nat.add_assoc, readLoop, hstep]
      simp only
      rw [hloop, List.append_assoc, List.take_append_drop]

/-- **The read loop**: it delivers the records up to a `close_notify` or an unfinished one, and
fails at an invalid one. -/
theorem readLoop_spec (h : ssl.Ideal T Sees) (input : Bytes) :
    ∀ {c : TlsConnection S} (plaintext : Bytes), Sees c.ssl (.reading input []) →
      ∃ c' result n, (∀ fuel ≥ n, c.readLoop ssl fuel plaintext =
          some (c', result, plaintext ++ delivered (T.records.split input).1)) ∧
        (TlsStream.afterRecords (T.records.split input) = .broken → result = .error ∧ c'.state = .error) ∧
        (TlsStream.afterRecords (T.records.split input) ≠ .broken →
          result = (if plaintext ++ delivered (T.records.split input).1 = [] then
            .needMoreData else .ready) ∧ c'.hasBios = c.hasBios ∧ c'.state = c.state ∧
          Sees c'.ssl (TlsStream.afterRecords (T.records.split input))) := by
  induction input using T.records.stream_induction with
  | step input ih =>
    intro c plaintext hs
    cases hscan : T.records.scan input with
    | more =>
      obtain ⟨hread, hs'⟩ := h.read_more hs hscan
      rw [Splitter.split_of_more hscan]
      refine ⟨{ c with ssl := (ssl.read c.ssl).1 }, _, 1, fun fuel hfuel => ?_, nofun,
        fun _ => ⟨rfl, rfl, rfl, hs'⟩⟩
      obtain ⟨f, rfl⟩ : ∃ f, fuel = f + 1 := ⟨fuel - 1, by omega⟩
      have hstep : ssl.read c.ssl = ((ssl.read c.ssl).1, .wantRead) := Prod.ext rfl hread
      rw [readLoop, hstep]
      simp only [delivered, List.append_nil]
    | corrupt =>
      have hread := h.read_corrupt hs hscan
      rw [Splitter.split_of_corrupt hscan]
      refine ⟨{ c with ssl := (ssl.read c.ssl).1 }.markError, .error, 1, fun fuel hfuel => ?_,
        fun _ => ⟨rfl, rfl⟩, fun hne => absurd rfl hne⟩
      obtain ⟨f, rfl⟩ : ∃ f, fuel = f + 1 := ⟨fuel - 1, by omega⟩
      have hstep : ssl.read c.ssl = ((ssl.read c.ssl).1, .failed) := Prod.ext rfl hread
      rw [readLoop, hstep]
      simp only [delivered, List.append_nil]
    | message record rest =>
      rw [Splitter.split_of_message hscan]
      cases record with
      | closeNotify =>
        obtain ⟨hread, hs'⟩ := h.read_closeNotify hs hscan
        rw [TlsStream.afterRecords_closeNotify]
        refine ⟨{ c with ssl := (ssl.read c.ssl).1 }, _, 1, fun fuel hfuel => ?_, nofun,
          fun _ => ⟨rfl, rfl, rfl, hs'⟩⟩
        obtain ⟨f, rfl⟩ : ∃ f, fuel = f + 1 := ⟨fuel - 1, by omega⟩
        have hstep : ssl.read c.ssl = ((ssl.read c.ssl).1, .zeroReturn) := Prod.ext rfl hread
        rw [readLoop, hstep]
        simp only [delivered, List.append_nil]
      | plaintext bytes =>
        obtain ⟨n, -, -, hread, hs'⟩ := h.read_record hs hscan
        obtain ⟨s, k, hs'', hloop⟩ :=
          @readLoop_pending _ _ _ _ h rest (bytes.drop n) { c with ssl := (ssl.read c.ssl).1 }
            (plaintext ++ bytes.take n) hs'
        obtain ⟨c', result, m, hrest, hbroken, hfine⟩ :=
          @ih _ rest hscan { c with ssl := s } (plaintext ++ bytes) hs''
        rw [TlsStream.afterRecords_plaintext]
        simp only [delivered, ← List.append_assoc]
        refine ⟨c', result, m + k + 1, fun fuel hfuel => ?_, hbroken, hfine⟩
        obtain ⟨f, hf, rfl⟩ : ∃ f ≥ m, fuel = f + k + 1 := ⟨fuel - (k + 1), by omega, by omega⟩
        have hstep : ssl.read c.ssl = ((ssl.read c.ssl).1, .data (bytes.take n)) := Prod.ext rfl hread
        rw [readLoop, hstep]
        simp only
        rw [hloop, List.append_assoc, List.take_append_drop]
        exact hrest f hf

/-- A connection that has read `received`, which is not broken. -/
structure Agrees (T : TlsStream) (Sees : S → TlsView → Prop) (c : TlsConnection S) (received : Bytes) :
    Prop where
  hasBios : c.hasBios = true
  state : c.state = (T.view received).state
  sees : Sees c.ssl (T.view received)
  sound : T.view received ≠ .broken

theorem Agrees.create (h : ssl.Ideal T Sees) : (create ssl).Agrees T Sees [] := by
  have hview : T.view [] = .handshaking [] := TlsStream.view_of_more T.starts
  refine ⟨rfl, ?_, ?_, ?_⟩
  · rw [hview]
    rfl
  · rw [hview]
    exact h.init
  · rw [hview]
    exact nofun

theorem Agrees.ensureTlsSession {c : TlsConnection S} {received : Bytes} (h : c.Agrees T Sees received) :
    c.ensureTlsSession = true := by
  have hstate : c.state ≠ .error := by
    rw [h.state]
    cases hview : T.view received with
    | broken => exact absurd hview h.sound
    | handshaking input => exact nofun
    | reading input pending => exact nofun
    | shut => exact nofun
  simp [TlsConnection.ensureTlsSession, h.hasBios, hstate]

/-- Where one call of `read_plaintext` leaves a connection that had read `received`. -/
structure Continues (T : TlsStream) (Sees : S → TlsView → Prop) (received chunk : Bytes)
    (c : TlsConnection S) (result : TlsReadResult) (plaintext : Bytes) : Prop where
  broken : T.view (received ++ chunk) = .broken → result = .error ∧ c.state = .error
  agrees : T.view (received ++ chunk) ≠ .broken → c.Agrees T Sees (received ++ chunk)
  delivers : T.view (received ++ chunk) ≠ .broken →
    T.plaintext (received ++ chunk) = T.plaintext received ++ plaintext
  outcome : T.view (received ++ chunk) ≠ .broken →
    result = if plaintext = [] then .needMoreData else .ready

theorem advanceHandshake_done {c : TlsConnection S} (hstate : c.state = .handshaking)
    (h : (ssl.doHandshake c.ssl).2 = .done) :
    c.advanceHandshake ssl = ({ c with ssl := (ssl.doHandshake c.ssl).1, state := .established }, true) := by
  have hstep : ssl.doHandshake c.ssl = ((ssl.doHandshake c.ssl).1, .done) := Prod.ext rfl h
  rw [advanceHandshake, if_pos hstate, hstep]

theorem advanceHandshake_wantMore {c : TlsConnection S} (hstate : c.state = .handshaking)
    (h : (ssl.doHandshake c.ssl).2 = .wantMore) :
    c.advanceHandshake ssl = ({ c with ssl := (ssl.doHandshake c.ssl).1 }, true) := by
  have hstep : ssl.doHandshake c.ssl = ((ssl.doHandshake c.ssl).1, .wantMore) := Prod.ext rfl h
  rw [advanceHandshake, if_pos hstate, hstep]

theorem advanceHandshake_failed {c : TlsConnection S} (hstate : c.state = .handshaking)
    (h : (ssl.doHandshake c.ssl).2 = .failed) :
    c.advanceHandshake ssl = ({ c with ssl := (ssl.doHandshake c.ssl).1, state := .error }, false) := by
  have hstep : ssl.doHandshake c.ssl = ((ssl.doHandshake c.ssl).1, .failed) := Prod.ext rfl h
  rw [advanceHandshake, if_pos hstate, hstep]

/-- The call once the handshake has been advanced. -/
theorem readPlaintext_advanced {fuel : Nat} {chunk : Bytes} {c c₁ : TlsConnection S} {s : S} {ok : Bool}
    (hready : c.ensureTlsSession = true) (hchunk : chunk ≠ []) (hbio : ssl.bioWrite c.ssl chunk = some s)
    (hadvance : { c with ssl := s }.advanceHandshake ssl = (c₁, ok)) :
    c.readPlaintext ssl fuel chunk =
      if ok then
        let (c, outbound) := c₁.drainCiphertext ssl
        match c.state with
        | .handshaking => some (c, .needMoreData, [], outbound)
        | .error => some (c, .error, [], outbound)
        | .established =>
          (c.readLoop ssl fuel []).map fun (c, result, plaintext) => (c, result, plaintext, outbound)
      else some (c₁, .error, [], []) := by
  cases ok <;> simp [readPlaintext, hready, hchunk, hbio, hadvance]

/-- The second half of `read_plaintext`: the handshake is done. -/
theorem readPlaintext_established {fuel : Nat} {chunk : Bytes} {c c₁ : TlsConnection S} {s : S}
    (hready : c.ensureTlsSession = true) (hchunk : chunk ≠ []) (hbio : ssl.bioWrite c.ssl chunk = some s)
    (hadvance : { c with ssl := s }.advanceHandshake ssl = (c₁, true)) (hbios : c₁.hasBios = true)
    (hstate : c₁.state = .established) :
    c.readPlaintext ssl fuel chunk =
      ({ c₁ with ssl := (ssl.drain c₁.ssl).1 }.readLoop ssl fuel []).map
        fun (c, result, plaintext) => (c, result, plaintext, (ssl.drain c₁.ssl).2) := by
  rw [readPlaintext_advanced hready hchunk hbio hadvance, if_pos rfl, drainCiphertext, if_pos hbios]
  simp only [hstate]

/-- The `SSL_read` loop behind the handshake, as the rest of a call that continues the stream. -/
theorem Continues.of_readLoop (h : ssl.Ideal T Sees) {received chunk input : Bytes}
    {c : TlsConnection S} (hsees : Sees c.ssl (.reading input [])) (hbios : c.hasBios = true)
    (hstate : c.state = .established)
    (hview : T.view (received ++ chunk) = TlsStream.afterRecords (T.records.split input))
    (hplain : T.plaintext (received ++ chunk) =
      T.plaintext received ++ delivered (T.records.split input).1) :
    ∃ c' result plaintext n, (∀ fuel ≥ n, c.readLoop ssl fuel [] = some (c', result, plaintext)) ∧
      Continues T Sees received chunk c' result plaintext := by
  obtain ⟨c', result, n, hrun, hbroken, hfine⟩ := readLoop_spec h input [] hsees
  refine ⟨c', result, _, n, hrun, ?_⟩
  rw [List.nil_append] at hfine ⊢
  rw [← hview] at hbroken hfine
  refine ⟨hbroken, fun hne => ?_, fun _ => hplain, fun hne => (hfine hne).1⟩
  obtain ⟨-, hbios', hstate', hsees'⟩ := hfine hne
  refine ⟨hbios'.trans hbios, ?_, hsees', hne⟩
  rw [hstate', hstate, hview, TlsStream.state_afterRecords (hview ▸ hne)]

/-- During the handshake. -/
theorem Agrees.readPlaintext_handshaking (h : ssl.Ideal T Sees) {c : TlsConnection S} {received : Bytes}
    (hc : c.Agrees T Sees received) (hscan : T.handshake.scan received = .more) {chunk : Bytes}
    (hchunk : chunk ≠ []) :
    ∃ c' result plaintext outbound n,
      (∀ fuel ≥ n, c.readPlaintext ssl fuel chunk = some (c', result, plaintext, outbound)) ∧
      Continues T Sees received chunk c' result plaintext := by
  have hsees := hc.sees
  have hstate := hc.state
  rw [TlsStream.view_of_more hscan] at hsees hstate
  obtain ⟨s, hbio, hs⟩ := h.bioWrite hsees hchunk
  have hready := hc.ensureTlsSession
  have hempty : T.plaintext received = [] := TlsStream.plaintext_of_more hscan
  cases hscan' : T.handshake.scan (received ++ chunk) with
  | more =>
    obtain ⟨hdo, hs'⟩ := h.handshake_more hs hscan'
    have hview := TlsStream.view_of_more hscan'
    refine ⟨{ c with ssl := (ssl.drain (ssl.doHandshake s).1).1 }, .needMoreData, [],
      (ssl.drain (ssl.doHandshake s).1).2, 0, fun fuel _ => ?_, ?_, ?_, ?_, fun _ => rfl⟩
    · rw [readPlaintext_advanced hready hchunk hbio (advanceHandshake_wantMore hstate hdo), if_pos rfl,
        drainCiphertext, if_pos hc.hasBios]
      simp only [hstate, TlsView.state]
    · exact fun hbroken => absurd (hview.symm.trans hbroken) nofun
    · intro hne
      refine ⟨hc.hasBios, ?_, ?_, hne⟩
      · rw [hview]
        exact hstate
      · rw [hview]
        exact h.drain hs'
    · exact fun _ => by rw [TlsStream.plaintext_of_more hscan', hempty, List.append_nil]
  | corrupt =>
    have hview := TlsStream.view_of_corrupt hscan'
    refine ⟨{ c with ssl := (ssl.doHandshake s).1, state := .error }, .error, [], [], 0,
      fun fuel _ => ?_, fun _ => ⟨rfl, rfl⟩, fun hne => absurd hview hne,
      fun hne => absurd hview hne, fun hne => absurd hview hne⟩
    have hdo := h.handshake_failed hs hscan'
    rw [readPlaintext_advanced hready hchunk hbio (advanceHandshake_failed hstate hdo),
      if_neg (by exact nofun)]
  | message _ rest =>
    -- the handshake ends, and the records behind it are read at once
    obtain ⟨hdo, hs'⟩ := h.handshake_done hs hscan'
    obtain ⟨c', result, plaintext, n, hrun, hcontinues⟩ :=
      @Continues.of_readLoop _ _ _ _ h received chunk rest
        { c with ssl := (ssl.drain (ssl.doHandshake s).1).1, state := .established } (h.drain hs')
        hc.hasBios rfl (TlsStream.view_of_message hscan')
        (by rw [TlsStream.plaintext_of_message hscan', hempty, List.nil_append])
    refine ⟨c', result, plaintext, (ssl.drain (ssl.doHandshake s).1).2, n, fun fuel hfuel => ?_,
      hcontinues⟩
    rw [readPlaintext_established hready hchunk hbio (advanceHandshake_done hstate hdo) hc.hasBios rfl,
      hrun fuel hfuel]
    rfl

/-- Behind the handshake. -/
theorem Agrees.readPlaintext_reading (h : ssl.Ideal T Sees) {c : TlsConnection S}
    {received rest : Bytes} (hc : c.Agrees T Sees received)
    (hscan : T.handshake.scan received = .message () rest) {chunk : Bytes} (hchunk : chunk ≠ []) :
    ∃ c' result plaintext outbound n,
      (∀ fuel ≥ n, c.readPlaintext ssl fuel chunk = some (c', result, plaintext, outbound)) ∧
      Continues T Sees received chunk c' result plaintext := by
  have hsees := hc.sees
  have hstate := hc.state
  have hsound := hc.sound
  rw [TlsStream.view_of_message hscan] at hsees hstate hsound
  obtain ⟨s, hbio, hs⟩ := h.bioWrite hsees hchunk
  have hready := hc.ensureTlsSession
  have hscan' := T.handshake.message_append chunk hscan
  have hview := TlsStream.view_of_message hscan'
  have hplain := TlsStream.plaintext_of_message hscan'
  have hadvance : c.state = .established →
      { c with ssl := s }.advanceHandshake ssl = ({ c with ssl := s }, true) := by
    intro hestablished
    exact if_neg (by rw [hestablished]; exact nofun)
  rcases TlsStream.afterRecords_cases hsound with ⟨hclose, hshut⟩ | ⟨hclose, left, hleft, hreading⟩
  · -- a `close_notify` came before: nothing more is read
    obtain ⟨hview', hplain'⟩ := TlsStream.records_append_shut hclose chunk
    rw [hshut] at hs hstate
    obtain ⟨hread, hs'⟩ := h.read_shut (h.drain hs)
    have hstep : ssl.read (ssl.drain s).1 = ((ssl.read (ssl.drain s).1).1, .zeroReturn) :=
      Prod.ext rfl hread
    refine ⟨{ c with ssl := (ssl.read (ssl.drain s).1).1 }, .needMoreData, [], (ssl.drain s).2, 1,
      fun fuel hfuel => ?_, ?_, ?_, ?_, fun _ => rfl⟩
    · obtain ⟨f, rfl⟩ : ∃ f, fuel = f + 1 := ⟨fuel - 1, by omega⟩
      rw [readPlaintext_established hready hchunk hbio (hadvance hstate) hc.hasBios hstate, readLoop,
        hstep]
      simp only [if_true, Option.map_some]
    · exact fun hbroken => absurd ((hview.trans hview').symm.trans hbroken) nofun
    · intro hne
      refine ⟨hc.hasBios, ?_, ?_, hne⟩
      · rw [hview, hview']
        exact hstate
      · rw [hview, hview']
        exact hs'
    · intro _
      rw [hplain, hplain', TlsStream.plaintext_of_message hscan, List.append_nil]
  · obtain ⟨hview', hplain'⟩ := TlsStream.records_append hclose hleft chunk
    rw [hreading] at hs hstate
    obtain ⟨c', result, plaintext, n, hrun, hcontinues⟩ :=
      @Continues.of_readLoop _ _ _ _ h received chunk (left ++ chunk)
        { c with ssl := (ssl.drain s).1 } (h.drain hs) hc.hasBios hstate (hview.trans hview')
        (by rw [hplain, hplain', TlsStream.plaintext_of_message hscan])
    refine ⟨c', result, plaintext, (ssl.drain s).2, n, fun fuel hfuel => ?_, hcontinues⟩
    rw [readPlaintext_established hready hchunk hbio (hadvance hstate) hc.hasBios hstate,
      hrun fuel hfuel]
    rfl

/-- **One call of `read_plaintext` continues the stream**: it returns the plaintext of the records
that the chunk completes, and fails when one of them is invalid. -/
theorem Agrees.readPlaintext (h : ssl.Ideal T Sees) {c : TlsConnection S} {received : Bytes}
    (hc : c.Agrees T Sees received) {chunk : Bytes} (hchunk : chunk ≠ []) :
    ∃ c' result plaintext outbound n,
      (∀ fuel ≥ n, c.readPlaintext ssl fuel chunk = some (c', result, plaintext, outbound)) ∧
      Continues T Sees received chunk c' result plaintext := by
  cases hscan : T.handshake.scan received with
  | more => exact hc.readPlaintext_handshaking h hscan hchunk
  | corrupt => exact absurd (TlsStream.view_of_corrupt hscan) hc.sound
  | message _ rest => exact hc.readPlaintext_reading h hscan hchunk

/-- A connection in its error state stays there and reads nothing. -/
theorem readPlaintext_error {c : TlsConnection S} (hc : c.state = .error) (fuel : Nat) (chunk : Bytes) :
    c.readPlaintext ssl fuel chunk = some (c, .error, [], []) := by
  simp [readPlaintext, ensureTlsSession, hc]

/-- A connection without its BIOs reads nothing either. -/
theorem readPlaintext_noBios {c : TlsConnection S} (hc : c.hasBios = false) (fuel : Nat) (chunk : Bytes) :
    c.readPlaintext ssl fuel chunk = some (c, .error, [], []) := by
  simp [readPlaintext, ensureTlsSession, hc]

theorem readLoop_taken {fuel : Nat} : ∀ {c c' : TlsConnection S} {plaintext bytes : Bytes}
    {result : TlsReadResult}, c.readLoop ssl fuel plaintext = some (c', result, bytes) →
      c'.taken = c.taken := by
  induction fuel with
  | zero =>
    intro c c' plaintext bytes result h
    cases h
  | succ fuel ih =>
    intro c c' plaintext bytes result h
    rw [readLoop] at h
    split at h
    · have hrest := ih h
      exact hrest
    · cases h
      rfl
    · cases h
      rfl
    · cases h
      rfl

theorem advanceHandshake_taken (c : TlsConnection S) : (c.advanceHandshake ssl).1.taken = c.taken := by
  unfold advanceHandshake
  split
  · split <;> rfl
  · rfl

theorem drainCiphertext_taken (c : TlsConnection S) : (c.drainCiphertext ssl).1.taken = c.taken := by
  unfold drainCiphertext
  split <;> rfl

/-- Reading gives nothing to `SSL_write`. -/
theorem readPlaintext_taken {fuel : Nat} {chunk plaintext outbound : Bytes} {c c' : TlsConnection S}
    {result : TlsReadResult}
    (h : c.readPlaintext ssl fuel chunk = some (c', result, plaintext, outbound)) :
    c'.taken = c.taken := by
  unfold readPlaintext at h
  split at h
  · cases h
    rfl
  split at h
  · cases h
    rfl
  rename_i s _
  have hadvance := @advanceHandshake_taken S ssl { c with ssl := s }
  have hdrain := @drainCiphertext_taken S ssl ({ c with ssl := s }.advanceHandshake ssl).1
  simp only at h
  split at h
  · cases h
    exact hadvance
  split at h
  · cases h
    exact hdrain.trans hadvance
  · cases h
    exact hdrain.trans hadvance
  · obtain ⟨⟨c₁, result₁, bytes⟩, hloop, heq⟩ := Option.map_eq_some_iff.mp h
    cases heq
    exact (readLoop_taken hloop).trans (hdrain.trans hadvance)

/-! ## One call of `write_plaintext` -/

/-- A connection that can encrypt. -/
structure Writable (Open : S → Prop) (c : TlsConnection S) : Prop where
  hasBios : c.hasBios = true
  state : c.state = .established
  isOpen : Open c.ssl

theorem Agrees.writable {c : TlsConnection S} {received : Bytes} (h : c.Agrees T Sees received)
    (hestablished : (T.view received).state = .established) :
    c.Writable (Sees · (T.view received)) :=
  ⟨h.hasBios, h.state.trans hestablished, h.sees⟩

/-- **One call of `write_plaintext`** passes all it is given to `SSL_write`. -/
theorem Writable.writePlaintext {Open : S → Prop} (h : ssl.AcceptsWrites Open) {c : TlsConnection S}
    (hc : c.Writable Open) {plaintext : Bytes} (hne : plaintext ≠ [])
    (hlen : plaintext.length < 2 ^ 31) :
    ∃ s ciphertext, c.writePlaintext ssl plaintext =
        ({ c with ssl := s, taken := c.taken ++ plaintext }, true, ciphertext) ∧
      ciphertext ≠ [] ∧ Open s := by
  obtain ⟨hresult, hs, hcipher⟩ := h.write hc.isOpen hne
  obtain ⟨n, hn⟩ : ∃ n, plaintext.length = n + 1 :=
    ⟨plaintext.length - 1, by have := List.length_pos_iff.mpr hne; omega⟩
  have hready : c.ensureTlsSession = true := by
    simp [TlsConnection.ensureTlsSession, hc.hasBios, hc.state]
  have hnonneg : ¬ (plaintext.length : Int) < 0 := by omega
  have hall : plaintext.take (plaintext.length : Int).toNat = plaintext := by
    rw [Int.toNat_natCast, List.take_length]
  have hstep : ssl.write c.ssl plaintext = ((ssl.write c.ssl plaintext).1, .written (n + 1)) :=
    Prod.ext rfl (hresult.trans (by rw [hn]))
  refine ⟨_, _, ?_, hcipher, hs⟩
  rw [TlsConnection.writePlaintext, if_neg hne, if_neg (by rw [hready]; exact nofun),
    if_neg (by rw [hc.state]; exact nofun), castInt_of_lt hlen]
  simp only [if_neg hnonneg, hall]
  rw [hstep]
  simp only [drainCiphertext, hc.hasBios, if_true, ← hn, List.take_length]
  simp [hcipher]

end TlsConnection

/-! ## An `SSL` object for every stream -/

namespace OpenSsl

/-- The view itself as the `SSL` object, with what is still in the write BIO; a call of `SSL_read`
returns a whole record. -/
def ofStream (T : TlsStream) : OpenSsl (TlsView × Bytes) where
  init := (.handshaking [], [])
  bioWrite s data := some (s.1.receive data, s.2)
  doHandshake
    | (.handshaking input, out) =>
      match T.handshake.scan input with
      | .more => ((.handshaking input, out), .wantMore)
      | .corrupt => ((.broken, out), .failed)
      | .message _ rest => ((.reading rest [], out), .done)
    | (v, out) => ((v, out), .done)
  read
    | (.reading input [], out) =>
      match T.records.scan input with
      | .more => ((.reading input [], out), .wantRead)
      | .corrupt => ((.broken, out), .failed)
      | .message (.plaintext bytes) rest => ((.reading rest [], out), .data bytes)
      | .message .closeNotify _ => ((.shut, out), .zeroReturn)
    | (.reading input (b :: pending), out) => ((.reading input [], out), .data (b :: pending))
    | (.shut, out) => ((.shut, out), .zeroReturn)
    | (v, out) => ((v, out), .failed)
  write s data := ((s.1, s.2 ++ data), .written data.length)
  drain s := ((s.1, []), s.2)
  setSocketBio s := s

theorem ofStream_ideal (T : TlsStream) : (ofStream T).Ideal T fun s v => s.1 = v where
  init := rfl
  bioWrite := by
    rintro s v data rfl -
    exact ⟨_, rfl, rfl⟩
  handshake_more := by
    rintro ⟨_, out⟩ input rfl hscan
    simp only [ofStream, hscan, and_self]
  handshake_done := by
    rintro ⟨_, out⟩ input rest rfl hscan
    simp only [ofStream, hscan, and_self]
  handshake_failed := by
    rintro ⟨_, out⟩ input rfl hscan
    simp only [ofStream, hscan]
  read_pending := by
    rintro ⟨_, out⟩ input pending rfl hne
    cases pending with
    | nil => exact absurd rfl hne
    | cons b pending =>
      refine ⟨(b :: pending).length, Nat.succ_pos _, Nat.le_refl _, ?_, ?_⟩
      · rw [List.take_length]
        rfl
      · rw [List.drop_length]
        rfl
  read_record := by
    rintro ⟨_, out⟩ input bytes rest rfl hscan
    refine ⟨bytes.length, List.length_pos_iff.mpr (T.plaintext_ne hscan), Nat.le_refl _, ?_, ?_⟩
    · simp only [ofStream, hscan, List.take_length]
    · simp only [ofStream, hscan, List.drop_length]
  read_closeNotify := by
    rintro ⟨_, out⟩ input rest rfl hscan
    simp only [ofStream, hscan, and_self]
  read_more := by
    rintro ⟨_, out⟩ input rfl hscan
    simp only [ofStream, hscan, and_self]
  read_corrupt := by
    rintro ⟨_, out⟩ input rfl hscan
    simp only [ofStream, hscan]
  read_shut := by
    rintro ⟨_, out⟩ rfl
    exact ⟨rfl, rfl⟩
  drain hs := hs
  write := by
    rintro s v data hs - hne
    exact ⟨rfl, hs, List.append_ne_nil_of_right_ne_nil _ hne⟩

end OpenSsl

namespace TlsStream

/-- The handshake is one byte; then 0 is a `close_notify`, 255 is invalid, and any other byte is a
record that carries it. -/
def ofBytes : TlsStream where
  handshake := .single fun b => if b = 22 then some () else none
  starts := rfl
  records := .single fun b =>
    if b = 0 then some .closeNotify else if b = 255 then none else some (.plaintext [b])
  plaintext_ne := by
    rintro (_ | ⟨b, xs⟩) bytes rest h
    · cases h
    · simp only [Splitter.single] at h
      split at h
      · cases h
      · rename_i hrecord
        cases h
        split at hrecord
        · cases hrecord
        · split at hrecord <;> cases hrecord
          exact List.cons_ne_nil b []

end TlsStream

end Tudou
