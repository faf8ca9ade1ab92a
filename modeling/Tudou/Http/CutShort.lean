import Tudou.Http.ServedConnection

/-!
# Responses cut short

A response that is on the stream only in part: the pending file of a connection ends early or `sendfile`
fails (`send_pending_file_in_loop` in `src/tudou/tcp/TcpConnection.cpp`), or the `MemoryBio` path stops
behind the head (`send_memory_bio_file_response` in `src/tudou/http/HttpServer.cpp`).

* `CutsShort` — the steps that do this.
* `CutShortCloses` — from then on the connection is closed, and nothing is written.
* `cut_short_closes` — **so it is in all runs in which no `sendfile` comes to the end of a file early, and
  no `MemoryBio` response lacks a part of its file or of its ciphertext.**
* `cut_short_goes_on` — otherwise the next response follows, with and without TLS.
-/

namespace Tudou

open Transition TcpConnection

/-! ## A socket that takes nothing -/

/-- No write or `sendfile` of the task takes a byte. -/
def Syscalls.TakesNothing (k : Syscalls) : Prop := k.write.count = 0 ∧ k.sendfile.count = 0

instance (k : Syscalls) : Decidable k.TakesNothing := inferInstanceAs (Decidable (_ ∧ _))

section

variable {k : Syscalls} {s s' : Session} {ts : List Task}

theorem wire_sendInLoop_of_zero {msg : Bytes} {r : WriteResult} (h : sendInLoop msg r s = some (s', ts))
    (hr : r.count = 0) : s'.wire = s.wire := by
  rcases sendInLoop_wire h with ⟨hwire, -⟩ | ⟨hwire, -⟩
  · exact hwire
  · rw [hwire, hr, List.take_zero, List.append_nil]

theorem wire_sendPendingFileInLoop_of_zero {r : WriteResult}
    (h : sendPendingFileInLoop r s = some (s', ts)) (hr : r.count = 0) : s'.wire = s.wire := by
  unfold sendPendingFileInLoop at h
  split at h
  · cases h
    rfl
  split at h
  · cases h
  rename_i s₁ ho
  obtain rfl := offer_count_zero ho hr
  split at h
  · split at h <;> cases h <;> rfl
  · split at h <;> cases h <;> rfl

theorem wire_serve_of_zero {r : Request} (h : serve r k s = some (s', ts)) (hk : k.TakesNothing) :
    s'.wire = s.wire := by
  cases r with
  | send msg => exact wire_sendInLoop_of_zero h hk.1
  | sendFile file size offset =>
    simp only [serve, sendFileInLoop] at h
    split at h
    · cases h; rfl
    split at h
    · cases h; rfl
    split at h
    · cases h; rfl
    split at h
    · cases h; rfl
    split at h
    · cases h; rfl
    split at h
    · cases h
    · rename_i s₁ ts₁ hpending
      cases h
      exact (wire_sendPendingFileInLoop_of_zero hpending hk.2).trans rfl
  | sendFileWithHeader header file size offset =>
    simp only [serve, sendFileWithHeaderInLoop] at h
    split at h
    · cases h; rfl
    split at h
    · exact wire_sendInLoop_of_zero h hk.1
    split at h
    · cases h; rfl
    split at h
    · cases h; rfl
    split at h
    · cases h; rfl
    · cases h; rfl
  | forceClose => cases h; rfl
  | receive => cases h; rfl

theorem wire_onWriteFile_of_zero {r : WriteResult} (h : onWriteFile r s = some (s', ts))
    (hr : r.count = 0) : s'.wire = s.wire := by
  unfold onWriteFile at h
  split at h
  · split at h
    · cases h
    · rename_i s₁ ts₁ hpending
      cases h
      exact wire_sendPendingFileInLoop_of_zero hpending hr
  · rcases onWriteRest_ends (Option.some.inj h) with ⟨_, rfl, _⟩ | ⟨_, rfl, _⟩
    · rfl
    · rfl

theorem wire_onWrite_of_zero (h : onWrite k s = some (s', ts)) (hk : k.TakesNothing) :
    s'.wire = s.wire := by
  unfold onWrite at h
  split at h
  · split at h
    · cases h
    rename_i s₁ ho
    obtain rfl := offer_count_zero ho hk.1
    split at h
    · cases h
      rfl
    · simp only at h
      split at h
      · cases h
        rfl
      · exact (wire_onWriteFile_of_zero h hk.2).trans rfl
  · exact wire_onWriteFile_of_zero h hk.2

/-- **Nothing is written** where the socket takes nothing. -/
theorem wire_execTask_of_zero {t : Task} (h : execTask t k s = some (s', ts)) (hk : k.TakesNothing) :
    s'.wire = s.wire := by
  cases t with
  | request r => exact (wire_serve_of_zero h hk).trans rfl
  | handler e =>
    cases e with
    | close => cases h; rfl
    | error => cases h; rfl
    | read =>
      simp only [execTask, handle, onRead] at h
      split at h
      · cases h; rfl
      · split at h
        · cases h
        · cases h; rfl
    | write => exact wire_onWrite_of_zero h hk
  | callback cb =>
    simp only [execTask, invoke] at h
    split at h
    · cases h; rfl
    · split at h
      · cases h
      · cases h; rfl
  | user cb => cases h
  | closeConnection =>
    simp only [execTask, closeConnection] at h
    split at h <;> cases h <;> rfl
  | sendFileRest => cases h; rfl
  | onWriteRest =>
    rcases onWriteRest_ends (Option.some.inj h) with ⟨_, rfl, _⟩ | ⟨_, rfl, _⟩
    · rfl
    · rfl
  | ret => cases h

end

/-- The write side of a closed connection is shut down. -/
def Machine.ShutDown (m : Machine) : Label → Prop
  | .exec k => m.session.conn.isClosed = true → k.TakesNothing
  | .events _ | .dispatch | .call _ | .leave | .ret => True

instance (m : Machine) (l : Label) : Decidable (m.ShutDown l) :=
  match l with
  | .exec k => inferInstanceAs (Decidable (m.session.conn.isClosed = true → k.TakesNothing))
  | .events _ | .dispatch | .call _ | .leave | .ret => inferInstanceAs (Decidable True)

/-- **What is abandoned writes nothing.** -/
theorem Abandoned.wire {m m' : Machine} {l : Label} (h : Abandoned m) (hshut : m.ShutDown l)
    (hs : StepEnds m l m') : m'.session.wire = m.session.wire := by
  cases hs with
  | events | dispatch | call | leave | ret => rfl
  | exec hst he =>
    rcases h with hc | hcl
    · exact wire_execTask_of_zero he (hshut hc)
    · rw [hst] at hcl
      cases hcl with
      | reporting =>
        cases execTask_ends he with
        | body hb _ => cases hb
        | finishing hb _ => cases hb
        | invoked | skipped => rfl
        | closedAlready hb _ => cases hb
        | closed hb _ => cases hb
      | reported => cases he
      | closing =>
        cases execTask_ends he with
        | body hb _ => cases hb
        | finishing hb _ => cases hb
        | invoked hb _ => cases hb
        | skipped hb _ => cases hb
        | closedAlready | closed => rfl

/-! ## Cutting a response short -/

/-- The step calls `sendfile` for the pending file, with this answer. -/
def Machine.sendsFile (m : Machine) (l : Label) : Option WriteResult :=
  match l, m.stack with
  | .exec k, .handler .write :: _ =>
    let buffered := m.session.conn.writeBuffer.readableBytes
    if m.session.conn.hasPendingFile ∧ (buffered = 0 ∨ k.write = .accepted buffered) then some k.sendfile
    else none
  | _, _ => none

theorem onWriteFile_of_fatal {r : WriteResult} {s s' : Session} {ts : List Task}
    (h : onWriteFile r s = some (s', ts)) (hpending : s.conn.hasPendingFile = true) (hr : r.fatal = true) :
    ts = errorPath ++ [.onWriteRest] := by
  obtain ⟨p, hp⟩ := Option.isSome_iff_exists.mp hpending
  unfold onWriteFile at h
  rw [if_pos hpending] at h
  split at h
  · cases h
  rename_i s₁ ts₁ hsend
  obtain ⟨rfl, rfl⟩ := Prod.mk.inj (Option.some.inj h)
  unfold sendPendingFileInLoop at hsend
  simp only [hp] at hsend
  split at hsend
  · cases hsend
  cases r with
  | accepted n => cases hr
  | failed e =>
    have he : e ≠ .eagain := by simpa [WriteResult.fatal] using hr
    simp only [if_neg he] at hsend
    cases hsend
    rfl

theorem onWrite_of_fatal {k : Syscalls} {s s' : Session} {ts : List Task}
    (h : onWrite k s = some (s', ts)) (hpending : s.conn.hasPendingFile = true)
    (hbuffered : s.conn.writeBuffer.readableBytes = 0 ∨ k.write = .accepted s.conn.writeBuffer.readableBytes)
    (hr : k.sendfile.fatal = true) : ts = errorPath ++ [.onWriteRest] := by
  unfold onWrite at h
  split at h
  · rename_i hpos
    have hwrite : k.write = .accepted s.conn.writeBuffer.readableBytes :=
      hbuffered.resolve_left (Nat.pos_iff_ne_zero.mp hpos)
    rw [hwrite] at h
    split at h
    · cases h
    rename_i s₁ ho
    obtain ⟨-, rfl⟩ := offer_some ho
    -- the buffer is drained
    have hdrained : (s.conn.writeBuffer.writeToFd (.accepted s.conn.writeBuffer.readableBytes)).readableBytes =
        0 := by
      rw [Buffer.readableBytes_eq_zero, Buffer.writeToFd_accepted, ← Buffer.length_readable, List.drop_length]
    simp only [Session.modify, hdrained, Nat.lt_irrefl, if_false] at h
    exact onWriteFile_of_fatal h hpending hr
  · exact onWriteFile_of_fatal h hpending hr

/-- **A `sendfile` that fails closes the connection.** -/
theorem abandoned_of_sendfile {m m' : Machine} {l : Label} {r : WriteResult}
    (hsend : m.sendsFile l = some r) (hr : r.fatal = true) (hs : StepEnds m l m') : Abandoned m' := by
  unfold Machine.sendsFile at hsend
  split at hsend
  · rename_i k rest hst
    simp only at hsend
    split at hsend
    · rename_i hcalled
      obtain ⟨hpending, hbuffered⟩ := hcalled
      obtain rfl := Option.some.inj hsend
      cases hs with
      | exec hst' he =>
        rw [hst] at hst'
        obtain ⟨rfl, rfl⟩ := List.cons.inj hst'
        obtain rfl := onWrite_of_fatal he hpending hbuffered hr
        exact .inr .reporting
    · cases hsend
  · cases hsend

namespace ServedConnection

section

variable {P ω τ : Type*} (T : HttpTransport τ)

/-- All of a reply has been handed to the connection: the response it is to, and the TLS state it was
given to. -/
def replied (c : ServedConnection P ω τ) : HttpLabel → Option (HttpResponse × τ)
  | .tcp _ => none
  | .http =>
    match c.machine.stack, c.stage, c.code.phase with
    | .user .message :: _, .running, .reply [] _ => c.replying
    | _, _, _ => none

/-- **The step leaves a response on the stream only in part**: `sendfile` fails or finds no more of the
file, or the reply to the response is at its end and incomplete. -/
def CutsShort (c : ServedConnection P ω τ) : HttpLabel → Prop
  | .tcp l => ∃ r, c.machine.sendsFile l = some r ∧ (r.fatal = true ∨ r = .accepted 0)
  | .http => ∃ response t, c.replied .http = some (response, t) ∧ T.incomplete response t = true

/-- `sendfile` does not come to the end of a file, and a reply at its end had all it needed, unless the
connection is closed. -/
def Supplied (c : ServedConnection P ω τ) : HttpLabel → Prop
  | .tcp l => c.machine.sendsFile l ≠ some (.accepted 0)
  | .http => ∀ response t, c.replied .http = some (response, t) →
    T.supplied response t = true ∨ c.machine.session.conn.isClosed = true

/-- The write side of a closed connection is shut down. -/
def ShutDown (c : ServedConnection P ω τ) : HttpLabel → Prop
  | .tcp l => c.machine.ShutDown l
  | .http => True

instance (c : ServedConnection P ω τ) (l : HttpLabel) : Decidable (c.Supplied T l) :=
  match l with
  | .tcp l => inferInstanceAs (Decidable (c.machine.sendsFile l ≠ some (.accepted 0)))
  | .http =>
    decidable_of_iff (∀ r ∈ c.replied .http,
      T.supplied r.1 r.2 = true ∨ c.machine.session.conn.isClosed = true)
      ⟨fun h response t hr => h (response, t) hr, fun h r hr => h r.1 r.2 hr⟩

instance (c : ServedConnection P ω τ) (l : HttpLabel) : Decidable (c.ShutDown l) :=
  match l with
  | .tcp l => inferInstanceAs (Decidable (c.machine.ShutDown l))
  | .http => inferInstanceAs (Decidable True)

/-- **A response cut short ends the connection**: in every run whose steps meet `G`, from the step that
leaves a response on the stream only in part, the connection is closed or in the middle of it, and nothing
more is written. -/
def CutShortCloses (S : System (ServedConnection P ω τ) HttpLabel)
    (G : ServedConnection P ω τ → HttpLabel → Prop) : Prop :=
  ∀ c l c₁ ls c₂, S.Reaches G c → c.CutsShort T l → G c l → S.step c l = some c₁ →
    S.run c₁ ls = some c₂ → S.Admits G c₁ ls →
    Abandoned c₂.machine ∧ c₂.machine.session.wire = c₁.machine.session.wire

end

variable {P ω τ : Type*} {L : Llhttp P} {handler : HttpHandler ω} {T : HttpTransport τ}

/-- What a step of the server does to the connection. -/
inductive Moves (c c' : ServedConnection P ω τ) (l : HttpLabel) : Prop where
  | tcp {l' : Label} {m : Machine} : l = .tcp l' → StepEnds c.machine l' m → l'.isCall = false →
      c' = { c with machine := m } → Moves c c' l
  /-- A call from a callback, or its return. -/
  | http {l' : Label} : l = .http → StepEnds c.machine l' c'.machine →
      (∀ k, l' ≠ .exec k) → ErrorsQuiet c.machine l' → Moves c c' l
  | stays : l = .http → c'.machine = c.machine → Moves c c' l

theorem step_moves {c c' : ServedConnection P ω τ} {l : HttpLabel} (h : c.step L handler T l = some c') :
    Moves c c' l := by
  cases l with
  | tcp l =>
    cases l with
    | call r => cases h
    | leave => cases h
    | events | dispatch | exec | ret =>
      obtain ⟨m, hm, rfl⟩ := Option.map_eq_some_iff.mp h
      exact .tcp rfl (Machine.step_ends hm) rfl rfl
  | http =>
    have called : ∀ {l' : Label} {f : Machine → ServedConnection P ω τ},
        (c.machine.step l').map f = some c' → (∀ m, (f m).machine = m) → (∀ k, l' ≠ .exec k) →
        ErrorsQuiet c.machine l' → Moves c c' .http := by
      intro l' f hmap hf hexec hq
      obtain ⟨m, hm, rfl⟩ := Option.map_eq_some_iff.mp hmap
      exact .http rfl (by rw [hf]; exact Machine.step_ends hm) hexec hq
    simp only [step] at h
    split at h
    · rename_i rest hst
      have hquiet : ∀ l', ErrorsQuiet c.machine l' := by
        intro l' _ hcall
        rw [hst] at hcall
        cases hcall
      unfold onMessage at h
      split at h
      · exact called h (fun _ => rfl) (fun _ hexec => by cases hexec) (hquiet _)
      · split at h
        · exact called h (fun _ => rfl) (fun _ hexec => by cases hexec) (hquiet _)
        · split at h
          · cases h
          · cases h
            exact .stays rfl rfl
      · exact called h (fun _ => rfl) (fun _ hexec => by cases hexec) (hquiet _)
      · exact called h (fun _ => rfl) (fun _ hexec => by cases hexec) (hquiet _)
      · cases h
        exact .stays rfl rfl
      · split at h
        · exact called h (fun _ => rfl) (fun _ hexec => by cases hexec) (hquiet _)
        · simp only at h
          split at h
          · cases h
            exact .stays rfl rfl
          · exact called h (fun _ => rfl) (fun _ hexec => by cases hexec) (hquiet _)
    · exact called h (fun _ => rfl) (fun _ hexec => by cases hexec) (fun hc => by cases hc)
    · cases h

/-- **Step lemma**: what is abandoned stays so, and writes nothing. -/
theorem abandoned_step {c c' : ServedConnection P ω τ} {l : HttpLabel} (h : Abandoned c.machine)
    (hshut : c.ShutDown l) (hs : c.step L handler T l = some c') :
    Abandoned c'.machine ∧ c'.machine.session.wire = c.machine.session.wire := by
  cases step_moves hs with
  | tcp hl hm hcall hc' =>
    subst hl hc'
    exact ⟨h.step (fun hc => by rw [hcall] at hc; cases hc) hm, h.wire hshut hm⟩
  | http hl hm hexec hq =>
    refine ⟨h.step hq hm, ?_⟩
    generalize c'.machine = m at hm ⊢
    cases hm with
    | exec => exact absurd rfl (hexec _)
    | events | dispatch | call | leave | ret => rfl
  | stays hl hm =>
    rw [hm]
    exact ⟨h, rfl⟩

/-- **Run lemma.** -/
theorem abandoned_run {S : System (ServedConnection P ω τ) HttpLabel}
    {G : ServedConnection P ω τ → HttpLabel → Prop}
    (hS : S.step = ServedConnection.step L handler T) (hG : ∀ c l, G c l → c.ShutDown l)
    {c c' : ServedConnection P ω τ} {ls : List HttpLabel} (h : Abandoned c.machine)
    (hrun : S.run c ls = some c') (hadmits : S.Admits G c ls) :
    Abandoned c'.machine ∧ c'.machine.session.wire = c.machine.session.wire := by
  refine System.run_invariant (S := S) (G := G)
    (I := fun d => Abandoned d.machine ∧ d.machine.session.wire = c.machine.session.wire) ?_ ls ⟨h, rfl⟩
    hrun hadmits
  rintro d l d' ⟨hd, hwire⟩ hg hs
  rw [hS] at hs
  obtain ⟨hd', hwire'⟩ := abandoned_step hd (hG d l hg) hs
  exact ⟨hd', hwire'.trans hwire⟩

/-- A step that cuts a response short abandons the connection, when it had all it needed. -/
theorem abandoned_of_cutsShort {c c' : ServedConnection P ω τ} {l : HttpLabel} (hcut : c.CutsShort T l)
    (hsupplied : c.Supplied T l) (hs : c.step L handler T l = some c') : Abandoned c'.machine := by
  cases step_moves hs with
  | tcp hl hm hcall hc' =>
    subst hl hc'
    obtain ⟨r, hsend, hr | rfl⟩ := hcut
    · exact abandoned_of_sendfile hsend hr hm
    · exact absurd hsend hsupplied
  | http hl hm hexec hq =>
    subst hl
    obtain ⟨response, t, hreplied, hincomplete⟩ := hcut
    rcases hsupplied response t hreplied with hall | hclosed
    · rw [T.complete hall] at hincomplete
      cases hincomplete
    · exact Abandoned.step (.inl hclosed) hq hm
  | stays hl hm =>
    subst hl
    obtain ⟨response, t, hreplied, hincomplete⟩ := hcut
    rcases hsupplied response t hreplied with hall | hclosed
    · rw [T.complete hall] at hincomplete
      cases hincomplete
    · rw [hm]
      exact .inl hclosed

theorem cutShortCloses_of_supplied (L : Llhttp P) (handler : HttpHandler ω) (T : HttpTransport τ)
    (highWaterMark : Nat) (w : ω) (tls : τ) :
    CutShortCloses T (servedConnection L handler T highWaterMark w tls)
      fun c l => c.ShutDown l ∧ c.Supplied T l := by
  intro c l c₁ ls c₂ _ hcut hg hs hrun hadmits
  exact abandoned_run (L := L) rfl (fun _ _ h => h.1) (abandoned_of_cutsShort hcut hg.2 hs) hrun hadmits

/-- **A response cut short ends the connection**, with and without TLS, in all runs in which no `sendfile`
comes to the end of a file, and every reply has the file and the ciphertext it needs. -/
theorem cut_short_closes {S : Type*} (highWaterMark : Nat) (w : ω) :
    (∀ (L : Llhttp P) (handler : HttpHandler ω),
      CutShortCloses plainTransport (servedConnection L handler plainTransport highWaterMark w ())
        fun c l => c.ShutDown l ∧ c.Supplied plainTransport l) ∧
    ∀ (E : HttpsServer P ω S) (fuel : Nat) (tls : ConnectionTls S),
      CutShortCloses (E.transport fuel)
        (servedConnection E.llhttp E.handler (E.transport fuel) highWaterMark w tls)
        fun c l => c.ShutDown l ∧ c.Supplied (E.transport fuel) l :=
  ⟨fun L handler => cutShortCloses_of_supplied L handler plainTransport highWaterMark w (),
    fun E fuel tls => cutShortCloses_of_supplied E.llhttp E.handler (E.transport fuel) highWaterMark w tls⟩

/-! ## A short file -/

/-- Three bytes of a file that has two. -/
def shortFile : HttpResponse := HttpResponse.setFileBody (some ⟨true, true, [1, 2]⟩) 3 0 {}

/-- A request comes in, up to the message callback. -/
def requestArrives (prelude : Bytes) : List HttpLabel :=
  [.tcp (.events { epollin := true }), .tcp .dispatch,
    .tcp (.exec { read := .data (prelude ++ HttpSession.getRequest.map Prod.fst) }),
    .tcp (.exec {}), .http, .tcp (.exec {}), .tcp .ret]

/-- Without TLS: the file goes out as far as it goes, and its end comes. -/
def fileEndsEarly : List HttpLabel :=
  requestArrives [] ++
    [.http, .http, .http, .http, .tcp (.exec {}), .tcp .ret, .http, .http, .http, .tcp .ret,
      .tcp (.events { epollout := true }), .tcp .dispatch,
      .tcp (.exec { write := .accepted shortFile.responseHead.length, sendfile := .accepted 2 }),
      .tcp (.exec {}), .tcp .ret, .tcp (.events { epollout := true }), .tcp .dispatch]

/-- `sendfile` fails instead, and the connection closes. -/
def sendfileFails : List HttpLabel :=
  [.tcp (.exec {}), .tcp (.exec {}), .tcp (.exec {}), .http, .tcp (.exec {}), .tcp .ret]

/-- A `sendfile` that fails behind two bytes of a file: the connection closes, and writes nothing more. -/
theorem cut_short_closes_failedSendfile :
    let S := servedConnection (HttpSession.scripted HttpSession.getRequest) (fun _ w => (shortFile, w))
      plainTransport 65536 () ()
    ∃ c ∈ S.run S.init fileEndsEarly, ∃ c₁ ∈ S.step c (.tcp (.exec { sendfile := .failed (.other 5) })),
      ∃ c₂ ∈ S.run c₁ sendfileFails, c₂.machine.session.conn.isClosed = true ∧
        Abandoned c₂.machine ∧ c₂.machine.session.wire = c₁.machine.session.wire := by
  intro S
  have hbefore : S.Admits (fun c l => c.ShutDown l ∧ c.Supplied plainTransport l) S.init fileEndsEarly := by
    decide +kernel
  obtain ⟨c, hc, hsend, c₁, hs, hadmits, c₂, hrun, hclosed⟩ : ∃ c ∈ S.run S.init fileEndsEarly,
      c.machine.sendsFile (.exec { sendfile := .failed (.other 5) }) = some (.failed (.other 5)) ∧
      ∃ c₁ ∈ S.step c (.tcp (.exec { sendfile := .failed (.other 5) })),
        S.Admits (fun c l => c.ShutDown l ∧ c.Supplied plainTransport l) c₁ sendfileFails ∧
        ∃ c₂ ∈ S.run c₁ sendfileFails, c₂.machine.session.conn.isClosed = true := by
    decide +kernel
  refine ⟨c, hc, c₁, hs, c₂, hrun, hclosed, ?_⟩
  refine (@cut_short_closes _ _ Unit 65536 ()).1 _ _ c (.tcp (.exec { sendfile := .failed (.other 5) })) c₁
    _ c₂ (.of_run _ hc hbefore) ⟨_, hsend, .inl rfl⟩ ⟨fun _ => ⟨rfl, rfl⟩, ?_⟩ hs hrun hadmits
  intro hzero
  rw [hsend] at hzero
  cases hzero

/-- The next request, up to its head and the file. -/
def nextResponse : List HttpLabel :=
  [.tcp (.exec {}), .tcp (.exec {}), .tcp .ret] ++ requestArrives [] ++
    [.http, .http, .http, .http, .tcp (.exec {}), .tcp .ret, .http, .http, .http, .tcp .ret,
      .tcp (.events { epollout := true }), .tcp .dispatch,
      .tcp (.exec { write := .accepted shortFile.responseHead.length, sendfile := .accepted 2 })]

/-- One `send` of a reply, of which the socket takes everything. -/
def sendsAll (n : Nat) : List HttpLabel :=
  [.http, .tcp (.exec { write := .accepted n }), .tcp (.exec {}), .tcp .ret]

/-- With TLS: the head and the two bytes of the file, and its end. -/
def preadEndsEarly : List HttpLabel :=
  requestArrives [22] ++ [.http, .http, .http] ++ sendsAll shortFile.responseHead.length ++ sendsAll 2

/-- The next request, and the head of the response. -/
def nextTlsResponse : List HttpLabel :=
  [.http, .http, .tcp .ret] ++ requestArrives [] ++ [.http, .http, .http] ++
    sendsAll shortFile.responseHead.length

/-- A server that answers with the short file. -/
def servingShortFile : HttpsServer HttpSession.Script Unit (TlsView × Bytes) where
  llhttp := HttpSession.scripted HttpSession.getRequest
  ssl := .ofStream .ofBytes
  handler _ w := (shortFile, w)
  preads _ := some kTlsFileChunkSize
  offload := .refused
  net _ := true
  kernelRead _ chunk := chunk

/-- A run that goes on behind the step that cuts a response short, checked by evaluation. -/
theorem goes_on_of_run {S : System (ServedConnection P ω τ) HttpLabel} {before after : List HttpLabel}
    {l : HttpLabel} {Cut : ServedConnection P ω τ → Prop} (hcut : ∀ c, Cut c → c.CutsShort T l)
    (hbefore : S.Admits (fun c l => c.ShutDown l) S.init before)
    (h : ∃ c ∈ S.run S.init before, Cut c ∧ c.ShutDown l ∧ ∃ c₁ ∈ S.step c l,
      S.Admits (fun c l => c.ShutDown l) c₁ after ∧ ∃ c₂ ∈ S.run c₁ after,
        c₂.machine.session.wire ≠ c₁.machine.session.wire) :
    ¬CutShortCloses T S fun c l => c.ShutDown l := by
  obtain ⟨c, hc, hcuts, hshut, c₁, hs, hadmits, c₂, hrun, hwire⟩ := h
  intro hcloses
  exact hwire (hcloses c l c₁ after c₂ (.of_run before hc hbefore) (hcut c hcuts) hshut hs hrun hadmits).2

/-- **Behind a file that is too short the next response follows**, with and without TLS. -/
theorem cut_short_goes_on :
    ¬CutShortCloses plainTransport (servedConnection (HttpSession.scripted HttpSession.getRequest)
        (fun _ w => (shortFile, w)) plainTransport 65536 () ()) (fun c l => c.ShutDown l) ∧
      ¬CutShortCloses (servingShortFile.transport 100) (servedConnection servingShortFile.llhttp
        servingShortFile.handler (servingShortFile.transport 100) 65536 ()
        (.create servingShortFile.ssl .memoryBio)) fun c l => c.ShutDown l := by
  constructor
  · refine @goes_on_of_run _ _ _ _ _ fileEndsEarly nextResponse (.tcp (.exec { sendfile := .accepted 0 }))
      (fun c => c.machine.sendsFile (.exec { sendfile := .accepted 0 }) = some (.accepted 0)) ?_ ?_ ?_
    · exact fun c hsend => ⟨_, hsend, .inr rfl⟩
    · decide +kernel
    · decide +kernel
  · refine @goes_on_of_run _ _ _ _ _ preadEndsEarly nextTlsResponse .http
      (fun c => ∃ r ∈ c.replied .http, servingShortFile.incomplete r.1 r.2 = true) ?_ ?_ ?_
    · exact fun c ⟨⟨response, t⟩, hreplied, hincomplete⟩ => ⟨response, t, hreplied, hincomplete⟩
    · decide +kernel
    · decide +kernel

end ServedConnection

end Tudou
