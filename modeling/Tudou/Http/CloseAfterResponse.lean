import Tudou.Http.PipelinedResponses
import Tudou.Tcp.Silence

/-!
# Closing behind a response

`send_http_response` (`src/tudou/http/HttpServer.cpp`) calls `force_close` right behind the call that
sends a response whose close flag is set, and `close_connection` shuts the write side down at once.

* `Answering` — such a response is about to be sent.
* `Departing`, `Departing.step` — from then on only the close is left to come, and nothing is written.
* `delivered_iff` — **the socket has taken the whole response when the connection closes exactly when
  nothing but memory was to be sent, and one call took all of it.**
-/

namespace Tudou

open Transition TcpConnection

/-- The call that sends a response. -/
def HttpResponse.delivery (r : HttpResponse) : Request :=
  r.withContentLength.sendPlainResponse r.responseHead

theorem HttpResponse.sendHttpResponse_of_close {r : HttpResponse} (h : r.closeConnection = true) :
    r.sendHttpResponse = [r.delivery, .forceClose] := by
  simp only [sendHttpResponse, withContentLength_closeConnection, h, if_true]
  rfl

/-- The response is in memory, no file waits in front of it, and the socket takes everything offered. -/
structure HttpResponse.TakenAtOnce (r : HttpResponse) (c : TcpConnection) (write : WriteResult) : Prop where
  noFilePending : c.pendingFile = none
  inMemory : r.validFile = none ∨ r.fileBody.size = 0
  all : write = .accepted (c.writeBuffer.readableBytes + r.responseHead.length)

/-! ## The call that sends -/

/-- What can be left of a call that sends. -/
def Leftover (ts : List Task) : Prop :=
  ts = [] ∨ (∃ cb, httpCallbacks cb = false ∧ ts = [.callback cb]) ∨ ts = errorPath

/-- A backlog and a message are offered together. -/
theorem wire_sendInLoop {msg : Bytes} {r : WriteResult} {s s' : Session} {ts : List Task}
    (h : sendInLoop msg r s = some (s', ts)) (hopen : s.conn.isClosed = false)
    (hp : s.conn.pendingFile = none) (hi : WriteInterest s.conn) :
    s'.wire = s.wire ++ (s.conn.writeBuffer.readable ++ msg).take r.count ∧
      r.count ≤ (s.conn.writeBuffer.readable ++ msg).length := by
  refine (sendInLoop_wire h).resolve_left ?_
  rintro ⟨-, hclosed | hfile | ⟨hzero, hwriting⟩⟩
  · rw [hopen] at hclosed
    cases hclosed
  · rw [hasPendingFile_eq_false.mpr hp] at hfile
    cases hfile
  · -- interest without a backlog: no such state
    rcases hi.mp hwriting with hpos | hfile
    · omega
    · rw [hasPendingFile_eq_false.mpr hp] at hfile
      cases hfile

/-- What `send` of the head of a response does. -/
theorem sendInLoop_head {r : HttpResponse} {w : WriteResult} {s s' : Session} {ts : List Task}
    (h : sendInLoop r.responseHead w s = some (s', ts)) (hopen : s.conn.isClosed = false)
    (hi : WriteInterest s.conn) (hw : w.fatal = false) :
    Leftover ts ∧ (s'.wire = s.wire ++ s.conn.unsent ++ r.responseHead ↔
      s.conn.pendingFile = none ∧
        w = .accepted (s.conn.writeBuffer.readableBytes + r.responseHead.length)) := by
  have hhead := List.length_pos_iff.mpr r.responseHead_ne_nil
  by_cases hp : s.conn.pendingFile = none
  · obtain ⟨hwire, hle⟩ := wire_sendInLoop h hopen hp hi
    have htotal : (s.conn.writeBuffer.readable ++ r.responseHead).length =
        s.conn.writeBuffer.readableBytes + r.responseHead.length := by
      rw [List.length_append, Buffer.length_readable]
    refine ⟨?_, ?_⟩
    · rcases (sendInLoop_unhurt h hopen hp hw).tasks with rfl | ⟨t, ht, rfl⟩
      · exact .inl rfl
      · rcases List.mem_pair.mp ht with rfl | rfl
        · exact .inr (.inl ⟨_, rfl, rfl⟩)
        · exact .inr (.inl ⟨_, rfl, rfl⟩)
    · have hcount : w = .accepted (s.conn.writeBuffer.readableBytes + r.responseHead.length) ↔
          w.count = (s.conn.writeBuffer.readable ++ r.responseHead).length := by
        rw [htotal]
        cases w with
        | accepted n => simp [WriteResult.count]
        | failed e =>
          simp only [WriteResult.count, reduceCtorEq, false_iff]
          omega
      rw [hcount, hwire, List.append_assoc, List.append_cancel_left_eq, unsent_of_none hp, and_iff_right hp]
      constructor
      · intro htake
        have hlen := congrArg List.length htake
        rw [List.length_take] at hlen
        omega
      · intro hall
        rw [hall, List.take_length]
  · obtain ⟨p, hp'⟩ := Option.ne_none_iff_exists'.mp hp
    simp only [sendInLoop, hopen, hasPendingFile_of_some hp', Bool.false_eq_true, if_false, if_true] at h
    obtain ⟨rfl, rfl⟩ := Prod.mk.inj (Option.some.inj h)
    refine ⟨.inr (.inr rfl), iff_of_false ?_ fun hnone => hp hnone.1⟩
    rw [List.append_assoc, List.self_eq_append_right, List.append_eq_nil_iff]
    exact fun hnil => r.responseHead_ne_nil hnil.2

/-- A file body is only registered, whatever the socket could take. -/
theorem sendFileWithHeaderInLoop_registers {header : Bytes} {file : ScopedFd} {size offset : Nat}
    {w : WriteResult} {s s' : Session} {ts : List Task}
    (h : sendFileWithHeaderInLoop header file size offset w s = some (s', ts))
    (hopen : s.conn.isClosed = false) (hsize : size ≠ 0) : Leftover ts ∧ s'.wire = s.wire := by
  unfold sendFileWithHeaderInLoop at h
  rw [if_neg (by rw [hopen]; exact nofun), if_neg hsize] at h
  split at h
  · obtain ⟨rfl, rfl⟩ := Prod.mk.inj (Option.some.inj h)
    exact ⟨.inr (.inr rfl), rfl⟩
  split at h
  · obtain ⟨rfl, rfl⟩ := Prod.mk.inj (Option.some.inj h)
    exact ⟨.inr (.inr rfl), rfl⟩
  split at h
  · obtain ⟨rfl, rfl⟩ := Prod.mk.inj (Option.some.inj h)
    exact ⟨.inr (.inr rfl), rfl⟩
  obtain ⟨rfl, rfl⟩ := Prod.mk.inj (Option.some.inj h)
  refine ⟨(ite_eq_or_eq _ _ _).symm.imp id fun hmark => .inl ⟨_, rfl, hmark⟩, rfl⟩

/-- **The call that sends a response**, on a socket without errors. -/
theorem serve_delivery {r : HttpResponse} {k : Syscalls} {s s' : Session} {ts : List Task}
    (h : serve r.delivery k s = some (s', ts)) (hopen : s.conn.isClosed = false)
    (hi : WriteInterest s.conn) (hk : k.write.fatal = false) :
    Leftover ts ∧ (s'.wire = s.wire ++ s.conn.unsent ++ r.serialised ↔ r.TakenAtOnce s.conn k.write) := by
  have htaken : r.TakenAtOnce s.conn k.write ↔
      (r.validFile = none ∨ r.fileBody.size = 0) ∧ s.conn.pendingFile = none ∧
        k.write = .accepted (s.conn.writeBuffer.readableBytes + r.responseHead.length) :=
    ⟨fun h => ⟨h.inMemory, h.noFilePending, h.all⟩, fun h => ⟨h.2.1, h.1, h.2.2⟩⟩
  rw [htaken]
  simp only [HttpResponse.delivery, HttpResponse.sendPlainResponse, HttpResponse.withContentLength_validFile,
    HttpResponse.withContentLength_fileBody] at h
  simp only [HttpResponse.serialised, HttpResponse.fileSegment]
  cases hfile : r.validFile with
  | none =>
    rw [hfile] at h
    obtain ⟨hleft, hiff⟩ := sendInLoop_head h hopen hi hk
    rw [List.append_nil]
    exact ⟨hleft, hiff.trans (and_iff_right (.inl rfl)).symm⟩
  | some file =>
    rw [hfile] at h
    have h : sendFileWithHeaderInLoop r.responseHead file r.fileBody.size r.fileBody.offset k.write s =
        some (s', ts) := h
    by_cases hsize : r.fileBody.size = 0
    · have hhead : sendInLoop r.responseHead k.write s = some (s', ts) := by
        unfold sendFileWithHeaderInLoop at h
        rwa [if_neg (by rw [hopen]; exact Bool.false_ne_true), if_pos hsize] at h
      obtain ⟨hleft, hiff⟩ := sendInLoop_head hhead hopen hi hk
      have hsegment : file.segment r.fileBody.size r.fileBody.offset = [] := by
        rw [hsize]
        exact List.take_zero
      simp only [hsegment, List.append_nil]
      exact ⟨hleft, hiff.trans (and_iff_right (.inr hsize)).symm⟩
    · obtain ⟨hleft, hwire⟩ := sendFileWithHeaderInLoop_registers h hopen hsize
      refine ⟨hleft, iff_of_false ?_ ?_⟩
      · rw [hwire, List.append_assoc, List.self_eq_append_right]
        simp [r.responseHead_ne_nil]
      · rintro ⟨hnone | hzero, -⟩
        · cases hnone
        · exact hsize hzero

/-! ## Up to the close -/

/-- The reply has been handed over, `todo` of it is left, and nothing can be written any more. -/
inductive Departing : List Task → List Request → Prop where
  | report {cb : Callback} {below : List Task} : httpCallbacks cb = false →
      Departing (.callback cb :: .ret :: .user .message :: below) [.forceClose]
  | failing {below : List Task} {todo : List Request} :
      Departing (.callback .error :: .closeConnection :: .ret :: .user .message :: below) todo
  | failed {below : List Task} {todo : List Request} :
      Departing (.closeConnection :: .ret :: .user .message :: below) todo
  | handed {below : List Task} : Departing (.ret :: .user .message :: below) [.forceClose]
  | returned {below : List Task} : Departing (.user .message :: below) [.forceClose]
  | closing {below : List Task} : Departing (.request .forceClose :: .ret :: .user .message :: below) []

theorem Departing.of_leftover {ts below : List Task} (h : Leftover ts) :
    Departing (ts ++ .ret :: .user .message :: below) [.forceClose] := by
  rcases h with rfl | ⟨cb, hcb, rfl⟩ | rfl
  · exact .handed
  · exact .report hcb
  · exact .failing

/-- What the task on top does. -/
theorem Departing.exec {t : Task} {rest : List Task} {todo : List Request} {k : Syscalls} {s s' : Session}
    {ts : List Task} (h : Departing (t :: rest) todo) (hreg : s.conn.registered = httpCallbacks)
    (he : execTask t k s = some (s', ts)) :
    s'.wire = s.wire ∧ (Departing (ts ++ rest) todo ∨ s'.conn.isClosed = true) := by
  have skipped : ∀ {cb : Callback}, httpCallbacks cb = false → cb ≠ .message →
      execTask (.callback cb) k s = some (s, []) := by
    intro cb hcb hne
    simp only [execTask, invoke, hreg, hcb, Bool.false_eq_true, if_false, if_neg hne]
  cases h with
  | report hcb =>
    rw [skipped hcb (by rintro rfl; cases hcb)] at he
    cases he
    exact ⟨rfl, .inl .handed⟩
  | failing =>
    rw [@skipped .error rfl (by decide)] at he
    cases he
    exact ⟨rfl, .inl .failed⟩
  | failed =>
    simp only [execTask, closeConnection] at he
    split at he
    · rename_i hc
      cases he
      exact ⟨rfl, .inr hc⟩
    · cases he
      exact ⟨rfl, .inr rfl⟩
  | handed => cases he
  | returned => cases he
  | closing =>
    cases he
    exact ⟨rfl, .inl .failed⟩

namespace PlainHttp

variable {P ω : Type*} {L : Llhttp P} {handler : HttpHandler ω} {highWaterMark : Nat} {w : ω}

/-- A step of the connection and its server is one of the connection, or none; what the connection is
asked for comes from the message callback. -/
theorem step_machine {c c' : PlainHttp P ω} {l : HttpLabel} (h : c.step L handler l = some c') :
    c'.machine = c.machine ∨ ∃ l', ErrorsQuiet c.machine l' ∧ c.machine.step l' = some c'.machine := by
  have moved : ∀ {l' : Label} {f : Machine → PlainHttp P ω}, (∀ m, (f m).machine = m) →
      ErrorsQuiet c.machine l' → (c.machine.step l').map f = some c' →
      c'.machine = c.machine ∨ ∃ l', ErrorsQuiet c.machine l' ∧ c.machine.step l' = some c'.machine := by
    intro l' f hf hq hmap
    obtain ⟨m, hm, rfl⟩ := Option.map_eq_some_iff.mp hmap
    exact .inr ⟨l', hq, by rw [hf]; exact hm⟩
  cases l with
  | tcp l =>
    obtain ⟨m, hm, rfl, hcall, -⟩ := tcp_ends h
    refine .inr ⟨l, fun hc => ?_, hm⟩
    rw [hcall] at hc
    cases hc
  | http =>
    simp only [PlainHttp.step] at h
    split at h
    · rename_i rest hst
      have hquiet : ∀ l', ErrorsQuiet c.machine l' := by
        intro l' _ hcall
        rw [hst] at hcall
        cases hcall
      unfold onMessage at h
      split at h
      · exact moved (fun _ => rfl) (hquiet _) h
      · split at h
        · exact moved (fun _ => rfl) (hquiet _) h
        · cases h
          exact .inl rfl
      · split at h
        · exact moved (fun _ => rfl) (hquiet _) h
        · simp only at h
          split at h
          · cases h
            exact .inl rfl
          · exact moved (fun _ => rfl) (hquiet _) h
    · exact moved (fun _ => rfl) (fun hc => by cases hc) h
    · cases h

/-- The connection's own run, and its callbacks. -/
theorem reaches_machine {c : PlainHttp P ω} (h : (plainHttp L handler highWaterMark w).Reachable c) :
    (connection httpCallbacks highWaterMark).Reaches ErrorsQuiet c.machine ∧
      c.machine.session.conn.registered = httpCallbacks := by
  refine h.invariant (I := fun c => (connection httpCallbacks highWaterMark).Reaches ErrorsQuiet c.machine ∧
    c.machine.session.conn.registered = httpCallbacks) ⟨.init, rfl⟩ ?_
  rintro c l c' ⟨hreach, hreg⟩ - hs
  rcases step_machine hs with heq | ⟨l', hq, hm⟩
  · rw [heq]
    exact ⟨hreach, hreg⟩
  · refine ⟨hreach.step hq hm, ?_⟩
    generalize c'.machine = m at hm ⊢
    cases Machine.step_ends hm with
    | exec _ he => exact (execTask_ends he).registered.trans hreg
    | events | dispatch | call | leave | ret => exact hreg

/-- What is closed stays closed. -/
theorem step_isClosed {c c' : PlainHttp P ω} {l : HttpLabel} (h : c.step L handler l = some c')
    (hc : c.machine.session.conn.isClosed = true) : c'.machine.session.conn.isClosed = true := by
  rcases step_machine h with heq | ⟨l', -, hm⟩
  · rw [heq]
    exact hc
  · generalize c'.machine = m at hm ⊢
    cases Machine.step_ends hm with
    | exec _ he => exact (execTask_ends he).isClosed hc
    | events | dispatch | call | leave | ret => exact hc

/-- The response `r`, whose close flag is set, is about to be sent. -/
structure Answering (r : HttpResponse) (c : PlainHttp P ω) : Prop where
  closes : r.closeConnection = true
  stage : c.stage = .running
  phase : ∃ rest, c.code.phase = .reply r.sendHttpResponse rest
  stack : ∃ below, c.machine.stack = .user .message :: below
  isOpen : c.machine.session.conn.isClosed = false

/-- The reply is on its way out. -/
structure Leaving (c : PlainHttp P ω) : Prop where
  stage : c.stage = .running
  departing : ∃ todo rest, c.code.phase = .reply todo rest ∧ Departing c.machine.stack todo
  registered : c.machine.session.conn.registered = httpCallbacks

/-- **Step lemma**: nothing is written on the way out. -/
theorem Leaving.step {c c' : PlainHttp P ω} {l : HttpLabel} (h : c.Leaving)
    (hs : c.step L handler l = some c') :
    c'.machine.session.wire = c.machine.session.wire ∧
      (c'.Leaving ∨ c'.machine.session.conn.isClosed = true) := by
  obtain ⟨hstage, ⟨todo, rest, hphase, hdeparting⟩, hreg⟩ := h
  cases l with
  | tcp l =>
    obtain ⟨m, hm, rfl, hcall, hleave⟩ := tcp_ends hs
    cases Machine.step_ends hm with
    | events hnil _ | dispatch hnil _ => rw [hnil] at hdeparting; cases hdeparting
    | call _ => cases hcall
    | leave _ => exact absurd rfl hleave
    | exec hst he =>
      rw [hst] at hdeparting
      obtain ⟨hwire, hdeparting | hclosed⟩ := hdeparting.exec hreg he
      · exact ⟨hwire, .inl ⟨hstage, ⟨todo, rest, hphase, hdeparting⟩,
          (execTask_ends he).registered.trans hreg⟩⟩
      · exact ⟨hwire, .inr hclosed⟩
    | ret hst =>
      rw [hst] at hdeparting
      cases hdeparting
      exact ⟨rfl, .inl ⟨hstage, ⟨_, rest, hphase, .returned⟩, hreg⟩⟩
  | http =>
    obtain ⟨⟨session, stack, handlers⟩, hasState, stage, code, received⟩ := c
    obtain rfl : stage = .running := hstage
    simp only at hphase hdeparting hreg
    cases hdeparting with
    | returned =>
      simp only [PlainHttp.step, onMessage, OnMessage.advance, hphase, HttpPhase.reply_ne_done, if_false] at hs
      obtain ⟨m, hm, rfl⟩ := Option.map_eq_some_iff.mp hs
      cases hm
      exact ⟨rfl, .inl ⟨rfl, ⟨_, rest, rfl, .closing⟩, hreg⟩⟩
    | report | failing | failed | handed | closing => cases hs

/-- Nothing is written up to the close. -/
theorem Leaving.run {c c₁ c₂ : PlainHttp P ω} {ls : List HttpLabel} {l : HttpLabel} (h : c.Leaving)
    (hrun : (plainHttp L handler highWaterMark w).run c ls = some c₁)
    (hopen : c₁.machine.session.conn.isClosed = false) (hs : c₁.step L handler l = some c₂) :
    c₂.machine.session.wire = c.machine.session.wire := by
  have hend : c₁.machine.session.conn.isClosed = true ∨
      c₁.Leaving ∧ c₁.machine.session.wire = c.machine.session.wire := by
    refine System.run_invariant (S := plainHttp L handler highWaterMark w) (G := fun _ _ => True)
      (I := fun d => d.machine.session.conn.isClosed = true ∨
        d.Leaving ∧ d.machine.session.wire = c.machine.session.wire) ?_ ls (.inr ⟨h, rfl⟩) hrun
      (System.admits_true c ls)
    rintro d l d' (hclosed | ⟨hleaving, hwire⟩) - hstep
    · exact .inl (step_isClosed hstep hclosed)
    · obtain ⟨hwire', hnext⟩ := hleaving.step hstep
      exact hnext.symm.imp id fun hnext => ⟨hnext, hwire'.trans hwire⟩
  rcases hend with hclosed | ⟨hleaving, hwire⟩
  · rw [hopen] at hclosed
    cases hclosed
  · exact (hleaving.step hs).1.trans hwire

/-- The first write of a run. -/
def firstWrite (ls : List HttpLabel) : Option WriteResult :=
  ls.findSome? fun
    | .tcp (.exec k) => some k.write
    | _ => none

/-- From `c` on the server sends `r`, whose close flag is set, on a socket without errors, and the last
step of the run closes the connection. -/
structure ClosesBehind (L : Llhttp P) (handler : HttpHandler ω) (highWaterMark : Nat) (w : ω)
    (r : HttpResponse) (c c' : PlainHttp P ω) (ls : List HttpLabel) : Prop where
  reachable : (plainHttp L handler highWaterMark w).Reachable c
  answering : c.Answering r
  faultless : ∀ l ∈ ls, Faultless l
  closes : ∃ ls₁ l c₁, ls = ls₁ ++ [l] ∧ (plainHttp L handler highWaterMark w).run c ls₁ = some c₁ ∧
    c₁.machine.session.conn.isClosed = false ∧ c₁.step L handler l = some c' ∧
    c'.machine.session.conn.isClosed = true

/-- The socket has taken what was left of earlier responses, and all of `r`. -/
def Delivered (r : HttpResponse) (c c' : PlainHttp P ω) : Prop :=
  c'.machine.session.wire = c.machine.session.wire ++ c.machine.session.conn.unsent ++ r.serialised

/-- The answer begins with the call that sends. -/
theorem Answering.call {r : HttpResponse} {c c' : PlainHttp P ω} {l : HttpLabel} (h : c.Answering r)
    (hs : c.step L handler l = some c') :
    l = .http ∧ c'.stage = .running ∧ c'.machine.session = c.machine.session ∧
      c'.machine.stack = .request r.delivery :: .ret :: c.machine.stack ∧
      ∃ rest, c'.code.phase = .reply [.forceClose] rest := by
  obtain ⟨⟨session, stack, handlers⟩, hasState, stage, code, received⟩ := c
  obtain ⟨hcloses, rfl, ⟨rest, hphase⟩, ⟨below, rfl⟩, hopen⟩ := h
  rw [HttpResponse.sendHttpResponse_of_close hcloses] at hphase
  simp only at hphase
  cases l with
  | tcp l =>
    cases l with
    | events | dispatch | call | exec | leave | ret => cases hs
  | http =>
    simp only [PlainHttp.step, onMessage, OnMessage.advance, hphase, HttpPhase.reply_ne_done, if_false] at hs
    obtain ⟨m, hm, rfl⟩ := Option.map_eq_some_iff.mp hs
    cases hm
    exact ⟨rfl, rfl, rfl, rfl, rest, rfl⟩

/-- Where a task is on top that is no callback's, the connection runs it. -/
theorem exec_of_request {c c' : PlainHttp P ω} {l : HttpLabel} {r : Request} {rest : List Task}
    (hst : c.machine.stack = .request r :: rest) (hs : c.step L handler l = some c') :
    ∃ k s ts, l = .tcp (.exec k) ∧ execTask (.request r) k c.machine.session = some (s, ts) ∧
      c'.machine.session = s ∧ c'.machine.stack = ts ++ rest ∧ c'.stage = c.stage ∧ c'.code = c.code := by
  obtain ⟨⟨session, stack, handlers⟩, hasState, stage, code, received⟩ := c
  obtain rfl : stack = .request r :: rest := hst
  cases l with
  | http => cases hs
  | tcp l =>
    cases l with
    | events | dispatch | call | leave | ret => cases hs
    | exec k =>
      obtain ⟨m, hm, rfl⟩ := Option.map_eq_some_iff.mp hs
      generalize hst : (⟨session, .request r :: rest, handlers⟩ : Machine) = m₀ at hm
      cases Machine.step_ends hm with
      | exec hst' he =>
        subst hst
        obtain ⟨rfl, rfl⟩ := List.cons.inj hst'
        exact ⟨k, _, _, rfl, he, rfl, rfl, rfl, rfl⟩

/-- **Close behind a response**: when the connection closes, the socket has taken the whole response
exactly when no file was pending, the body was in memory, and the one write took the backlog and the
response. -/
theorem delivered_iff {r : HttpResponse} {c c' : PlainHttp P ω} {ls : List HttpLabel}
    (h : ClosesBehind L handler highWaterMark w r c c' ls) :
    Delivered r c c' ↔ ∃ write, firstWrite ls = some write ∧
      r.TakenAtOnce c.machine.session.conn write := by
  obtain ⟨hreach, hanswering, hfaultless, ls₁, l, c₁, rfl, hrun, hopen, hs, hclosed⟩ := h
  obtain ⟨hmachine, hreg⟩ := reaches_machine hreach
  have hstop := hanswering.isOpen
  obtain ⟨below, hstack⟩ := hanswering.stack
  have hinterest : WriteInterest c.machine.session.conn := by
    rcases interested_of_reaches hmachine with (hc | hcl) | hin
    · rw [hstop] at hc
      cases hc
    · rw [hstack] at hcl
      cases hcl
    · exact hin.writeInterest hstack nofun
  -- the call comes first, and leaves the connection open
  cases ls₁ with
  | nil =>
    cases hrun
    obtain ⟨-, -, hsession, -⟩ := hanswering.call hs
    rw [hsession, hstop] at hclosed
    cases hclosed
  | cons l₀ ls₁ =>
    simp only [System.run] at hrun
    split at hrun
    · cases hrun
    rename_i c₀ hs₀
    obtain ⟨rfl, hstage, hsession, hst, rest, hphase⟩ := hanswering.call hs₀
    -- then its task, which is the only one that writes
    have hexec : ∀ {l₁ : HttpLabel} {d : PlainHttp P ω}, Faultless l₁ →
        c₀.step L handler l₁ = some d → ∃ k, l₁ = .tcp (.exec k) ∧ d.Leaving ∧
          d.machine.session.conn.isClosed = false ∧
          (Delivered r c d ↔ r.TakenAtOnce c.machine.session.conn k.write) := by
      intro l₁ d hl hd
      obtain ⟨k, s, ts, rfl, he, rfl, hstack', hstage', hcode⟩ := exec_of_request hst hd
      rw [hsession] at he
      obtain ⟨hleft, hiff⟩ := serve_delivery he hstop hinterest hl.write
      refine ⟨k, rfl, ⟨hstage'.trans hstage, ⟨_, rest, by rw [hcode]; exact hphase, ?_⟩, ?_⟩, ?_, hiff⟩
      · rw [hstack', hstack]
        exact .of_leftover hleft
      · exact (execTask_ends he).registered.trans hreg
      · exact (frame_of_body he rfl).isClosed.trans hstop
    cases ls₁ with
    | nil =>
      cases hrun
      obtain ⟨k, -, -, hopen', -⟩ := hexec (hfaultless l (by simp)) hs
      rw [hopen'] at hclosed
      cases hclosed
    | cons l₁ ls₁ =>
      simp only [System.run] at hrun
      split at hrun
      · cases hrun
      rename_i d hd
      obtain ⟨k, rfl, hleaving, -, hiff⟩ := hexec (hfaultless l₁ (by simp)) hd
      have hwire := hleaving.run hrun hopen hs
      have hfirst : firstWrite (.http :: .tcp (.exec k) :: ls₁ ++ [l]) = some k.write := rfl
      rw [hfirst]
      simp only [Option.some.injEq, exists_eq_left', ← hiff, Delivered, hwire]

instance (r : HttpResponse) (c c' : PlainHttp P ω) : Decidable (Delivered r c c') :=
  inferInstanceAs (Decidable (_ = _))

/-- A request comes in, and the answer is ready to be sent. -/
def oneRequest : List HttpLabel :=
  [.tcp (.events { epollin := true }), .tcp .dispatch,
    .tcp (.exec { read := .data (HttpSession.getRequest.map Prod.fst) }),
    .tcp (.exec {}), .http, .tcp (.exec {}), .tcp .ret, .http, .http]

/-- A server that gives one answer to everything. -/
abbrev alwaysAnswers (r : HttpResponse) : System (PlainHttp HttpSession.Script Unit) HttpLabel :=
  plainHttp (HttpSession.scripted HttpSession.getRequest) (fun _ w => (r, w)) 65536 ()

/-- A run up to the close, checked by evaluation. -/
theorem closesBehind_of_run {r : HttpResponse} {ls : List HttpLabel} {l : HttpLabel}
    {Q : PlainHttp HttpSession.Script Unit → PlainHttp HttpSession.Script Unit → Prop}
    (hcloses : r.closeConnection = true) (hfaultless : ∀ l' ∈ ls ++ [l], Faultless l')
    (h : ∃ c ∈ (alwaysAnswers r).run (alwaysAnswers r).init oneRequest,
      (c.stage = .running ∧ c.code.phase = .reply r.sendHttpResponse (some []) ∧
        c.machine.stack = [.user .message, .ret] ∧ c.machine.session.conn.isClosed = false) ∧
      ∃ c₁ ∈ (alwaysAnswers r).run c ls, c₁.machine.session.conn.isClosed = false ∧
        ∃ c' ∈ (alwaysAnswers r).step c₁ l, c'.machine.session.conn.isClosed = true ∧ Q c c') :
    ∃ c c', ClosesBehind (HttpSession.scripted HttpSession.getRequest) (fun _ w => (r, w)) 65536 () r c c'
      (ls ++ [l]) ∧ Q c c' := by
  obtain ⟨c, hc, ⟨hstage, hphase, hst, hstop⟩, c₁, hrun, hopen, c', hs, hclosed, hQ⟩ := h
  exact ⟨c, c', ⟨.of_run oneRequest hc, ⟨hcloses, hstage, ⟨_, hphase⟩, ⟨_, hst⟩, hstop⟩, hfaultless,
    ls, l, c₁, rfl, hrun, hopen, hs, hclosed⟩, hQ⟩

/-- Two bytes of text, and then the connection is to be closed. -/
def closingText : HttpResponse := .plainText 200 (.ofLiteral "OK") (.ofLiteral "ok")

/-- The client receives the whole answer when the socket takes it at once. -/
theorem delivered_iff_closingText : ∃ c c' : PlainHttp HttpSession.Script Unit, Delivered closingText c c' := by
  obtain ⟨c, c', h, hfile, hbuffer⟩ := @closesBehind_of_run closingText
    [.http, .tcp (.exec { write := .accepted closingText.responseHead.length }), .tcp (.exec {}), .tcp .ret,
      .http, .tcp (.exec {})] (.tcp (.exec {}))
    (fun c _ => c.machine.session.conn.pendingFile = none ∧
      c.machine.session.conn.writeBuffer.readableBytes = 0)
    rfl (by decide +kernel) (by decide +kernel)
  refine ⟨c, c', (delivered_iff h).mpr ⟨_, rfl, hfile, .inl rfl, ?_⟩⟩
  rw [hbuffer, Nat.zero_add]

/-- Three bytes of a file, and then the connection is to be closed. -/
def closingFile : HttpResponse := { fileResponse with closeConnection := true }

/-- **A file is never sent when the connection closes behind it**, and neither is its header. -/
theorem closing_file_lost :
    ¬ ∀ (r : HttpResponse) (c c' : PlainHttp HttpSession.Script Unit) (ls : List HttpLabel),
      ClosesBehind (HttpSession.scripted HttpSession.getRequest) (fun _ w => (r, w)) 65536 () r c c' ls →
        Delivered r c c' := by
  intro hall
  obtain ⟨c, c', h, hlost⟩ := @closesBehind_of_run closingFile
    [.http, .tcp (.exec {}), .tcp .ret, .http, .tcp (.exec {})] (.tcp (.exec {}))
    (fun c c' => ¬Delivered closingFile c c') rfl (by decide +kernel) (by decide +kernel)
  exact hlost (hall closingFile c c' _ h)

end PlainHttp

end Tudou
