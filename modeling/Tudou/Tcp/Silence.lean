import Tudou.Tcp.Bodies

/-!
# After the close callback

`close_connection` sets `isClosed_` before it invokes the close callback, and every request checks
the flag.  The event handlers do not: the handlers a dispatch has left run on the closed
connection too.

* `Handler.quiet` — a handler run on a closed connection reaches no callback that is set.
* `silent_after_close` — **in every run whose handlers are quiet on a closed connection, the close
  callback is the last one invoked**, and is invoked once.
* `callback_after_close` — without the condition it is not: a reset after an end of file, in one
  dispatch, reports an error on the closed connection.
-/

namespace Tudou

open Transition TcpConnection

/-- The close callback is the last one, and so invoked at most once. -/
def SilentAfterClose (trace : List Callback) : Prop :=
  ∀ pre post, trace = pre ++ .close :: post → post = []

/-! ## Handlers on a closed connection -/

/-- `errno` of a failed call leads to no callback that is set. -/
def Errno.quiet (e : Errno) (c : TcpConnection) : Bool := e == .eagain || !c.registered .error

/-- The part of `on_write` after the write buffer is drained reaches no callback that is set. -/
def TcpConnection.quietFile (c : TcpConnection) (r : WriteResult) : Bool :=
  match c.pendingFile, r with
  | none, _ => !c.registered .writeComplete
  | some _, .failed e => e.quiet c
  | some p, .accepted n => (n != 0 && n < p.remaining) || !c.registered .writeComplete

/-- The handler reaches no callback that is set, on a closed connection. -/
def Handler.quiet (c : TcpConnection) (k : Syscalls) : Handler → Bool
  | .close => true
  | .error => !c.registered .error
  | .read =>
    match k.read with
    | .failed e => e.quiet c
    | .data bytes => bytes == [] || !c.registered .message
  | .write =>
    if 0 < c.writeBuffer.readableBytes then
      match k.write with
      | .failed e => e.quiet c
      | .accepted n => n < c.writeBuffer.readableBytes || c.quietFile k.sendfile
    else c.quietFile k.sendfile

/-- A handler that starts on a closed connection, whose close callback is set, is quiet. -/
def Machine.closedQuiet (m : Machine) (l : Label) : Bool :=
  match l, m.stack with
  | .exec k, .handler h :: _ =>
    !m.session.conn.isClosed || !m.session.conn.registered .close || h.quiet m.session.conn k
  | _, _ => true

theorem Errno.calm_of_quiet {e : Errno} {c : TcpConnection} (h : e.quiet c = true)
    (he : e ≠ .eagain) : ∀ t ∈ errorPath, t.Calm c := by
  have herr : c.registered .error = false := by
    unfold Errno.quiet at h
    simpa [he] using h
  intro t ht
  simp only [errorPath, List.mem_cons, List.not_mem_nil, or_false] at ht
  rcases ht with rfl | rfl
  · exact ⟨by decide, herr⟩
  · trivial

theorem onWriteFile_calm {r : WriteResult} {s s' : Session} {ts : List Task}
    (h : onWriteFile r s = some (s', ts)) (hq : s.conn.quietFile r = true)
    (hb : s.conn.writeBuffer.readable = []) : ∀ t ∈ ts, t.Calm s'.conn := by
  unfold onWriteFile at h
  unfold quietFile at hq
  intro t ht
  split at h
  · rename_i hp
    obtain ⟨p, hp⟩ := Option.isSome_iff_exists.mp hp
    rw [hp] at hq
    split at h
    · cases h
    rename_i s₂ ts₂ h₂
    cases h
    rcases List.mem_append.mp ht with ht | ht
    · cases sendPendingFileInLoop_ends h₂ hp hb with
      | failed hr he =>
        subst hr
        exact Errno.calm_of_quiet hq he t ht
      | finished | remaining => cases ht
    · rw [List.mem_singleton.mp ht]
      cases sendPendingFileInLoop_ends h₂ hp hb with
      | failed _ _ => exact .inl (hasPendingFile_of_some hp)
      | finished hr hn hf _ _ _ _ =>
        subst hr
        right
        rw [hf.registered]
        simp only [Bool.or_eq_true, Bool.and_eq_true, bne_iff_ne, decide_eq_true_eq,
          Bool.not_eq_true'] at hq
        rcases hq with ⟨h0, hlt⟩ | hq
        · omega
        · exact hq
      | remaining _ _ hp' _ _ => exact .inl hp'
  · rename_i hp
    rcases onWriteRest_ends (Option.some.inj h) with ⟨hp', _⟩ | ⟨hp', rfl, rfl⟩
    · exact absurd hp' hp
    · rw [hp'] at hq
      have hq : s.conn.registered .writeComplete = false := by simpa using hq
      rw [List.mem_singleton.mp ht]
      exact ⟨by decide, hq⟩

/-- A quiet handler leaves only calm tasks. -/
theorem handle_calm {e : Handler} {k : Syscalls} {s s' : Session} {ts : List Task}
    (h : handle e k s = some (s', ts)) (hq : e.quiet s.conn k = true) :
    ∀ t ∈ ts, t.Calm s'.conn := by
  cases e with
  | close =>
    cases h
    intro t ht
    rw [List.mem_singleton.mp ht]
    trivial
  | error =>
    cases h
    exact Errno.calm_of_quiet (e := .eintr) (by simpa [Errno.quiet, Handler.quiet] using hq) (by decide)
  | read =>
    simp only [handle, onRead] at h
    simp only [Handler.quiet] at hq
    split at h
    · rename_i e hk
      rw [hk] at hq
      obtain ⟨rfl, rfl⟩ := Prod.mk.inj (Option.some.inj h)
      split
      · intro t ht; cases ht
      · rename_i he
        exact Errno.calm_of_quiet hq he
    · rename_i bytes hk
      rw [hk] at hq
      split at h
      · cases h
      cases h
      intro t ht
      split at ht
      · rw [List.mem_singleton.mp ht]
        trivial
      · rename_i hne
        have hq : s.conn.registered .message = false := by simpa [hne] using hq
        rw [List.mem_singleton.mp ht]
        exact ⟨by decide, hq⟩
  | write =>
    simp only [handle, onWrite] at h
    simp only [Handler.quiet] at hq
    split at h
    · rename_i hback
      rw [if_pos hback] at hq
      split at h
      · cases h
      rename_i s₁ ho
      obtain ⟨hle, rfl⟩ := offer_some ho
      split at h
      · rename_i e hk
        rw [hk] at hq
        obtain ⟨rfl, rfl⟩ := Prod.mk.inj (Option.some.inj h)
        split
        · intro t ht; cases ht
        · rename_i he
          exact Errno.calm_of_quiet hq he
      · rename_i n hk
        rw [hk] at hq hle
        split at h
        · cases h
          intro t ht; cases ht
        · rename_i hempty
          have hnil := Buffer.readableBytes_eq_zero.mp (Nat.eq_zero_of_not_pos hempty)
          have hn : ¬n < s.conn.writeBuffer.readableBytes := by
            intro hlt
            have hdrop : s.conn.writeBuffer.readable.drop n = [] :=
              (Buffer.writeToFd_accepted _ _).symm.trans hnil
            have hlen := Buffer.length_readable s.conn.writeBuffer
            rw [List.drop_eq_nil_iff] at hdrop
            omega
          have hq : s.conn.quietFile k.sendfile = true := by simpa [hn] using hq
          exact onWriteFile_calm h hq hnil
    · rename_i hback
      rw [if_neg hback] at hq
      exact onWriteFile_calm h hq (Buffer.readableBytes_eq_zero.mp (Nat.eq_zero_of_not_pos hback))

/-! ## Requests on a closed connection -/

/-- Every request checks `isClosed_` first. -/
theorem serve_of_closed {r : Request} {k : Syscalls} {s s' : Session} {ts : List Task}
    (h : serve r k s = some (s', ts)) (hc : s.conn.isClosed = true) :
    ts = [] ∨ ts = [.closeConnection] := by
  cases r with
  | send msg =>
    simp only [serve, sendInLoop, hc, if_true] at h
    cases h
    exact .inl rfl
  | sendFile file size offset =>
    simp only [serve, sendFileInLoop, hc, true_or, if_true] at h
    cases h
    exact .inl rfl
  | sendFileWithHeader header file size offset =>
    simp only [serve, sendFileWithHeaderInLoop, hc, if_true] at h
    cases h
    exact .inl rfl
  | forceClose =>
    cases h
    exact .inr rfl
  | receive =>
    cases h
    exact .inl rfl

/-- No request touches the segment another one left pending. -/
theorem serve_of_pending {r : Request} {k : Syscalls} {s s' : Session} {ts : List Task}
    (h : serve r k s = some (s', ts)) (hp : s.conn.hasPendingFile = true) :
    s'.conn.pendingFile = s.conn.pendingFile := by
  cases r with
  | send msg =>
    simp only [serve, sendInLoop, hp, if_true] at h
    split at h <;> cases h <;> rfl
  | sendFile file size offset =>
    simp only [serve, sendFileInLoop, hp, if_true] at h
    split at h
    · cases h; rfl
    split at h
    · cases h; rfl
    split at h <;> cases h <;> rfl
  | sendFileWithHeader header file size offset =>
    simp only [serve, sendFileWithHeaderInLoop, sendInLoop, hp, if_true] at h
    split at h
    · cases h; rfl
    split at h
    · cases h; rfl
    split at h
    · cases h; rfl
    split at h <;> cases h <;> rfl
  | forceClose => cases h; rfl
  | receive => cases h; rfl

/-! ## Tasks on a closed connection -/

/-- No task but an event handler touches a pending segment. -/
theorem execTask_of_pending {t : Task} {k : Syscalls} {s s' : Session} {ts : List Task}
    (h : execTask t k s = some (s', ts)) (ht : ∀ e, t ≠ .handler e)
    (hp : s.conn.hasPendingFile = true) : s'.conn.pendingFile = s.conn.pendingFile := by
  cases t with
  | request r => exact serve_of_pending (s := s.pass (.request r)) h hp
  | handler e => exact absurd rfl (ht e)
  | callback cb =>
    simp only [execTask, invoke] at h
    split at h
    · cases h; rfl
    split at h <;> cases h
    rfl
  | user cb => cases h
  | closeConnection =>
    simp only [execTask, closeConnection] at h
    split at h <;> cases h <;> rfl
  | sendFileRest => cases h; rfl
  | onWriteRest =>
    rcases onWriteRest_ends (Option.some.inj h) with ⟨_, rfl, _⟩ | ⟨_, rfl, _⟩
    · rfl
    · rfl
  | ret => cases h

/-- A body that is about to start. -/
def Task.starting : Task → Bool
  | .request _ | .handler _ => true
  | _ => false

/-- On a closed connection, a calm task, a request and a quiet handler invoke nothing and leave
only calm tasks. -/
theorem execTask_calm {t : Task} {k : Syscalls} {s s' : Session} {ts : List Task}
    (h : execTask t k s = some (s', ts)) (hc : s.conn.isClosed = true)
    (hq : ∀ e, t = .handler e → e.quiet s.conn k = true) (ht : t.starting = true ∨ t.Calm s.conn) :
    s'.trace = s.trace ∧ ∀ t' ∈ ts, t'.Calm s'.conn := by
  cases t with
  | request r =>
    refine ⟨(serve_ends h).frame.trace, fun t' ht' => ?_⟩
    rcases serve_of_closed (s := s.pass (.request r)) h hc with rfl | rfl
    · cases ht'
    · rw [List.mem_singleton.mp ht']
      trivial
  | handler e => exact ⟨(handle_ends h).frame.trace, handle_calm h (hq e rfl)⟩
  | callback cb =>
    have hcb : s.conn.registered cb = false := by
      rcases ht with ht | ht
      · cases ht
      · exact ht.2
    simp only [execTask, invoke, hcb] at h
    split at h
    · contradiction
    split at h <;> cases h
    exact ⟨rfl, fun _ ht' => by cases ht'⟩
  | user cb => cases h
  | closeConnection =>
    simp only [execTask, closeConnection, hc, if_true] at h
    cases h
    exact ⟨rfl, fun _ ht' => by cases ht'⟩
  | sendFileRest =>
    obtain ⟨rfl, rfl⟩ := Prod.mk.inj (Option.some.inj h)
    refine ⟨rfl, fun t' ht' => ?_⟩
    split at ht'
    · cases ht'
    · rename_i hp
      rw [List.mem_singleton.mp ht']
      rcases ht with ht | ht | hw
      · cases ht
      · exact absurd ht hp
      · exact ⟨by decide, hw⟩
  | onWriteRest =>
    rcases onWriteRest_ends (Option.some.inj h) with ⟨_, rfl, rfl⟩ | ⟨hp, rfl, rfl⟩
    · exact ⟨rfl, fun _ ht' => by cases ht'⟩
    · refine ⟨rfl, fun t' ht' => ?_⟩
      rw [List.mem_singleton.mp ht']
      rcases ht with ht | ht | hw
      · cases ht
      · rw [hasPendingFile_eq_false.mpr hp] at ht
        cases ht
      · exact ⟨by decide, hw⟩
  | ret => cases h

/-! ## The phases of a connection -/

/-- Where a connection is in its life, seen from the trace. -/
inductive Phase (m : Machine) : Prop where
  | open : m.session.conn.isClosed = false → .close ∉ m.session.trace →
      (∀ t ∈ m.stack.head?, t ≠ .callback .close) → Phase m
  /-- `isClosed_` is set and the close callback is about to be invoked. -/
  | closing {rest : List Task} : m.session.conn.isClosed = true → .close ∉ m.session.trace →
      m.stack = .callback .close :: rest → Phase m
  | closedUnannounced : m.session.conn.isClosed = true →
      m.session.conn.registered .close = false → .close ∉ m.session.trace → Phase m
  /-- The close callback was invoked, and what is on top invokes no other. -/
  | silent {pre : List Callback} : m.session.conn.isClosed = true →
      m.session.conn.registered .close = true → m.session.trace = pre ++ [.close] → .close ∉ pre →
      (∀ t ∈ m.stack.head?, t.starting = true ∨ t.Calm m.session.conn) → Phase m

/-- The invariant of quiet runs. -/
structure Silence (m : Machine) : Prop where
  /-- Below the top of the stack nothing is left that would invoke a callback. -/
  below : ∀ t ∈ m.stack.tail, t.Calm m.session.conn
  handlerAlone : ∀ h rest, m.stack = .handler h :: rest → rest = [.ret]
  phase : Phase m

theorem Task.Calm.ne_close {c : TcpConnection} {t : Task} (h : t.Calm c) : t ≠ .callback .close := by
  rintro rfl
  exact h.1 rfl

theorem mem_head?_append {ts rest : List Task} {t : Task} (h : t ∈ (ts ++ rest).head?) :
    t ∈ ts.head? ∨ t ∈ rest := by
  cases ts with
  | nil => exact .inr (List.mem_of_mem_head? h)
  | cons _ _ => exact .inl h

/-- What a task leaves is calm but for its first task, which is no body that starts. -/
theorem TaskEnds.tail_calm {t : Task} {k : Syscalls} {s s' : Session} {ts : List Task}
    (h : TaskEnds t k s s' ts) :
    (∀ t' ∈ ts.tail, t'.Calm s'.conn) ∧ (∀ t' ∈ ts.head?, t'.starting = false) := by
  have single : ∀ t' : Task, t'.starting = false →
      (∀ t'' ∈ [t'].tail, t''.Calm s'.conn) ∧ (∀ t'' ∈ [t'].head?, t''.starting = false) := by
    intro t' h'
    exact ⟨fun _ hm => (by cases hm), fun _ hm => (by cases hm; exact h')⟩
  have none : (∀ t' ∈ ([] : List Task).tail, t'.Calm s'.conn) ∧
      (∀ t' ∈ ([] : List Task).head?, t'.starting = false) :=
    ⟨fun _ hm => (by cases hm), fun _ hm => (by cases hm)⟩
  cases h with
  | body _ h =>
    cases h with
    | ignored _ => exact none
    | failed _ hts =>
      refine ⟨fun t' ht' => ?_, fun t' ht' => by cases ht'; rfl⟩
      rcases List.mem_cons.mp ht' with rfl | ht'
      · trivial
      · exact hts t' ht'
    | sent _ _ _ hts =>
      rcases hts with rfl | ⟨t', ht', rfl⟩
      · exact none
      · refine single t' ?_
        have : ∀ t' ∈ followUps, t'.starting = false := by decide
        exact this t' ht'
  | finishing _ h =>
    rcases onWriteRest_ends h with ⟨_, _, rfl⟩ | ⟨_, _, rfl⟩
    · exact none
    · exact single _ rfl
  | invoked _ _ => exact single _ rfl
  | skipped _ _ => exact none
  | closedAlready _ _ => exact none
  | closed _ _ => exact single _ rfl

theorem TaskEnds.registered {t : Task} {k : Syscalls} {s s' : Session} {ts : List Task}
    (h : TaskEnds t k s s' ts) : s'.conn.registered = s.conn.registered := by
  cases h with
  | body _ h => exact h.frame.registered
  | finishing _ h =>
    rcases onWriteRest_ends h with ⟨_, rfl, _⟩ | ⟨_, rfl, _⟩
    · rfl
    · rfl
  | invoked | skipped | closedAlready | closed => rfl

/-- A task grows the trace by a callback that is set, or not at all. -/
theorem TaskEnds.trace {t : Task} {k : Syscalls} {s s' : Session} {ts : List Task}
    (h : TaskEnds t k s s' ts) :
    s'.trace = s.trace ∨
      ∃ cb, t = .callback cb ∧ s.conn.registered cb = true ∧ s'.trace = s.trace ++ [cb] := by
  cases h with
  | body _ h => exact .inl h.frame.trace
  | finishing _ h =>
    rcases onWriteRest_ends h with ⟨_, rfl, _⟩ | ⟨_, rfl, _⟩
    · exact .inl rfl
    · exact .inl rfl
  | invoked ht hreg => exact .inr ⟨_, ht, hreg, rfl⟩
  | skipped | closedAlready | closed => exact .inl rfl

/-- Nothing but `close_connection` itself puts the close callback on top of an open connection. -/
theorem TaskEnds.head_ne_close {t : Task} {k : Syscalls} {s s' : Session} {ts : List Task}
    (h : TaskEnds t k s s' ts) (ho : s'.conn.isClosed = false) :
    ∀ t' ∈ ts.head?, t' ≠ .callback .close := by
  rintro _ ht' rfl
  cases h with
  | body _ h =>
    cases h with
    | ignored _ => cases ht'
    | failed _ _ => cases ht'
    | sent _ _ _ hts =>
      rcases hts with rfl | ⟨t', hmem, rfl⟩
      · cases ht'
      · cases ht'
        exact absurd hmem (by decide)
  | finishing _ h =>
    rcases onWriteRest_ends h with ⟨_, _, rfl⟩ | ⟨_, _, rfl⟩
    · cases ht'
    · cases ht'
  | invoked _ _ => cases ht'
  | skipped _ _ => cases ht'
  | closedAlready _ _ => cases ht'
  | closed _ _ => cases ho

/-- Popping a task that leaves the session as it is. -/
theorem Silence.pop {m : Machine} {t : Task} {rest : List Task} (h : Silence m)
    (hst : m.stack = t :: rest) (ht : ∀ cb, t ≠ .callback cb) :
    Silence { m with stack := rest } := by
  have hrest : ∀ t' ∈ rest, t'.Calm m.session.conn := by
    have hbelow := h.below
    rwa [hst] at hbelow
  refine ⟨fun t' ht' => hrest t' (List.mem_of_mem_tail ht'), ?_, ?_⟩
  · rintro e rest' rfl
    exact (hrest _ List.mem_cons_self).elim
  · cases h.phase with
    | «open» hc htr _ =>
      exact .open hc htr fun t' ht' => (hrest t' (List.mem_of_mem_head? ht')).ne_close
    | closing _ _ hst' =>
      rw [hst] at hst'
      cases hst'
      exact absurd rfl (ht .close)
    | closedUnannounced hc hreg htr => exact .closedUnannounced hc hreg htr
    | silent hc hreg htr hpre _ =>
      exact .silent hc hreg htr hpre fun t' ht' => .inr (hrest t' (List.mem_of_mem_head? ht'))

/-- Pushing a body that starts. -/
theorem Silence.push {m : Machine} {t : Task} {ts : List Task} {hs : List Handler} (h : Silence m)
    (ht : t.starting = true) (hcalm : ∀ t' ∈ ts, t'.Calm m.session.conn)
    (halone : ∀ e, t = .handler e → ts = [.ret]) (hcl : ∀ rest, m.stack ≠ .callback .close :: rest) :
    Silence { m with stack := t :: ts, handlers := hs } := by
  refine ⟨hcalm, ?_, ?_⟩
  · rintro e rest heq
    cases heq
    exact halone e rfl
  · cases h.phase with
    | «open» hc htr _ =>
      refine .open hc htr fun t' ht' => ?_
      cases ht'
      rintro rfl
      cases ht
    | closing _ _ hst' => exact absurd hst' (hcl _)
    | closedUnannounced hc hreg htr => exact .closedUnannounced hc hreg htr
    | silent hc hreg htr hpre _ =>
      refine .silent hc hreg htr hpre fun t' ht' => ?_
      cases ht'
      exact .inl ht

/-- The phase after a task, where what was below the task stays calm. -/
theorem Phase.exec {m : Machine} {k : Syscalls} {t : Task} {rest ts : List Task} {s : Session}
    (h : Phase m) (hq : m.closedQuiet (.exec k) = true) (hst : m.stack = t :: rest)
    (he : execTask t k m.session = some (s, ts)) (hrest : ∀ t' ∈ rest, t'.Calm s.conn) :
    Phase { m with session := s, stack := ts ++ rest } := by
  have hends := execTask_ends he
  cases h with
  | «open» hc htr htop =>
    have hnew : s.conn.isClosed = false → ∀ t' ∈ (ts ++ rest).head?, t' ≠ .callback .close := by
      intro hc' t' ht'
      rcases mem_head?_append ht' with hm | hm
      · exact hends.head_ne_close hc' t' hm
      · exact (hrest t' hm).ne_close
    cases hends with
    | body _ hb =>
      have hc' := hb.frame.isClosed.trans hc
      exact .open hc' (by rw [hb.frame.trace]; exact htr) (hnew hc')
    | finishing _ hb =>
      rcases onWriteRest_ends hb with ⟨_, rfl, _⟩ | ⟨_, rfl, _⟩
      · exact .open hc htr (hnew hc)
      · exact .open hc htr (hnew hc)
    | @invoked cb ht _ =>
      have hcb : .close ≠ cb := by
        rintro rfl
        exact htop t (by rw [hst]; rfl) ht
      refine .open hc ?_ (hnew hc)
      intro hm
      rcases List.mem_append.mp hm with hm | hm
      · exact htr hm
      · exact hcb (List.mem_singleton.mp hm)
    | skipped _ _ => exact .open hc htr (hnew hc)
    | closedAlready _ hc' =>
      rw [hc] at hc'
      cases hc'
    | closed _ _ => exact .closing rfl htr rfl
  | closing hc htr hst' =>
    rw [hst] at hst'
    cases hst'
    cases hends with
    | body ht _ => cases ht
    | finishing ht _ => cases ht
    | invoked ht hreg =>
      cases ht
      refine .silent hc hreg rfl htr fun t' ht' => ?_
      cases ht'
      exact .inr trivial
    | skipped ht hreg =>
      cases ht
      exact .closedUnannounced hc hreg htr
    | closedAlready ht _ => cases ht
    | closed ht _ => cases ht
  | closedUnannounced hc hreg htr =>
    refine .closedUnannounced (hends.isClosed hc) (by rw [hends.registered]; exact hreg) ?_
    rcases hends.trace with htr' | ⟨cb, _, hcb, htr'⟩
    · rw [htr']; exact htr
    · rw [htr']
      intro hm
      rcases List.mem_append.mp hm with hm | hm
      · exact htr hm
      · rw [← List.mem_singleton.mp hm, hreg] at hcb
        cases hcb
  | silent hc hreg htr hpre htop =>
    have hquiet : ∀ e, t = .handler e → e.quiet m.session.conn k = true := by
      rintro e rfl
      simpa [Machine.closedQuiet, hst, hc, hreg] using hq
    obtain ⟨htr', hcalm⟩ := execTask_calm he hc hquiet (htop t (by rw [hst]; rfl))
    refine .silent (hends.isClosed hc) (by rw [hends.registered]; exact hreg) (htr'.trans htr) hpre
      fun t' ht' => .inr ?_
    rcases mem_head?_append ht' with hm | hm
    · exact hcalm t' (List.mem_of_mem_head? hm)
    · exact hrest t' hm

theorem Silence.exec {m : Machine} {k : Syscalls} {t : Task} {rest ts : List Task} {s : Session}
    (h : Silence m) (hq : m.closedQuiet (.exec k) = true) (hst : m.stack = t :: rest)
    (he : execTask t k m.session = some (s, ts)) :
    Silence { m with session := s, stack := ts ++ rest } := by
  have hends := execTask_ends he
  obtain ⟨htail, hhead⟩ := hends.tail_calm
  -- what was below the task stays calm
  have hrest : ∀ t' ∈ rest, t'.Calm s.conn := by
    have hbelow := h.below
    rw [hst] at hbelow
    by_cases hh : ∃ e, t = .handler e
    · obtain ⟨e, rfl⟩ := hh
      rw [h.handlerAlone e rest hst]
      intro t' ht'
      rw [List.mem_singleton.mp ht']
      trivial
    · refine fun t' ht' => (hbelow t' ht').mono hends.registered fun hp => ?_
      have hp' := execTask_of_pending he (fun e ht => hh ⟨e, ht⟩) hp
      rw [hasPendingFile, hp']
      exact hp
  refine ⟨fun t' ht' => ?_, fun e rest' heq => ?_, h.phase.exec hq hst he hrest⟩
  · rcases ts with _ | ⟨t₁, ts⟩
    · exact hrest t' (List.mem_of_mem_tail ht')
    · rcases List.mem_append.mp ht' with ht' | ht'
      · exact htail t' ht'
      · exact hrest t' ht'
  · have hmem : Task.handler e ∈ (ts ++ rest).head? := by
      rw [show ts ++ rest = _ from heq]; rfl
    rcases mem_head?_append hmem with hm | hm
    · cases hhead _ hm
    · exact (hrest _ hm).elim

/-- **Step lemma**: quiet steps keep the connection silent after its close callback. -/
theorem Silence.step {m m' : Machine} {l : Label} (h : Silence m) (hq : m.closedQuiet l = true)
    (hs : StepEnds m l m') : Silence m' := by
  cases hs with
  | events hnil _ =>
    refine ⟨h.below, h.handlerAlone, ?_⟩
    cases h.phase with
    | «open» hc htr htop => exact .open hc htr htop
    | closing _ _ hst => rw [hnil] at hst; cases hst
    | closedUnannounced hc hreg htr => exact .closedUnannounced hc hreg htr
    | silent hc hreg htr hpre htop => exact .silent hc hreg htr hpre htop
  | dispatch hnil _ =>
    refine h.push rfl (fun t ht => ?_) (fun _ _ => rfl) fun rest hst => ?_
    · rw [List.mem_singleton.mp ht]
      trivial
    · rw [hnil] at hst
      cases hst
  | call hst =>
    refine h.push rfl (fun t ht => ?_) (fun _ ht => by cases ht) fun rest hst' => ?_
    · rcases List.mem_cons.mp ht with rfl | ht
      · trivial
      rcases hst with hnil | ⟨cb, rest, hst⟩
      · rw [hnil] at ht
        cases ht
      · have hbelow := h.below
        rw [hst] at ht hbelow
        rcases List.mem_cons.mp ht with rfl | ht
        · trivial
        · exact hbelow t ht
    · rcases hst with hnil | ⟨cb, rest, hst⟩
      · rw [hnil] at hst'; cases hst'
      · rw [hst] at hst'; cases hst'
  | exec hst he => exact h.exec hq hst he
  | leave hst => exact h.pop hst fun _ ht => by cases ht
  | ret hst => exact h.pop hst fun _ ht => by cases ht

theorem SilentAfterClose.of_not_mem {trace : List Callback} (h : .close ∉ trace) :
    SilentAfterClose trace := by
  rintro pre post rfl
  exact absurd (List.mem_append_right pre List.mem_cons_self) h

theorem SilentAfterClose.of_last {pre : List Callback} (h : .close ∉ pre) :
    SilentAfterClose (pre ++ [.close]) := by
  intro pre' post heq
  rcases List.append_eq_append_iff.mp heq with ⟨as, rfl, has⟩ | ⟨bs, rfl, hbs⟩
  · cases as with
    | nil => exact (List.cons.inj has).2.symm
    | cons a as => simp at has
  · cases bs with
    | nil => exact (List.cons.inj hbs).2
    | cons b bs =>
      rw [List.cons_append] at hbs
      rw [← (List.cons.inj hbs).1] at h
      exact absurd (List.mem_append_right pre' List.mem_cons_self) h

variable {registered : Callback → Bool} {highWaterMark : Nat}

/-- **After its close callback a connection is silent**, in every run whose event handlers are
quiet when they start on a connection closed already. -/
theorem silent_after_close {m : Machine}
    (h : (connection registered highWaterMark).Reaches (fun m l => m.closedQuiet l = true) m) :
    SilentAfterClose m.session.trace := by
  have hinit : Silence (connection registered highWaterMark).init := by
    refine ⟨fun _ ht => (by cases ht), fun _ _ h => (by cases h), ?_⟩
    exact .open rfl (fun h => by cases h) fun _ h => by cases h
  have hinv : Silence m := h.invariant hinit fun m l m' hI hq hs => hI.step hq (Machine.step_ends hs)
  cases hinv.phase with
  | «open» _ htr _ => exact .of_not_mem htr
  | closing _ htr _ => exact .of_not_mem htr
  | closedUnannounced _ _ htr => exact .of_not_mem htr
  | silent _ _ htr hpre _ =>
    rw [htr]
    exact .of_last hpre

/-- The peer is done sending while its socket is writable: the read handler closes, and the write
handler after it finds a full socket. -/
def readCloses (write : WriteResult) : List Label :=
  [.call (.send [1]), .exec {}, .ret, .events { epollin := true, epollout := true }, .dispatch,
    .exec { read := .data [] }, .exec {}, .exec {}, .leave, .ret, .dispatch, .exec { write := write }]

theorem silent_after_close_eagain :
    ∃ m ∈ (connection (fun _ => true) 4).run (connection (fun _ => true) 4).init
        (readCloses (.failed .eagain)),
      m.session.trace = [.close] ∧ SilentAfterClose m.session.trace := by
  have hg : (connection (fun _ => true) 4).Admits (fun m l => m.closedQuiet l = true)
      (connection (fun _ => true) 4).init (readCloses (.failed .eagain)) := by
    decide +kernel
  obtain ⟨m, hm, htr⟩ : ∃ m ∈ (connection (fun _ => true) 4).run (connection (fun _ => true) 4).init
      (readCloses (.failed .eagain)), m.session.trace = [.close] := by
    decide +kernel
  exact ⟨m, hm, htr, silent_after_close (.of_run _ hm hg)⟩

/-- **It is not silent in general**: where the write handler of that dispatch finds the peer gone,
it reports an error after the close. -/
theorem callback_after_close :
    ¬∀ (registered : Callback → Bool) (highWaterMark : Nat) (m : Machine),
      (connection registered highWaterMark).Reachable m → SilentAfterClose m.session.trace := by
  intro h
  obtain ⟨m, hm, htr⟩ : ∃ m ∈ (connection (fun _ => true) 4).run (connection (fun _ => true) 4).init
      (readCloses (.failed (.other 32)) ++ [.exec {}]), m.session.trace = [.close, .error] := by
    decide +kernel
  have := h _ _ m (.of_run _ hm) [] [.error] htr
  cases this

end Tudou
