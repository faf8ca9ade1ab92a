import Tudou.Foundation.Pipe
import Tudou.Tcp.Bodies

/-!
# The output stream of a connection

Every send operation, the drain on `EPOLLOUT` and every re-entrant send from a callback feed one
byte stream.

* `connection_refines_pipe` — the connection refines an ordered, lossless pipe until it closes.
* `conserves_output` — **at every return, nothing is lost, duplicated or reordered**: the bytes
  on the wire, the write buffer and the unsent file segment are what was passed in.
* `writeInterest_exact` — **at every return, `EPOLLOUT` is asked for exactly when something is
  left to send.**

The runs are those whose error callback issues no request of its own: between an error and the
close that follows it the failed bytes are nowhere.
-/

namespace Tudou

open Transition TcpConnection

/-! ## The runs -/

def Label.isCall : Label → Bool
  | .call _ => true
  | _ => false

/-- The error callback issues no request; every other callback may. -/
def ErrorsQuiet (m : Machine) (l : Label) : Prop :=
  l.isCall = true → m.stack.head? ≠ some (.user .error)

/-- `sendfile` moves at least a byte when it succeeds: files are as long as their segments. -/
def Label.FilesLongEnough : Label → Prop
  | .exec k => k.sendfile ≠ .accepted 0
  | _ => True

instance (m : Machine) (l : Label) : Decidable (ErrorsQuiet m l) :=
  inferInstanceAs (Decidable (_ → _))

instance : DecidablePred Label.FilesLongEnough
  | .exec k => inferInstanceAs (Decidable (k.sendfile ≠ .accepted 0))
  | .events _ | .dispatch | .call _ | .leave | .ret => inferInstanceAs (Decidable True)

/-! ## Closed, or about to close -/

/-- An error callback runs, or the close after it. -/
inductive Closing : List Task → Prop where
  | reporting {rest : List Task} : Closing (.callback .error :: .closeConnection :: rest)
  | reported {rest : List Task} : Closing (.user .error :: .closeConnection :: rest)
  | closing {rest : List Task} : Closing (.closeConnection :: rest)

/-- The connection is closed or on the way there, with nothing in between. -/
def Abandoned (m : Machine) : Prop := m.session.conn.isClosed = true ∨ Closing m.stack

/-- What is abandoned stays so. -/
theorem Abandoned.step {m m' : Machine} {l : Label} (h : Abandoned m) (hq : ErrorsQuiet m l)
    (hs : StepEnds m l m') : Abandoned m' := by
  rcases h with hc | hcl
  · left
    cases hs with
    | exec _ he => exact (execTask_ends he).isClosed hc
    | _ => exact hc
  · cases hs with
    | events hnil _ | dispatch hnil _ => rw [hnil] at hcl; cases hcl
    | call hst =>
      rcases hst with hnil | ⟨cb, rest, hst⟩
      · rw [hnil] at hcl; cases hcl
      · rw [hst] at hcl
        cases hcl
        exact absurd (by rw [hst]; rfl) (hq rfl)
    | exec hst he =>
      rw [hst] at hcl
      cases hcl with
      | reporting =>
        right
        cases execTask_ends he with
        | body hb _ => cases hb
        | finishing hb _ => cases hb
        | invoked hb _ => cases hb; exact .reported
        | skipped _ _ => exact .closing
        | closedAlready hb _ => cases hb
        | closed hb _ => cases hb
      | reported => cases he
      | closing =>
        left
        cases execTask_ends he with
        | body hb _ => cases hb
        | finishing hb _ => cases hb
        | invoked hb _ => cases hb
        | skipped hb _ => cases hb
        | closedAlready _ hc => exact hc
        | closed _ _ => rfl
    | leave hst =>
      rw [hst] at hcl
      cases hcl
      exact .inr .closing
    | ret hst => rw [hst] at hcl; cases hcl

theorem Closing.append {ts : List Task} (h : Closing ts) (rest : List Task) :
    Closing (ts ++ rest) := by
  cases h with
  | reporting => exact .reporting
  | reported => exact .reported
  | closing => exact .closing

/-! ## The byte stream -/

/-- What a task does to the stream, unless it closes the connection or is about to. -/
theorem TaskEnds.flow {t : Task} {k : Syscalls} {s s' : Session} {ts : List Task}
    (h : TaskEnds t k s s' ts) (hk : k.sendfile ≠ .accepted 0) :
    s'.conn.isClosed = true ∨ Closing ts ∨
      s'.passed = s.passed ++ t.payload ∧ ∃ n, Sends n t.payload s s' := by
  have idle : ∀ s' : Session, t.payload = [] → s'.passed = s.passed → s'.wire = s.wire →
      s'.conn.unsent = s.conn.unsent →
      s'.passed = s.passed ++ t.payload ∧ ∃ n, Sends n t.payload s s' := by
    intro s' ht hp hw hu
    rw [ht, hp, List.append_nil]
    exact ⟨rfl, 0, .nothing hw hu⟩
  cases h with
  | body _ h =>
    cases h with
    | ignored hc => exact .inl hc
    | failed _ _ => exact .inr (.inl .reporting)
    | sent hf hn _ _ =>
      obtain ⟨n, hn⟩ := hn hk
      exact .inr (.inr ⟨hf.passed, n, hn.le, hn.wire, hn.unsent⟩)
  | finishing ht h =>
    subst ht
    rcases onWriteRest_ends h with ⟨_, rfl, _⟩ | ⟨_, rfl, _⟩
    · exact .inr (.inr (idle _ rfl rfl rfl rfl))
    · exact .inr (.inr (idle _ rfl rfl rfl rfl))
  | invoked ht _ => exact .inr (.inr (idle _ (by rw [ht]; rfl) rfl rfl rfl))
  | skipped ht _ => exact .inr (.inr (idle _ (by rw [ht]; rfl) rfl rfl rfl))
  | closedAlready _ hc => exact .inl hc
  | closed _ _ => exact .inl rfl

/-- The pipe a connection stands for. -/
structure Piped (m : Machine) (p : Pipe Byte) : Prop where
  delivered : p.delivered = m.session.wire
  queued : p.queued = m.session.conn.unsent
  pushed : p.pushed = m.session.passed

/-- Sending is pushing and then delivering a prefix. -/
theorem Piped.sends {m : Machine} {p : Pipe Byte} {n : Nat} {xs : Bytes} {s : Session}
    {stack : List Task} (h : Piped m p) (hp : s.passed = m.session.passed ++ xs)
    (hn : Sends n xs m.session s) :
    ∃ bs p', (pipe Byte).run p bs = some p' ∧ Piped ⟨s, stack, m.handlers⟩ p' := by
  have hle : n ≤ p.queued.length + xs.length := h.queued ▸ hn.le
  refine ⟨_, _, pipe_run_push_deliver p xs hle, ?_, ?_, ?_⟩
  · show p.delivered ++ (p.queued ++ xs).take n = s.wire
    rw [h.delivered, h.queued, hn.wire]
  · show (p.queued ++ xs).drop n = s.conn.unsent
    rw [h.queued, hn.unsent]
  · show p.pushed ++ xs = s.passed
    rw [h.pushed, hp]

variable {registered : Callback → Bool} {highWaterMark : Nat}

/-- **A connection refines an ordered, lossless pipe** until it closes. -/
theorem connection_refines_pipe :
    Simulation (connection registered highWaterMark)
      (fun m l => ErrorsQuiet m l ∧ l.FilesLongEnough) (pipe Byte)
      (fun m p => Abandoned m ∨ Piped m p) where
  init := by
    right
    refine ⟨rfl, ?_, rfl⟩
    show [] = TcpConnection.unsent _
    rw [unsent_of_none rfl]
    exact Buffer.readable_empty.symm
  step := by
    intro m l m' p hR hg hs
    obtain ⟨hq, hk⟩ := hg
    have hs := Machine.step_ends hs
    rcases hR with hab | hp
    · exact ⟨[], p, rfl, .inl (hab.step hq hs)⟩
    cases hs with
    | exec hst he =>
      rcases (execTask_ends he).flow hk with hc | hcl | ⟨hpass, n, hn⟩
      · exact ⟨[], p, rfl, .inl (.inl hc)⟩
      · exact ⟨[], p, rfl, .inl (.inr (hcl.append _))⟩
      · obtain ⟨bs, p', hrun, hp'⟩ := hp.sends hpass hn
        exact ⟨bs, p', hrun, .inr hp'⟩
    | events | dispatch | call | leave | ret =>
      exact ⟨[], p, rfl, .inr ⟨hp.delivered, hp.queued, hp.pushed⟩⟩

/-- Nothing is abandoned when a body returns on an open connection. -/
theorem not_abandoned_of_ret {m : Machine} {rest : List Task} (hst : m.stack = .ret :: rest)
    (hopen : m.session.conn.isClosed = false) : ¬Abandoned m := by
  rintro (hc | hcl)
  · rw [hopen] at hc; cases hc
  · rw [hst] at hcl; cases hcl

/-- **Nothing is lost, duplicated or reordered**: whenever an operation or a handler returns and
the connection is open, what the socket accepted, the write buffer and the unsent part of the
pending segment are, in this order, everything passed to the send operations. -/
theorem conserves_output {m : Machine} {rest : List Task}
    (h : (connection registered highWaterMark).Reaches
      (fun m l => ErrorsQuiet m l ∧ l.FilesLongEnough) m)
    (hst : m.stack = .ret :: rest) (hopen : m.session.conn.isClosed = false) :
    m.session.wire ++ m.session.conn.writeBuffer.readable ++
      (m.session.conn.pendingFile.map PendingFileSend.unsent).getD [] = m.session.passed := by
  obtain ⟨p, _, hab | hp⟩ := connection_refines_pipe.reaches h
  · exact absurd hab (not_abandoned_of_ret hst hopen)
  · rw [List.append_assoc]
    exact (congrArg₂ _ hp.delivered hp.queued).symm.trans (p.conserved.trans hp.pushed)

/-- A short write, a file queued behind the rest, and a drain cut short again in the file. -/
def shortWrites : List Label :=
  [.call (.send [1, 2]), .exec { write := .accepted 1 }, .ret,
    .call (.sendFile ⟨true, true, [7, 8, 9]⟩ 2 1), .exec {}, .ret,
    .events { epollout := true }, .dispatch,
    .exec { write := .accepted 1, sendfile := .accepted 1 }, .exec {}]

theorem conserves_output_shortWrites :
    ∃ m ∈ (connection (fun _ => false) 4).run (connection (fun _ => false) 4).init shortWrites,
      m.session.wire = [1, 2, 8] ∧
      m.session.wire ++ m.session.conn.writeBuffer.readable ++
        (m.session.conn.pendingFile.map PendingFileSend.unsent).getD [] = m.session.passed := by
  have hg : (connection (fun _ => false) 4).Admits (fun m l => ErrorsQuiet m l ∧ l.FilesLongEnough)
      (connection (fun _ => false) 4).init shortWrites := by
    decide +kernel
  obtain ⟨m, hm, hst, hopen, hwire⟩ :
      ∃ m ∈ (connection (fun _ => false) 4).run (connection (fun _ => false) 4).init shortWrites,
        m.stack = [.ret] ∧ m.session.conn.isClosed = false ∧ m.session.wire = [1, 2, 8] := by
    decide +kernel
  exact ⟨m, hm, hwire, conserves_output (.of_run _ hm hg) hst hopen⟩

/-! ## Write interest -/

/-- The interest is right for the tasks on the stack, and `on_write` has no end to come but at
the top. -/
structure Interested (m : Machine) : Prop where
  top : InterestAt m.stack m.session.conn
  below : .onWriteRest ∉ m.stack.tail

theorem interestAt_iff {ts : List Task} {c : TcpConnection} (h : ts.head? ≠ some .onWriteRest) :
    InterestAt ts c ↔ WriteInterest c := by
  unfold InterestAt
  split
  · exact absurd rfl h
  · rfl

theorem interestAt_iff_of_not_mem {ts : List Task} {c : TcpConnection} (h : .onWriteRest ∉ ts) :
    InterestAt ts c ↔ WriteInterest c :=
  interestAt_iff fun ht => h (List.mem_of_mem_head? ht)

theorem Interested.writeInterest {m : Machine} {t : Task} {rest : List Task} (h : Interested m)
    (hst : m.stack = t :: rest) (ht : t ≠ .onWriteRest) : WriteInterest m.session.conn := by
  refine (interestAt_iff ?_).mp h.top
  rw [hst]
  exact fun h => ht (Option.some.inj h)

/-- Popping a task that leaves the interest right. -/
theorem Interested.pop {m : Machine} {t : Task} {rest : List Task} {s : Session} (h : Interested m)
    (hst : m.stack = t :: rest) (hw : WriteInterest s.conn) :
    Interested { m with session := s, stack := rest } := by
  have hbelow := h.below
  rw [hst] at hbelow
  simp only [List.tail_cons] at hbelow
  exact ⟨(interestAt_iff_of_not_mem hbelow).mpr hw, fun hm => hbelow (List.mem_of_mem_tail hm)⟩

/-- Replacing the task on top by one other. -/
theorem Interested.replace {m : Machine} {t t' : Task} {rest : List Task} {s : Session}
    (h : Interested m) (hst : m.stack = t :: rest) (hi : InterestAt [t'] s.conn) :
    Interested { m with session := s, stack := t' :: rest } := by
  have hbelow := h.below
  rw [hst] at hbelow
  refine ⟨?_, hbelow⟩
  show InterestAt (t' :: rest) s.conn
  cases t' with
  | onWriteRest => exact hi
  | _ => exact hi

/-- The end of `on_write` leaves the interest right. -/
theorem Drained.writeInterest {s s' : Session} {ts : List Task} (h : Drained s.conn)
    (he : onWriteRest s = (s', ts)) : WriteInterest s'.conn := by
  rcases onWriteRest_ends he with ⟨hp, rfl, _⟩ | ⟨hp, rfl, _⟩
  · exact .of_left (h.2 hp) (.inr hp)
  · exact .of_nothing rfl h.1 hp

theorem Interested.exec {m : Machine} {k : Syscalls} {t : Task} {rest ts : List Task} {s : Session}
    (h : Interested m) (hst : m.stack = t :: rest) (he : TaskEnds t k m.session s ts) :
    Abandoned { m with session := s, stack := ts ++ rest } ∨
      Interested { m with session := s, stack := ts ++ rest } := by
  cases he with
  | body ht he =>
    have hw : WriteInterest m.session.conn :=
      h.writeInterest hst (by rintro rfl; cases ht)
    cases he with
    | ignored hc => exact .inl (.inl hc)
    | failed _ _ => exact .inl (.inr (Closing.reporting.append rest))
    | sent _ _ hi hts =>
      right
      rcases hts with rfl | ⟨t', _, rfl⟩
      · exact h.pop hst (hi hw)
      · exact h.replace hst (hi hw)
  | finishing ht he =>
    right
    subst ht
    have htop := h.top
    rw [hst] at htop
    have hw := Drained.writeInterest htop he
    rcases onWriteRest_ends he with ⟨_, _, rfl⟩ | ⟨_, _, rfl⟩
    · exact h.pop hst hw
    · exact h.replace hst hw
  | invoked ht _ => exact .inr (h.replace hst (h.writeInterest hst (by rw [ht]; rintro ⟨⟩)))
  | skipped ht _ => exact .inr (h.pop hst (h.writeInterest hst (by rw [ht]; rintro ⟨⟩)))
  | closedAlready _ hc => exact .inl (.inl hc)
  | closed _ _ => exact .inl (.inl rfl)

/-- **Step lemma** for the write interest. -/
theorem Interested.step {m m' : Machine} {l : Label} (h : Interested m) (hs : StepEnds m l m') :
    Abandoned m' ∨ Interested m' := by
  cases hs with
  | events hnil _ => exact .inr ⟨h.top, h.below⟩
  | dispatch hnil _ =>
    have htop := h.top
    rw [hnil] at htop
    exact .inr ⟨htop, by simp⟩
  | call hst =>
    right
    rcases hst with hnil | ⟨cb, rest, hst⟩
    · have htop := h.top
      rw [hnil] at htop
      exact ⟨htop, by simp [hnil]⟩
    · refine ⟨h.writeInterest hst (by rintro ⟨⟩), ?_⟩
      have hbelow := h.below
      rw [hst] at hbelow ⊢
      simpa using hbelow
  | exec hst he => exact h.exec hst (execTask_ends he)
  | leave hst => exact .inr (h.pop hst (h.writeInterest hst (by rintro ⟨⟩)))
  | ret hst => exact .inr (h.pop hst (h.writeInterest hst (by rintro ⟨⟩)))

/-- The write interest along a run. -/
theorem interested_of_reaches {m : Machine}
    (h : (connection registered highWaterMark).Reaches ErrorsQuiet m) : Abandoned m ∨ Interested m := by
  refine h.invariant (I := fun m => Abandoned m ∨ Interested m) ?_ ?_
  · refine .inr ⟨.of_nothing rfl Buffer.readable_empty rfl, fun hm => by cases hm⟩
  · intro m l m' hI hq hs
    have hs := Machine.step_ends hs
    rcases hI with hab | hin
    · exact .inl (hab.step hq hs)
    · exact hin.step hs

/-- **`EPOLLOUT` interest is exact**: whenever an operation or a handler returns and the
connection is open, write events are asked for if and only if the write buffer has readable bytes
or a file segment is pending. -/
theorem writeInterest_exact {m : Machine} {rest : List Task}
    (h : (connection registered highWaterMark).Reaches ErrorsQuiet m)
    (hst : m.stack = .ret :: rest) (hopen : m.session.conn.isClosed = false) :
    m.session.conn.channel.isWriting = true ↔
      0 < m.session.conn.writeBuffer.readableBytes ∨ m.session.conn.hasPendingFile = true := by
  rcases interested_of_reaches h with hab | hin
  · exact absurd hab (not_abandoned_of_ret hst hopen)
  · exact hin.writeInterest hst (by rintro ⟨⟩)

/-- A `sendfile` of nothing ends the segment, and its write-complete callback sends again. -/
def emptySendfile : List Label :=
  [.call (.sendFile ⟨true, true, [7, 8]⟩ 2 0), .exec {}, .exec {}, .ret,
    .events { epollout := true }, .dispatch, .exec { sendfile := .accepted 0 }, .exec {}, .exec {},
    .call (.send [5]), .exec {}, .ret, .leave]

theorem writeInterest_exact_emptySendfile :
    ∃ m ∈ (connection (· = .writeComplete) 4).run (connection (· = .writeComplete) 4).init emptySendfile,
      m.session.conn.writeBuffer.readable = [5] ∧
      (m.session.conn.channel.isWriting = true ↔
        0 < m.session.conn.writeBuffer.readableBytes ∨ m.session.conn.hasPendingFile = true) := by
  have hg : (connection (· = .writeComplete) 4).Admits ErrorsQuiet
      (connection (· = .writeComplete) 4).init emptySendfile := by
    decide +kernel
  obtain ⟨m, hm, hst, hopen, hbuf⟩ :
      ∃ m ∈ (connection (· = .writeComplete) 4).run (connection (· = .writeComplete) 4).init emptySendfile,
        m.stack = [.ret] ∧ m.session.conn.isClosed = false ∧
          m.session.conn.writeBuffer.readable = [5] := by
    decide +kernel
  exact ⟨m, hm, hbuf, writeInterest_exact (.of_run _ hm hg) hst hopen⟩

end Tudou
