import Tudou.Tcp.TcpConnection

/-!
# What the bodies of `TcpConnection` can do

One inversion lemma for each body, saying how it can end: what went out, what is left, whether
`EPOLLOUT` is asked for and which tasks remain.  The properties of the connection are derived
from these lemmas; no later module unfolds a sending body.

* `Frame` — what no sending body changes: `isClosed_`, the callbacks, what was passed in, the
  trace.
* `Sends n xs` — with `xs` newly passed in, the first `n` unsent bytes went out.
* `WriteInterest` — `EPOLLOUT` is asked for exactly while something is left to send.
* `Ends` — the three ways a body can end; `sendInLoop_ends`, `sendFileInLoop_ends`,
  `sendFileWithHeaderInLoop_ends`, `onWrite_ends`, `onRead_ends`.
* `execTask_ends` — what one task on the loop thread does.
-/

namespace Tudou

/-- `s'` differs from `s` at most in the buffers, the pending file, the interest and the wire. -/
structure Frame (s s' : Session) : Prop where
  isClosed : s'.conn.isClosed = s.conn.isClosed
  registered : s'.conn.registered = s.conn.registered
  passed : s'.passed = s.passed
  trace : s'.trace = s.trace

theorem Frame.refl (s : Session) : Frame s s := ⟨rfl, rfl, rfl, rfl⟩

theorem Frame.trans {s₁ s₂ s₃ : Session} (h : Frame s₁ s₂) (h' : Frame s₂ s₃) : Frame s₁ s₃ :=
  ⟨h'.isClosed.trans h.isClosed, h'.registered.trans h.registered, h'.passed.trans h.passed,
    h'.trace.trans h.trace⟩

/-- With `xs` appended to what is unsent in `s`, the first `n` bytes of it went out. -/
structure Sends (n : Nat) (xs : Bytes) (s s' : Session) : Prop where
  le : n ≤ s.conn.unsent.length + xs.length
  wire : s'.wire = s.wire ++ (s.conn.unsent ++ xs).take n
  unsent : s'.conn.unsent = (s.conn.unsent ++ xs).drop n

theorem Sends.nothing {s s' : Session} (hw : s'.wire = s.wire) (hu : s'.conn.unsent = s.conn.unsent) :
    Sends 0 [] s s' :=
  ⟨Nat.zero_le _, by simp [hw], by simp [hu]⟩

theorem Sends.trans {n m : Nat} {xs : Bytes} {s₁ s₂ s₃ : Session} (h : Sends n xs s₁ s₂)
    (h' : Sends m [] s₂ s₃) : Sends (n + m) xs s₁ s₃ where
  le := by
    have hm := h'.le
    have hn := h.le
    rw [h.unsent, List.length_drop, List.length_append, List.length_nil] at hm
    omega
  wire := by
    rw [h'.wire, h.wire, h.unsent, List.append_nil, List.append_assoc, ← List.take_add]
  unsent := by rw [h'.unsent, h.unsent, List.append_nil, List.drop_drop]

namespace TcpConnection

theorem unsent_of_none {c : TcpConnection} (h : c.pendingFile = none) :
    c.unsent = c.writeBuffer.readable := by
  simp only [unsent, h, Option.map_none, Option.getD_none, List.append_nil]

theorem unsent_of_some {c : TcpConnection} {p : PendingFileSend} (h : c.pendingFile = some p) :
    c.unsent = c.writeBuffer.readable ++ p.unsent := by
  simp only [unsent, h, Option.map_some, Option.getD_some]

theorem unsent_of_segment {c : TcpConnection} {file : ScopedFd} {size offset : Nat}
    (h : c.pendingFile = some ⟨file, offset, size⟩) :
    c.unsent = c.writeBuffer.readable ++ file.segment size offset :=
  unsent_of_some h

theorem hasPendingFile_eq_false {c : TcpConnection} :
    c.hasPendingFile = false ↔ c.pendingFile = none := by
  rw [hasPendingFile, Option.isSome_eq_false_iff, Option.isNone_iff_eq_none]

theorem hasPendingFile_of_some {c : TcpConnection} {p : PendingFileSend}
    (h : c.pendingFile = some p) : c.hasPendingFile = true := by
  rw [hasPendingFile, h, Option.isSome_some]

/-- `EPOLLOUT` is asked for exactly while the buffer or a pending file has something to send. -/
def WriteInterest (c : TcpConnection) : Prop :=
  c.channel.isWriting = true ↔ 0 < c.writeBuffer.readableBytes ∨ c.hasPendingFile = true

/-- Before the end of `on_write`: the buffer is empty, and the interest is right if a file is
still pending. -/
def Drained (c : TcpConnection) : Prop :=
  c.writeBuffer.readable = [] ∧ (c.hasPendingFile = true → c.channel.isWriting = true)

/-- What holds of the interest when the tasks `ts` remain. -/
def InterestAt (ts : List Task) (c : TcpConnection) : Prop :=
  match ts with
  | .onWriteRest :: _ => Drained c
  | _ => WriteInterest c

theorem readableBytes_pos {c : TcpConnection} :
    0 < c.writeBuffer.readableBytes ↔ c.writeBuffer.readable ≠ [] := by
  rw [Nat.pos_iff_ne_zero, Ne, Buffer.readableBytes_eq_zero]

theorem WriteInterest.of_left {c : TcpConnection} (hw : c.channel.isWriting = true)
    (h : c.writeBuffer.readable ≠ [] ∨ c.hasPendingFile = true) : WriteInterest c :=
  iff_of_true hw (h.imp_left readableBytes_pos.mpr)

theorem WriteInterest.of_nothing {c : TcpConnection} (hw : c.channel.isWriting = false)
    (hb : c.writeBuffer.readable = []) (hp : c.pendingFile = none) : WriteInterest c := by
  refine iff_of_false (by simp [hw]) ?_
  rintro (h | h)
  · exact readableBytes_pos.mp h hb
  · rw [hasPendingFile_eq_false.mpr hp] at h
    cases h

end TcpConnection

open TcpConnection

theorem PendingFileSend.length_unsent (p : PendingFileSend) : p.unsent.length ≤ p.remaining := by
  rw [unsent, ScopedFd.segment, List.length_take]
  exact Nat.min_le_left _ _

theorem PendingFileSend.unsent_advance (p : PendingFileSend) (n : Nat) :
    ({ p with offset := p.offset + n, remaining := p.remaining - n } : PendingFileSend).unsent
      = p.unsent.drop n := by
  simp only [unsent, ScopedFd.segment, List.drop_take, List.drop_drop]

theorem offer_some {s s' : Session} {data : Bytes} {r : WriteResult} (h : s.offer data r = some s') :
    r.count ≤ data.length ∧ s' = { s with wire := s.wire ++ data.take r.count } := by
  unfold Session.offer at h
  split at h
  · rename_i hle
    cases h
    exact ⟨hle, rfl⟩
  · cases h

theorem WriteResult.count_of_fatal {r : WriteResult} (h : r.fatal = true) : r.count = 0 := by
  cases r with
  | accepted n => cases h
  | failed e => rfl

/-- A call that failed has put nothing on the wire. -/
theorem offer_count_zero {s s' : Session} {data : Bytes} {r : WriteResult}
    (h : s.offer data r = some s') (hr : r.count = 0) : s' = s := by
  rw [(offer_some h).2, hr, List.take_zero, List.append_nil]

/-- A task that reaches no callback that is set, once the connection is closed. -/
def Task.Calm (c : TcpConnection) : Task → Prop
  | .closeConnection | .user _ | .ret => True
  | .sendFileRest | .onWriteRest => c.hasPendingFile = true ∨ c.registered .writeComplete = false
  | .callback cb => cb ≠ .close ∧ c.registered cb = false
  | .request _ | .handler _ => False

/-- The tasks that can follow a body that met no error. -/
def followUps : List Task :=
  [.callback .message, .callback .writeComplete, .callback .highWaterMark, .sendFileRest,
    .onWriteRest, .closeConnection]

/-- **How a body can end**, with `xs` passed to it and `r` the answer of `sendfile`. -/
inductive Ends (xs : Bytes) (r : WriteResult) (s : Session) : Session → List Task → Prop where
  /-- The connection was closed already. -/
  | ignored : s.conn.isClosed = true → Ends xs r s s []
  /-- The error is reported, the connection closes, and what is left does nothing. -/
  | failed {s' : Session} {ts : List Task} : Frame s s' → (∀ t ∈ ts, t.Calm s'.conn) →
      Ends xs r s s' (errorPath ++ ts)
  /-- Some bytes went out, and the rest is accounted for. -/
  | sent {s' : Session} {ts : List Task} : Frame s s' →
      (r ≠ .accepted 0 → ∃ n, Sends n xs s s') →
      (WriteInterest s.conn → InterestAt ts s'.conn) →
      (ts = [] ∨ ∃ t ∈ followUps, ts = [t]) → Ends xs r s s' ts

theorem Ends.frame {xs : Bytes} {r : WriteResult} {s s' : Session} {ts : List Task}
    (h : Ends xs r s s' ts) : Frame s s' := by
  cases h with
  | ignored _ => exact Frame.refl s
  | failed hf _ => exact hf
  | sent hf _ _ _ => exact hf

/-! ## `send_in_loop` -/

theorem queueUnsent_ends {oldLen writtenLen : Nat} {msg : Bytes} {s s' : Session} {ts : List Task}
    (h : queueUnsent oldLen writtenLen msg s = (s', ts)) :
    Frame s s' ∧ s'.wire = s.wire ∧ s'.conn.pendingFile = s.conn.pendingFile ∧
      s'.conn.writeBuffer.readable = s.conn.writeBuffer.readable ++ msg.drop writtenLen ∧
      s'.conn.channel.isWriting = true ∧ (ts = [] ∨ ts = [.callback .highWaterMark]) := by
  unfold queueUnsent at h
  obtain ⟨rfl, rfl⟩ := Prod.mk.inj h
  refine ⟨?_, ?_, ?_, ?_, rfl, (ite_eq_or_eq _ _ _).symm⟩
  · split <;> exact ⟨rfl, rfl, rfl, rfl⟩
  · split <;> rfl
  · split <;> rfl
  · split
    · simp [Session.modify, enableWriting]
    · rename_i hlen
      rw [List.drop_of_length_le (by omega), List.append_nil]
      rfl

/-- The paths of `send_in_loop` that queue: `n` bytes of backlog and message are out, and the
`written` first bytes of the message need no room in the buffer. -/
theorem Ends.of_queueUnsent {n oldLen written : Nat} {msg : Bytes} {r : WriteResult}
    {s s₁ s' : Session} {ts : List Task} (h : queueUnsent oldLen written msg s₁ = (s', ts))
    (hp : s.conn.pendingFile = none) (hf : Frame s s₁) (hp₁ : s₁.conn.pendingFile = none)
    (hn : n ≤ s.conn.writeBuffer.readable.length + msg.length)
    (hw : s₁.wire = s.wire ++ (s.conn.writeBuffer.readable ++ msg).take n)
    (hr : s₁.conn.writeBuffer.readable ++ msg.drop written =
      (s.conn.writeBuffer.readable ++ msg).drop n)
    (hleft : WriteInterest s.conn → n < s.conn.writeBuffer.readable.length + msg.length) :
    Ends msg r s s' ts := by
  obtain ⟨hf', hw', hp', hr', hi, hts⟩ := queueUnsent_ends h
  have hu := unsent_of_none hp
  have hp'' := hp'.trans hp₁
  refine .sent (hf.trans hf') (fun _ => ⟨n, ?_, ?_, ?_⟩) ?_ ?_
  · rw [hu]; exact hn
  · rw [hw', hw, hu]
  · rw [unsent_of_none hp'', hr', hr, hu]
  · intro hs
    have hne : s'.conn.writeBuffer.readable ≠ [] := by
      intro hnil
      rw [hr', hr, List.drop_eq_nil_iff, List.length_append] at hnil
      exact absurd (hleft hs) (by omega)
    rcases hts with rfl | rfl <;> exact .of_left hi (.inl hne)
  · rcases hts with rfl | rfl
    · exact .inl rfl
    · exact .inr ⟨_, by decide, rfl⟩

/-- The paths of `send_in_loop` on which backlog and message are out. -/
theorem Ends.of_complete {msg : Bytes} {r : WriteResult} {s s' : Session}
    (hp : s.conn.pendingFile = none) (hf : Frame s s') (hp' : s'.conn.pendingFile = none)
    (hw : s'.wire = s.wire ++ (s.conn.writeBuffer.readable ++ msg))
    (hr : s'.conn.writeBuffer.readable = []) (hi : s'.conn.channel.isWriting = false) :
    Ends msg r s s' [.callback .writeComplete] := by
  refine .sent hf (fun _ => ⟨(s.conn.writeBuffer.readable ++ msg).length, ?_, ?_, ?_⟩)
    (fun _ => .of_nothing hi hr hp') (.inr ⟨_, by decide, rfl⟩)
  · rw [unsent_of_none hp]; exact Nat.le_of_eq List.length_append
  · rw [unsent_of_none hp, List.take_length, hw]
  · rw [unsent_of_none hp, unsent_of_none hp', List.drop_length, hr]

theorem Ends.error {xs : Bytes} {r : WriteResult} (s : Session) : Ends xs r s s errorPath := by
  have hcalm : ∀ t ∈ ([] : List Task), t.Calm s.conn := fun _ h => by cases h
  exact .failed (Frame.refl s) hcalm

theorem sendInLoop_ends {msg : Bytes} {r r' : WriteResult} {s s' : Session} {ts : List Task}
    (h : sendInLoop msg r s = some (s', ts)) : Ends msg r' s s' ts := by
  unfold sendInLoop at h
  split at h
  · rename_i hc
    cases h
    exact .ignored hc
  split at h
  · cases h
    exact .error s
  rename_i hp
  have hp : s.conn.pendingFile = none :=
    hasPendingFile_eq_false.mp (Bool.not_eq_true _ ▸ hp)
  have hlen := Buffer.length_readable s.conn.writeBuffer
  simp only at h
  split at h
  · -- nothing queued: the message is written directly
    rename_i hidle
    have hnil := Buffer.readableBytes_eq_zero.mp hidle.1
    split at h
    · cases h
    rename_i s₁ ho
    obtain ⟨hle, hs₁⟩ := offer_some ho
    split at h
    · rename_i hr
      cases h
      rw [offer_count_zero ho (WriteResult.count_of_fatal hr)]
      exact .error s
    split at h
    · rename_i hall
      cases h
      subst hs₁
      exact .of_complete hp ⟨rfl, rfl, rfl, rfl⟩ hp (by simp [hnil, hall]) hnil hidle.2
    · rename_i hpart
      subst hs₁
      refine .of_queueUnsent (n := r.count) (Option.some.inj h) hp ⟨rfl, rfl, rfl, rfl⟩ hp (by omega)
        ?_ ?_ fun _ => ?_
      · simp [hnil]
      · simp [hnil]
      · rw [hnil, List.length_nil]; omega
  split at h
  · -- a backlog: it is written together with the message
    rename_i hidle hback
    split at h
    · cases h
    rename_i s₁ ho
    obtain ⟨hle, hs₁⟩ := offer_some ho
    rw [List.length_append] at hle
    split at h
    · rename_i hr
      cases h
      rw [offer_count_zero ho (WriteResult.count_of_fatal hr)]
      exact .error s
    split at h
    · rw [offer_count_zero ho rfl] at h
      exact .of_queueUnsent (n := 0) (Option.some.inj h) hp (Frame.refl s) hp (by omega) (by simp) rfl
        fun _ => by omega
    rename_i n _
    simp only [WriteResult.count] at hle hs₁
    subst hs₁
    split at h
    · rename_i hold
      have hold' : s.conn.writeBuffer.readable.length ≤ n := by omega
      split at h
      · rename_i hall
        cases h
        have hn : n = (s.conn.writeBuffer.readable ++ msg).length := by
          rw [List.length_append]; omega
        refine .of_complete hp ⟨rfl, rfl, rfl, rfl⟩ hp ?_ ?_ rfl
        · simp only [Session.modify]
          rw [hn, List.take_length]
        · simp only [Session.modify, disableWriting, Buffer.readable_advanceReadIndex]
          rw [← hlen, List.drop_length]
      · rename_i hpart
        refine .of_queueUnsent (n := n) (Option.some.inj h) hp ⟨rfl, rfl, rfl, rfl⟩ hp hle rfl ?_
          fun _ => by omega
        simp only [Session.modify, Buffer.readable_advanceReadIndex]
        rw [List.drop_append, ← hlen, List.drop_length, List.drop_of_length_le hold']
    · rename_i hpart
      refine .of_queueUnsent (n := n) (Option.some.inj h) hp ⟨rfl, rfl, rfl, rfl⟩ hp hle rfl ?_
        fun _ => by omega
      simp only [Session.modify, Buffer.readable_advanceReadIndex, List.drop_zero]
      rw [List.drop_append_of_le_length (by omega)]
  · -- nothing queued but `EPOLLOUT` on: impossible while the interest is right
    rename_i hidle hback
    refine .of_queueUnsent (n := 0) (Option.some.inj h) hp (Frame.refl s) hp (by omega) (by simp) rfl
      fun hs => ?_
    have hzero : s.conn.writeBuffer.readableBytes = 0 := by omega
    have hwr : s.conn.channel.isWriting = true := by
      by_contra hno
      exact hidle ⟨hzero, Bool.eq_false_iff.mpr hno⟩
    rcases hs.mp hwr with hpos | hfile
    · omega
    · rw [hasPendingFile_eq_false.mpr hp] at hfile
      cases hfile

/-- What `send_in_loop` writes: nothing, on a connection that is closed, has a file pending or waits
for `EPOLLOUT` without a backlog; elsewhere it offers the backlog and the message together. -/
theorem sendInLoop_wire {msg : Bytes} {r : WriteResult} {s s' : Session} {ts : List Task}
    (h : sendInLoop msg r s = some (s', ts)) :
    s'.wire = s.wire ∧ (s.conn.isClosed = true ∨ s.conn.hasPendingFile = true ∨
        s.conn.writeBuffer.readableBytes = 0 ∧ s.conn.channel.isWriting = true) ∨
      s'.wire = s.wire ++ (s.conn.writeBuffer.readable ++ msg).take r.count ∧
        r.count ≤ (s.conn.writeBuffer.readable ++ msg).length := by
  unfold sendInLoop at h
  split at h
  · rename_i hclosed
    cases h
    exact .inl ⟨rfl, .inl hclosed⟩
  split at h
  · rename_i hpending
    cases h
    exact .inl ⟨rfl, .inr (.inl hpending)⟩
  simp only at h
  split at h
  · -- nothing queued: the message alone
    rename_i hidle
    rw [Buffer.readableBytes_eq_zero.mp hidle.1, List.nil_append]
    split at h
    · cases h
    rename_i s₁ ho
    obtain ⟨hle, rfl⟩ := offer_some ho
    refine .inr ⟨?_, hle⟩
    split at h
    · cases h
      rfl
    split at h
    · cases h
      rfl
    · exact (queueUnsent_ends (Option.some.inj h)).2.1
  split at h
  · split at h
    · cases h
    rename_i s₁ ho
    obtain ⟨hle, rfl⟩ := offer_some ho
    refine .inr ⟨?_, hle⟩
    split at h
    · cases h
      rfl
    split at h
    · exact (queueUnsent_ends (Option.some.inj h)).2.1
    split at h
    · split at h
      · cases h
        rfl
      · exact (queueUnsent_ends (Option.some.inj h)).2.1
    · exact (queueUnsent_ends (Option.some.inj h)).2.1
  · rename_i hidle hback
    have hzero : s.conn.writeBuffer.readableBytes = 0 := Nat.eq_zero_of_not_pos hback
    refine .inl ⟨(queueUnsent_ends (Option.some.inj h)).2.1, .inr (.inr ⟨hzero, ?_⟩)⟩
    by_contra hno
    exact hidle ⟨hzero, Bool.eq_false_iff.mpr hno⟩

/-! ## Files -/

/-- How `send_pending_file_in_loop()` can end with `p` pending and the write buffer empty. -/
inductive PendingEnds (p : PendingFileSend) (r : WriteResult) (s : Session) :
    Session → List Task → Prop where
  | failed {e : Errno} : r = .failed e → e ≠ .eagain → PendingEnds p r s s errorPath
  /-- The segment is out; a `sendfile` of nothing gives it up. -/
  | finished {n : Nat} {s' : Session} : r = .accepted n → n = 0 ∨ p.remaining ≤ n → Frame s s' →
      s'.conn.writeBuffer = s.conn.writeBuffer → s'.conn.pendingFile = none →
      s'.conn.channel = s.conn.channel →
      (r ≠ .accepted 0 → ∃ n, Sends n [] s s') → PendingEnds p r s s' []
  | remaining {s' : Session} : Frame s s' → s'.conn.writeBuffer = s.conn.writeBuffer →
      s'.conn.hasPendingFile = true → s'.conn.channel.isWriting = true →
      (r ≠ .accepted 0 → ∃ n, Sends n [] s s') → PendingEnds p r s s' []

theorem sendPendingFileInLoop_ends {r : WriteResult} {s s' : Session} {ts : List Task}
    {p : PendingFileSend} (h : sendPendingFileInLoop r s = some (s', ts))
    (hp : s.conn.pendingFile = some p) (hb : s.conn.writeBuffer.readable = []) :
    PendingEnds p r s s' ts := by
  have hu : s.conn.unsent = p.unsent := by rw [unsent_of_some hp, hb, List.nil_append]
  unfold sendPendingFileInLoop at h
  rw [hp] at h
  simp only at h
  split at h
  · cases h
  rename_i s₁ ho
  obtain ⟨hle, hs₁⟩ := offer_some ho
  split at h
  · rename_i e
    rw [offer_count_zero ho rfl] at h
    split at h
    · cases h
      refine .remaining ⟨rfl, rfl, rfl, rfl⟩ rfl (hasPendingFile_of_some hp) rfl fun _ => ⟨0, ?_⟩
      exact .nothing rfl rfl
    · rename_i he
      cases h
      exact .failed rfl he
  rename_i n
  simp only [WriteResult.count] at hle hs₁
  subst hs₁
  split at h
  · rename_i hlast
    cases h
    refine .finished rfl (by omega) ⟨rfl, rfl, rfl, rfl⟩ rfl rfl rfl fun hr => ⟨n, ?_, ?_, ?_⟩
    · rw [hu, List.length_nil]; omega
    · rw [hu, List.append_nil]; rfl
    · -- `n = remaining`, so the whole segment is out
      have hrem := p.length_unsent
      have hn : n ≠ 0 := fun h0 => hr (congrArg WriteResult.accepted h0)
      rw [hu, List.append_nil, List.drop_of_length_le (by omega), unsent_of_none rfl]
      exact hb
  · cases h
    refine .remaining ⟨rfl, rfl, rfl, rfl⟩ rfl rfl rfl fun _ => ⟨n, ?_, ?_, ?_⟩
    · rw [hu, List.length_nil]; omega
    · rw [hu, List.append_nil]; rfl
    · rw [hu, List.append_nil, ← p.unsent_advance, unsent_of_some rfl]
      simp [Session.modify, enableWriting, hb]

theorem sendFileInLoop_ends {file : ScopedFd} {size offset : Nat} {r : WriteResult} {s s' : Session}
    {ts : List Task} (h : sendFileInLoop file size offset r s = some (s', ts)) :
    Ends (file.segment size offset) r s s' ts := by
  unfold sendFileInLoop at h
  split at h
  · rename_i hno
    cases h
    rcases hno with hc | rfl
    · exact .ignored hc
    · refine .sent (Frame.refl s) (fun _ => ⟨0, ?_⟩) id (.inl rfl)
      rw [show file.segment 0 offset = [] from List.take_zero]
      exact .nothing rfl rfl
  split at h
  · cases h; exact .error s
  split at h
  · cases h; exact .error s
  split at h
  · cases h; exact .error s
  rename_i hp
  have hp : s.conn.pendingFile = none :=
    hasPendingFile_eq_false.mp (Bool.not_eq_true _ ▸ hp)
  simp only at h
  split at h
  · -- something is in front of the file: it stays pending
    rename_i hq
    cases h
    refine .sent ⟨rfl, rfl, rfl, rfl⟩ (fun _ => ⟨0, ?_, ?_, ?_⟩) (fun _ => ?_) (.inl rfl)
    · omega
    · simp [Session.modify]
    · rw [unsent_of_none hp, List.drop_zero]
      exact unsent_of_segment rfl
    · exact .of_left rfl (.inr rfl)
  · rename_i hq
    obtain ⟨hb, hi⟩ := not_or.mp hq
    have hnil : s.conn.writeBuffer.readable = [] := Buffer.readableBytes_eq_zero.mp (by
      simp only [Session.modify] at hb; omega)
    split at h
    · cases h
    rename_i s₂ ts₂ h₂
    cases h
    -- the pending segment alone is what is unsent
    have hsend : ∀ n, Sends n [] (s.modify fun c => { c with pendingFile := some ⟨file, offset, size⟩ }) s' →
        Sends n (file.segment size offset) s s' := by
      intro n hn
      have hu : (s.modify fun c => { c with pendingFile := some ⟨file, offset, size⟩ }).conn.unsent
          = s.conn.unsent ++ file.segment size offset := by
        rw [unsent_of_none hp]
        exact unsent_of_segment rfl
      refine ⟨?_, ?_, ?_⟩
      · have := hn.le
        rw [hu, List.length_append, List.length_nil] at this
        omega
      · rw [hn.wire, hu, List.append_nil]; rfl
      · rw [hn.unsent, hu, List.append_nil]
    have hf₀ : Frame s (s.modify fun c => { c with pendingFile := some ⟨file, offset, size⟩ }) :=
      ⟨rfl, rfl, rfl, rfl⟩
    cases sendPendingFileInLoop_ends h₂ rfl hnil with
    | failed _ _ =>
      refine .failed hf₀ fun t ht => ?_
      rw [List.mem_singleton.mp ht]
      exact .inl rfl
    | finished _ _ hf hwb hp' hc hn =>
      refine .sent (hf₀.trans hf) (fun hr => ?_) (fun _ => ?_) (.inr ⟨_, by decide, rfl⟩)
      · obtain ⟨n, hn⟩ := hn hr
        exact ⟨n, hsend n hn⟩
      · refine .of_nothing ?_ (by rw [hwb]; exact hnil) hp'
        rw [hc]
        exact Bool.eq_false_iff.mpr hi
    | remaining hf hwb hp' hi' hn =>
      refine .sent (hf₀.trans hf) (fun hr => ?_) (fun _ => .of_left hi' (.inr hp'))
        (.inr ⟨_, by decide, rfl⟩)
      obtain ⟨n, hn⟩ := hn hr
      exact ⟨n, hsend n hn⟩

theorem sendFileWithHeaderInLoop_ends {header : Bytes} {file : ScopedFd} {size offset : Nat}
    {r r' : WriteResult} {s s' : Session} {ts : List Task}
    (h : sendFileWithHeaderInLoop header file size offset r s = some (s', ts)) :
    Ends (header ++ file.segment size offset) r' s s' ts := by
  unfold sendFileWithHeaderInLoop at h
  split at h
  · rename_i hc
    cases h
    exact .ignored hc
  split at h
  · rename_i hsize
    rw [hsize, show file.segment 0 offset = [] from List.take_zero, List.append_nil]
    exact sendInLoop_ends h
  split at h
  · cases h; exact .error s
  split at h
  · cases h; exact .error s
  split at h
  · cases h; exact .error s
  rename_i hp
  have hp : s.conn.pendingFile = none :=
    hasPendingFile_eq_false.mp (Bool.not_eq_true _ ▸ hp)
  obtain ⟨rfl, rfl⟩ := Prod.mk.inj (Option.some.inj h)
  have hts := (ite_eq_or_eq (s.conn.registered .highWaterMark = true ∧
    s.conn.writeBuffer.readableBytes < s.conn.highWaterMark ∧
    s.conn.highWaterMark ≤ (s.conn.writeBuffer.writeToBuffer header).readableBytes)
    [Task.callback .highWaterMark] []).symm
  refine .sent ⟨rfl, rfl, rfl, rfl⟩ (fun _ => ⟨0, ?_, ?_, ?_⟩) (fun _ => ?_) ?_
  · omega
  · simp [Session.modify]
  · rw [unsent_of_none hp, List.drop_zero, ← List.append_assoc, ← Buffer.readable_writeToBuffer]
    exact unsent_of_segment rfl
  · rcases hts with hts | hts <;> erw [hts] <;> exact .of_left rfl (.inr rfl)
  · rcases hts with hts | hts
    · exact .inl hts
    · exact .inr ⟨_, by decide, hts⟩

/-! ## Event handlers -/

theorem onWriteRest_ends {s s' : Session} {ts : List Task} (h : onWriteRest s = (s', ts)) :
    (s.conn.hasPendingFile = true ∧ s' = s ∧ ts = []) ∨
      (s.conn.pendingFile = none ∧ s' = s.modify disableWriting ∧ ts = [.callback .writeComplete]) := by
  unfold onWriteRest at h
  split at h
  · rename_i hp
    cases h
    exact .inl ⟨hp, rfl, rfl⟩
  · rename_i hp
    cases h
    exact .inr ⟨hasPendingFile_eq_false.mp (Bool.not_eq_true _ ▸ hp), rfl, rfl⟩

/-- The part of `on_write` after the write buffer is drained, into it with `n` bytes sent. -/
theorem onWriteFile_ends {n : Nat} {r : WriteResult} {s s₁ s' : Session} {ts : List Task}
    (h : onWriteFile r s₁ = some (s', ts)) (hf : Frame s s₁) (hn : Sends n [] s s₁)
    (hb : s₁.conn.writeBuffer.readable = []) : Ends [] r s s' ts := by
  unfold onWriteFile at h
  split at h
  · rename_i hp
    obtain ⟨p, hp⟩ := Option.isSome_iff_exists.mp hp
    split at h
    · cases h
    rename_i s₂ ts₂ h₂
    cases h
    cases sendPendingFileInLoop_ends h₂ hp hb with
    | failed _ _ =>
      refine .failed hf fun t ht => ?_
      rw [List.mem_singleton.mp ht]
      exact .inl (hasPendingFile_of_some hp)
    | finished _ _ hf' hwb hp' hc hm =>
      refine .sent (hf.trans hf') (fun hr => ?_) (fun _ => ⟨by rw [hwb]; exact hb, fun hp'' => ?_⟩)
        (.inr ⟨_, by decide, rfl⟩)
      · obtain ⟨m, hm⟩ := hm hr
        exact ⟨n + m, hn.trans hm⟩
      · rw [hasPendingFile_eq_false.mpr hp'] at hp''
        cases hp''
    | remaining hf' hwb hp' hi' hm =>
      refine .sent (hf.trans hf') (fun hr => ?_) (fun _ => ⟨by rw [hwb]; exact hb, fun _ => hi'⟩)
        (.inr ⟨_, by decide, rfl⟩)
      obtain ⟨m, hm⟩ := hm hr
      exact ⟨n + m, hn.trans hm⟩
  · rename_i hp
    rcases onWriteRest_ends (Option.some.inj h) with ⟨hp', _⟩ | ⟨hp', rfl, rfl⟩
    · exact absurd hp' hp
    · refine .sent (hf.trans ⟨rfl, rfl, rfl, rfl⟩) (fun _ => ⟨n, hn.le, hn.wire, hn.unsent⟩)
        (fun _ => .of_nothing rfl hb hp') (.inr ⟨_, by decide, rfl⟩)

theorem onWrite_ends {k : Syscalls} {s s' : Session} {ts : List Task}
    (h : onWrite k s = some (s', ts)) : Ends [] k.sendfile s s' ts := by
  unfold onWrite at h
  split at h
  · rename_i hback
    split at h
    · cases h
    rename_i s₁ ho
    obtain ⟨hle, hs₁⟩ := offer_some ho
    split at h
    · rename_i e hk
      rw [hk] at ho
      rw [offer_count_zero ho rfl] at h
      obtain ⟨rfl, rfl⟩ := Prod.mk.inj (Option.some.inj h)
      split
      · exact .sent (Frame.refl _) (fun _ => ⟨0, .nothing rfl rfl⟩) id (.inl rfl)
      · exact .error _
    rename_i n hk
    rw [hk] at hle hs₁
    simp only [WriteResult.count] at hle hs₁
    -- `n` bytes of the buffer are out
    have hsend : ∀ c : TcpConnection, c.pendingFile = s.conn.pendingFile →
        c.writeBuffer.readable = s.conn.writeBuffer.readable.drop n →
        Sends n [] s { s₁ with conn := c } := by
      intro c hp hr
      refine ⟨?_, ?_, ?_⟩
      · rw [unsent, List.length_append]; omega
      · rw [hs₁, List.append_nil, unsent, List.take_append_of_le_length hle]
      · rw [List.append_nil, unsent, unsent, hr, hp, List.drop_append_of_le_length hle]
    simp only at h
    subst hs₁
    split at h
    · rename_i hmore
      cases h
      refine .sent ⟨rfl, rfl, rfl, rfl⟩ (fun _ => ⟨n, hsend _ rfl (Buffer.writeToFd_accepted _ _)⟩)
        (fun hi => ?_) (.inl rfl)
      exact .of_left (hi.mpr (.inl hback)) (.inl (readableBytes_pos.mp hmore))
    · rename_i hempty
      exact onWriteFile_ends h ⟨rfl, rfl, rfl, rfl⟩ (hsend _ rfl (Buffer.writeToFd_accepted _ _))
        (Buffer.readableBytes_eq_zero.mp (by omega))
  · rename_i hback
    exact onWriteFile_ends h (Frame.refl s) (.nothing rfl rfl)
      (Buffer.readableBytes_eq_zero.mp (by omega))

theorem onRead_ends {k : ReadResult} {r : WriteResult} {s s' : Session} {ts : List Task}
    (h : onRead k s = some (s', ts)) : Ends [] r s s' ts := by
  unfold onRead at h
  split at h
  · obtain ⟨rfl, rfl⟩ := Prod.mk.inj (Option.some.inj h)
    split
    · exact .sent (Frame.refl _) (fun _ => ⟨0, .nothing rfl rfl⟩) id (.inl rfl)
    · exact .error _
  · split at h
    · cases h
    obtain ⟨rfl, rfl⟩ := Prod.mk.inj (Option.some.inj h)
    refine .sent ⟨rfl, rfl, rfl, rfl⟩ (fun _ => ⟨0, .nothing rfl rfl⟩) (fun hi => ?_) ?_
    · split <;> exact hi
    · split
      · exact .inr ⟨_, by decide, rfl⟩
      · exact .inr ⟨_, by decide, rfl⟩

/-! ## Tasks -/

/-- The bytes a task adds to the output stream. -/
def Task.payload : Task → Bytes
  | .request r => r.payload
  | _ => []

/-- What has been passed in once the task has started. -/
def Session.pass (s : Session) (t : Task) : Session := { s with passed := s.passed ++ t.payload }

theorem Session.pass_nil {t : Task} (h : t.payload = []) (s : Session) : s.pass t = s := by
  simp [pass, h]

/-- The tasks that are bodies or parts of one. -/
def Task.isBody : Task → Bool
  | .request _ | .handler _ | .sendFileRest => true
  | _ => false

theorem Task.Calm.mono {c c' : TcpConnection} {t : Task} (h : t.Calm c)
    (hr : c'.registered = c.registered)
    (hp : c.hasPendingFile = true → c'.hasPendingFile = true) : t.Calm c' := by
  cases t with
  | closeConnection | user _ | ret => trivial
  | sendFileRest | onWriteRest => exact h.imp hp fun h => by rw [hr]; exact h
  | callback cb => exact ⟨h.1, by rw [hr]; exact h.2⟩
  | request _ | handler _ => exact h.elim

/-- **What one task does**, up to its next callback. -/
inductive TaskEnds (t : Task) (k : Syscalls) (s : Session) : Session → List Task → Prop where
  | body {s' : Session} {ts : List Task} : t.isBody = true →
      Ends t.payload k.sendfile (s.pass t) s' ts → TaskEnds t k s s' ts
  | finishing {s' : Session} {ts : List Task} : t = .onWriteRest → onWriteRest s = (s', ts) →
      TaskEnds t k s s' ts
  | invoked {cb : Callback} : t = .callback cb → s.conn.registered cb = true →
      TaskEnds t k s { s with trace := s.trace ++ [cb] } [.user cb]
  | skipped {cb : Callback} : t = .callback cb → s.conn.registered cb = false → TaskEnds t k s s []
  | closedAlready : t = .closeConnection → s.conn.isClosed = true → TaskEnds t k s s []
  | closed : t = .closeConnection → s.conn.isClosed = false →
      TaskEnds t k s
        (s.modify fun c => { c with isClosed := true, channel := c.channel.disableAll })
        [.callback .close]

theorem serve_ends {r : Request} {k : Syscalls} {s s' : Session} {ts : List Task}
    (h : serve r k s = some (s', ts)) : Ends r.payload k.sendfile s s' ts := by
  cases r with
  | send msg => exact sendInLoop_ends h
  | sendFile file size offset => exact sendFileInLoop_ends h
  | sendFileWithHeader header file size offset => exact sendFileWithHeaderInLoop_ends h
  | forceClose =>
    cases h
    exact .sent (Frame.refl s) (fun _ => ⟨0, .nothing rfl rfl⟩) id (.inr ⟨_, by decide, rfl⟩)
  | receive =>
    cases h
    exact .sent ⟨rfl, rfl, rfl, rfl⟩ (fun _ => ⟨0, .nothing rfl rfl⟩) id (.inl rfl)

theorem handle_ends {e : Handler} {k : Syscalls} {s s' : Session} {ts : List Task}
    (h : handle e k s = some (s', ts)) : Ends [] k.sendfile s s' ts := by
  cases e with
  | close =>
    cases h
    exact .sent (Frame.refl s) (fun _ => ⟨0, .nothing rfl rfl⟩) id (.inr ⟨_, by decide, rfl⟩)
  | error => cases h; exact .error s
  | read => exact onRead_ends h
  | write => exact onWrite_ends h

theorem execTask_ends {t : Task} {k : Syscalls} {s s' : Session} {ts : List Task}
    (h : execTask t k s = some (s', ts)) : TaskEnds t k s s' ts := by
  cases t with
  | request r => exact .body rfl (serve_ends h)
  | handler e =>
    refine .body rfl ?_
    rw [Session.pass_nil rfl]
    exact handle_ends h
  | callback cb =>
    simp only [execTask, invoke] at h
    split at h
    · rename_i hcb
      cases h
      exact .invoked rfl hcb
    · rename_i hcb
      split at h
      · cases h
      · cases h
        exact .skipped rfl (Bool.eq_false_iff.mpr hcb)
  | user cb => cases h
  | closeConnection =>
    simp only [execTask, closeConnection] at h
    split at h
    · rename_i hc
      cases h
      exact .closedAlready rfl hc
    · rename_i hc
      cases h
      exact .closed rfl (Bool.eq_false_iff.mpr hc)
  | sendFileRest =>
    refine .body rfl ?_
    rw [Session.pass_nil rfl]
    obtain ⟨rfl, rfl⟩ := Prod.mk.inj (Option.some.inj h)
    refine .sent (Frame.refl _) (fun _ => ⟨0, .nothing rfl rfl⟩) (fun hi => ?_) ?_
    · split <;> exact hi
    · split
      · exact .inl rfl
      · exact .inr ⟨_, by decide, rfl⟩
  | onWriteRest => exact .finishing rfl (Option.some.inj h)
  | ret => cases h

/-- No task opens a closed connection again. -/
theorem TaskEnds.isClosed {t : Task} {k : Syscalls} {s s' : Session} {ts : List Task}
    (h : TaskEnds t k s s' ts) (hc : s.conn.isClosed = true) : s'.conn.isClosed = true := by
  cases h with
  | body _ h => exact h.frame.isClosed.trans hc
  | finishing _ h =>
    rcases onWriteRest_ends h with ⟨_, rfl, _⟩ | ⟨_, rfl, _⟩
    · exact hc
    · exact hc
  | invoked | skipped | closedAlready => exact hc
  | closed => rfl

/-! ## Steps of the loop thread -/

/-- **What one step of the loop thread does.** -/
inductive StepEnds (m : Machine) : Label → Machine → Prop where
  | events {revents : EpollEvents} : m.stack = [] → m.handlers = [] →
      StepEnds m (.events revents) { m with handlers := handleEventsWithGuard revents }
  | dispatch {h : Handler} {hs : List Handler} : m.stack = [] → m.handlers = h :: hs →
      StepEnds m .dispatch { m with stack := [.handler h, .ret], handlers := hs }
  | call {r : Request} : m.stack = [] ∨ (∃ cb rest, m.stack = .user cb :: rest) →
      StepEnds m (.call r) { m with stack := .request r :: .ret :: m.stack }
  | exec {k : Syscalls} {t : Task} {rest ts : List Task} {s : Session} : m.stack = t :: rest →
      execTask t k m.session = some (s, ts) →
      StepEnds m (.exec k) { m with session := s, stack := ts ++ rest }
  | leave {cb : Callback} {rest : List Task} : m.stack = .user cb :: rest →
      StepEnds m .leave { m with stack := rest }
  | ret {rest : List Task} : m.stack = .ret :: rest → StepEnds m .ret { m with stack := rest }

theorem Machine.step_ends {m m' : Machine} {l : Label} (h : m.step l = some m') : StepEnds m l m' := by
  unfold Machine.step at h
  split at h
  · rename_i hs
    split at h
    · rename_i hh
      cases h
      exact .events hs hh
    · cases h
  · rename_i hs
    split at h
    · cases h
    · rename_i hh
      cases h
      exact .dispatch hs hh
  · rename_i hs
    split at h
    · cases h
      rw [← hs]
      exact .call (.inl hs)
    · cases h
  · rename_i cb rest hs
    cases h
    rw [← hs]
    exact .call (.inr ⟨cb, rest, hs⟩)
  · rename_i hs
    split at h
    · cases h
    · rename_i he
      cases h
      exact .exec hs he
  · rename_i hs
    cases h
    exact .leave hs
  · rename_i hs
    cases h
    exact .ret hs
  · cases h

end Tudou
