import Tudou.Tcp.Bodies

/-!
# Bodies that meet no fault

What the bodies of an open connection do when every system call succeeds or would block, the peer
does not hang up and no response is sent behind a pending file: no error is reported, nothing is
closed, and only the read handler and `receive` touch the read buffer.

* `Syscalls.Faultless`, `Label.Faultless` — the answers of such a kernel.
* `Unhurt` — no error follows and the read buffer is as it was; `sendInLoop_unhurt`,
  `sendFileWithHeaderInLoop_unhurt`, `onWrite_unhurt`.
* `onRead_unhurt` — received bytes are appended, and the message callback follows.
-/

namespace Tudou

open TcpConnection

/-- Data, or nothing yet. -/
def ReadResult.fine : ReadResult → Bool
  | .data bytes => bytes != []
  | .failed e => e == .eagain

/-- No call fails for good, no peer has hung up, and files are as long as their segments. -/
structure Syscalls.Faultless (k : Syscalls) : Prop where
  write : k.write.fatal = false
  sendfile : k.sendfile.fatal = false
  moves : k.sendfile ≠ .accepted 0
  read : k.read.fine = true

instance (k : Syscalls) : Decidable k.Faultless :=
  decidable_of_iff (k.write.fatal = false ∧ k.sendfile.fatal = false ∧ k.sendfile ≠ .accepted 0 ∧
    k.read.fine = true)
    ⟨fun ⟨h₁, h₂, h₃, h₄⟩ => ⟨h₁, h₂, h₃, h₄⟩,
      fun ⟨h₁, h₂, h₃, h₄⟩ => ⟨h₁, h₂, h₃, h₄⟩⟩

/-- Only readiness is reported, and only faultless answers are given. -/
def Label.Faultless : Label → Prop
  | .events revents => revents.epollerr = false ∧ revents.epollhup = false
  | .exec k => k.Faultless
  | .dispatch | .call _ | .leave | .ret => True

instance : DecidablePred Label.Faultless
  | .events revents =>
    inferInstanceAs (Decidable (revents.epollerr = false ∧ revents.epollhup = false))
  | .exec k => inferInstanceAs (Decidable k.Faultless)
  | .dispatch | .call _ | .leave | .ret => inferInstanceAs (Decidable True)

/-- Readiness is dispatched to the read and write handlers. -/
theorem handlers_of_faultless {revents : EpollEvents} (h : (Label.events revents).Faultless) :
    ∀ e ∈ handleEventsWithGuard revents, e = .read ∨ e = .write := by
  obtain ⟨herr, hhup⟩ := h
  intro e he
  simp only [handleEventsWithGuard, herr, hhup, Bool.false_and, Bool.false_eq_true, if_false,
    List.nil_append, List.mem_append] at he
  rcases he with he | he
  · split at he
    · exact .inl (List.mem_singleton.mp he)
    · cases he
  · split at he
    · exact .inr (List.mem_singleton.mp he)
    · cases he

/-- No error follows, and the read buffer is as it was. -/
structure Unhurt (s s' : Session) (ts : List Task) (followUps : List Task) : Prop where
  readBuffer : s'.conn.readBuffer = s.conn.readBuffer
  tasks : ts = [] ∨ ∃ t ∈ followUps, ts = [t]

theorem queueUnsent_unhurt {oldLen writtenLen : Nat} {msg : Bytes} {s s₁ s' : Session} {ts : List Task}
    (h : queueUnsent oldLen writtenLen msg s₁ = (s', ts))
    (hread : s₁.conn.readBuffer = s.conn.readBuffer) :
    Unhurt s s' ts [.callback .writeComplete, .callback .highWaterMark] := by
  obtain ⟨-, -, -, -, -, hts⟩ := queueUnsent_ends h
  refine ⟨?_, ?_⟩
  · unfold queueUnsent at h
    obtain ⟨rfl, -⟩ := Prod.mk.inj h
    split <;> exact hread
  · rcases hts with rfl | rfl
    · exact .inl rfl
    · exact .inr ⟨_, by simp, rfl⟩

theorem sendInLoop_unhurt {msg : Bytes} {r : WriteResult} {s s' : Session} {ts : List Task}
    (h : sendInLoop msg r s = some (s', ts)) (hopen : s.conn.isClosed = false)
    (hp : s.conn.pendingFile = none) (hr : r.fatal = false) :
    Unhurt s s' ts [.callback .writeComplete, .callback .highWaterMark] := by
  unfold sendInLoop at h
  rw [if_neg (by rw [hopen]; exact nofun),
    if_neg (by rw [hasPendingFile_eq_false.mpr hp]; exact nofun)] at h
  simp only [hr, Bool.false_eq_true, if_false] at h
  have hcomplete : ∀ s₁ : Session, s₁.conn.readBuffer = s.conn.readBuffer →
      Unhurt s s₁ [.callback .writeComplete] [.callback .writeComplete, .callback .highWaterMark] :=
    fun s₁ hs₁ => ⟨hs₁, .inr ⟨_, List.mem_cons_self, rfl⟩⟩
  split at h
  · split at h
    · cases h
    rename_i s₁ ho
    have hread : s₁.conn.readBuffer = s.conn.readBuffer := by rw [(offer_some ho).2]
    split at h
    · cases h
      exact hcomplete _ hread
    · exact queueUnsent_unhurt (Option.some.inj h) hread
  split at h
  · split at h
    · cases h
    rename_i s₁ ho
    have hread : s₁.conn.readBuffer = s.conn.readBuffer := by rw [(offer_some ho).2]
    split at h
    · exact queueUnsent_unhurt (Option.some.inj h) hread
    split at h
    · split at h
      · cases h
        exact hcomplete _ hread
      · exact queueUnsent_unhurt (Option.some.inj h) hread
    · exact queueUnsent_unhurt (Option.some.inj h) hread
  · exact queueUnsent_unhurt (Option.some.inj h) rfl

theorem sendFileWithHeaderInLoop_unhurt {header : Bytes} {file : ScopedFd} {size offset : Nat}
    {r : WriteResult} {s s' : Session} {ts : List Task}
    (h : sendFileWithHeaderInLoop header file size offset r s = some (s', ts))
    (hopen : s.conn.isClosed = false) (hp : s.conn.pendingFile = none) (hr : r.fatal = false)
    (hvalid : file.valid = true) (hregular : file.isRegularFile = true) :
    Unhurt s s' ts [.callback .writeComplete, .callback .highWaterMark] := by
  unfold sendFileWithHeaderInLoop at h
  rw [if_neg (by rw [hopen]; exact nofun)] at h
  split at h
  · exact sendInLoop_unhurt h hopen hp hr
  · simp only [hvalid, hregular, hasPendingFile_eq_false.mpr hp, Bool.not_true, Bool.false_eq_true,
      if_false] at h
    obtain ⟨rfl, rfl⟩ := Prod.mk.inj (Option.some.inj h)
    refine ⟨rfl, ?_⟩
    split
    · exact .inr ⟨_, by simp, rfl⟩
    · exact .inl rfl

theorem sendPendingFileInLoop_unhurt {r : WriteResult} {s s' : Session} {ts : List Task}
    (h : sendPendingFileInLoop r s = some (s', ts)) (hr : r.fatal = false) :
    s'.conn.readBuffer = s.conn.readBuffer ∧ ts = [] := by
  unfold sendPendingFileInLoop at h
  split at h
  · cases h
    exact ⟨rfl, rfl⟩
  split at h
  · cases h
  rename_i s₁ ho
  have hread : s₁.conn.readBuffer = s.conn.readBuffer := by rw [(offer_some ho).2]
  split at h
  · split at h
    · cases h
      exact ⟨hread, rfl⟩
    · rename_i he
      exact absurd (by simpa [WriteResult.fatal] using hr) he
  · split at h
    · cases h
      exact ⟨hread, rfl⟩
    · cases h
      exact ⟨hread, rfl⟩

theorem onWriteRest_unhurt (s : Session) :
    Unhurt s (onWriteRest s).1 (onWriteRest s).2 [.callback .writeComplete] := by
  unfold onWriteRest
  split
  · exact ⟨rfl, .inl rfl⟩
  · exact ⟨rfl, .inr ⟨_, List.mem_singleton_self _, rfl⟩⟩

theorem onWrite_unhurt {k : Syscalls} {s s' : Session} {ts : List Task}
    (h : onWrite k s = some (s', ts)) (hk : k.Faultless) :
    Unhurt s s' ts [.callback .writeComplete, .onWriteRest] := by
  have hfile : ∀ {s₁ : Session}, onWriteFile k.sendfile s₁ = some (s', ts) →
      s₁.conn.readBuffer = s.conn.readBuffer →
      Unhurt s s' ts [.callback .writeComplete, .onWriteRest] := by
    intro s₁ h hread
    unfold onWriteFile at h
    split at h
    · split at h
      · cases h
      · rename_i s₂ ts₂ hs₂
        obtain ⟨hread', rfl⟩ := sendPendingFileInLoop_unhurt hs₂ hk.sendfile
        cases h
        exact ⟨hread'.trans hread, .inr ⟨_, by simp, rfl⟩⟩
    · obtain ⟨rfl, rfl⟩ := Prod.mk.inj (Option.some.inj h)
      obtain ⟨hread', hts⟩ := onWriteRest_unhurt s₁
      refine ⟨hread'.trans hread, hts.imp id ?_⟩
      rintro ⟨t, ht, hts⟩
      exact ⟨t, List.mem_cons.mpr (.inl (List.mem_singleton.mp ht)), hts⟩
  unfold onWrite at h
  split at h
  · split at h
    · cases h
    rename_i s₁ ho
    have hread : s₁.conn.readBuffer = s.conn.readBuffer := by rw [(offer_some ho).2]
    split at h
    · rename_i e hw
      have he : e = .eagain := by simpa [hw, WriteResult.fatal] using hk.write
      rw [if_pos he] at h
      cases h
      exact ⟨hread, .inl rfl⟩
    · simp only at h
      split at h
      · cases h
        exact ⟨hread, .inl rfl⟩
      · exact hfile h hread
  · exact hfile h rfl

/-- Received bytes are appended, and the message callback follows. -/
theorem onRead_unhurt {r : ReadResult} {s s' : Session} {ts : List Task}
    (h : onRead r s = some (s', ts)) (hr : r.fine = true) :
    (∃ bytes, r = .data bytes ∧ s'.conn.readBuffer.readable = s.conn.readBuffer.readable ++ bytes ∧
      ts = [.callback .message]) ∨
    (∀ bytes, r ≠ .data bytes) ∧ s'.conn.readBuffer = s.conn.readBuffer ∧ ts = [] := by
  unfold onRead at h
  cases r with
  | failed e =>
    have he : e = .eagain := by simpa [ReadResult.fine] using hr
    simp only [he, if_true] at h
    cases h
    exact .inr ⟨nofun, rfl, rfl⟩
  | data bytes =>
    have hne : bytes ≠ [] := by simpa [ReadResult.fine] using hr
    simp only [if_neg hne] at h
    split at h
    · cases h
    · cases h
      exact .inl ⟨bytes, rfl, Buffer.readFromFd_data _ _, rfl⟩

end Tudou
