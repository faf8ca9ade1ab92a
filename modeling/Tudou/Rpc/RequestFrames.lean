import Tudou.Rpc.RequestWriter

/-!
# `BinaryRpcChannel`: request frames on the wire

Calls on the thread path write their frames themselves; calls of coroutines go through
`writeBuffer_`, which `on_write` flushes.  Both share one socket.

* `Flowing` — the bytes accepted and the bytes queued are whole frames, one after another.
* `Jammed` — a blocking send has given up half-way in its frame.
* `Whole.step` — what keeps the wire whole, step by step.
* `frames_not_torn` — **the wire is a prefix of whole frames**, if no other frame gets a byte onto
  the wire while one is half-way.
* `torn_after_partial_send`, `torn_between_partial_flushes` — otherwise it need not be.
-/

namespace Tudou

open Transition TaggedStream

def WriteResult.acceptsNothing : WriteResult → Bool
  | .accepted n => n = 0
  | .failed _ => true

theorem writeLoop_acceptsNothing {react : WriteResult → WriteReaction} {size n : Nat} {e : LoopEnd}
    (hreact : ∀ r k, react r = .sent k → r.acceptsNothing = true → k = 0) (answers : List WriteResult)
    {totalSent : Nat} (hnothing : ∀ r ∈ answers, r.acceptsNothing = true)
    (h : writeLoop react size totalSent answers = some (n, e)) : n = totalSent := by
  induction answers generalizing totalSent with
  | nil =>
    simp only [writeLoop] at h
    split at h
    · cases h
    · cases h
      rfl
  | cons r answers ih =>
    have hrest : ∀ r ∈ answers, r.acceptsNothing = true := by
      intro r hr
      exact hnothing r (List.mem_cons_of_mem _ hr)
    simp only [writeLoop] at h
    split at h
    · split at h
      · rename_i k hk
        split at h
        · have hzero := hreact r k hk (hnothing r List.mem_cons_self)
          rw [ih hrest h, hzero, Nat.add_zero]
        · cases h
      · exact ih hrest h
      · cases h
        rfl
      · cases h
        rfl
    · cases h
      rfl

theorem blockingReaction_acceptsNothing (r : WriteResult) (k : Nat) (h : blockingReaction r = .sent k)
    (hr : r.acceptsNothing = true) : k = 0 := by
  unfold blockingReaction at h
  split at h
  · cases h
  · simp [WriteResult.acceptsNothing] at hr
  · cases h
  · cases h

theorem nonblockingReaction_acceptsNothing (r : WriteResult) (k : Nat)
    (h : nonblockingReaction r = .sent k) (hr : r.acceptsNothing = true) : k = 0 := by
  unfold nonblockingReaction at h
  split at h
  · cases h
    simpa [WriteResult.acceptsNothing] using hr
  · cases h
  · cases h
  · cases h

/-- An event runs each handler once. -/
theorem nodup_handleEventsWithGuard (revents : EpollEvents) : (handleEventsWithGuard revents).Nodup := by
  unfold handleEventsWithGuard
  split
  · simp
  · split <;> split <;> split <;> simp

theorem write_not_mem_handleEventsWithGuard {revents : EpollEvents} (h : revents.epollout = false) :
    .write ∉ handleEventsWithGuard revents := by
  unfold handleEventsWithGuard
  rw [h]
  split
  · simp
  · split <;> split <;> simp

namespace RequestWriter

/-! ## The condition -/

/-- No call's frame is on the wire in part. -/
def NoneHalfway (s : RequestWriter) : Prop :=
  ∀ c, c < s.calls.length → ¬ Halfway s.frame s.wire c

/-- A frame that is on the wire in part goes on at the front of `writeBuffer_`. -/
def FrontHalfway (s : RequestWriter) : Prop :=
  ∀ c, c < s.calls.length → Halfway s.frame s.wire c → ∃ b ∈ s.writeBuffer.head?, b.1 = c

/-- While a frame is half-way, the socket accepts bytes of no other one. -/
def Untorn (s : RequestWriter) : WriterLabel → Prop
  | .send _ answers => s.NoneHalfway ∨ ∀ r ∈ answers, r.acceptsNothing = true
  | .onWrite _ answers => s.FrontHalfway ∨ ∀ r ∈ answers, r.acceptsNothing = true
  | _ => True

/-! ## Whole frames -/

/-- Some calls that have sent, each once. -/
structure Order (s : RequestWriter) (order : List Nat) : Prop where
  nodup : order.Nodup
  sent : ∀ c ∈ order, s.isSent c = true

/-- The wire is a prefix of whole frames. -/
def Prefixed (s : RequestWriter) : Prop :=
  ∃ order, s.Order order ∧ s.wire <+: wholeFrames s.frame order

/-- `writeBuffer_` goes on where the wire ends. -/
def Flowing (s : RequestWriter) : Prop :=
  ∃ order, s.Order order ∧ s.wire ++ s.writeBuffer = wholeFrames s.frame order

/-- A frame is half-way, and its rest is not in `writeBuffer_`. -/
def Jammed (s : RequestWriter) : Prop :=
  ∃ c, s.isSent c = true ∧ Halfway s.frame s.wire c ∧ ∀ b ∈ s.writeBuffer, b.1 ≠ c

/-- `on_write` will not run any more. -/
def Muted (s : RequestWriter) : Prop := s.channel.isWriting = false ∧ .write ∉ s.dispatch

structure Whole (mode : ChannelMode) (s : RequestWriter) : Prop where
  buffered : Buffered mode s
  dispatch : s.dispatch.Nodup
  prefixed : s.Prefixed
  queue : s.Flowing ∨ s.Jammed ∨ s.Muted

theorem lt_of_isSent {s : RequestWriter} {c : Nat} (h : s.isSent c = true) : c < s.calls.length := by
  unfold isSent at h
  split at h
  · cases h
  · rename_i call hcall
    exact (List.getElem?_eq_some_iff.mp hcall).1

/-- Calls that have sent stay as they are. -/
structure Extends (s s' : RequestWriter) : Prop where
  sent : ∀ c, s.isSent c = true → s'.isSent c = true
  frame : ∀ c, s.isSent c = true → s'.frame c = s.frame c

theorem Extends.of_eq {s s' : RequestWriter} (h : s'.calls = s.calls) : s.Extends s' := by
  constructor
  · intro c hc
    rwa [isSent, h]
  · intro c _
    rw [RequestWriter.frame, RequestWriter.frame, h]

theorem extends_append {s s' : RequestWriter} {call : RequestCall} (h : s'.calls = s.calls ++ [call]) :
    s.Extends s' := by
  have hsame : ∀ c, s.isSent c = true → s'.calls[c]? = s.calls[c]? := by
    intro c hc
    rw [h, List.getElem?_append_left (lt_of_isSent hc)]
  constructor
  · intro c hc
    rw [isSent, hsame c hc]
    exact hc
  · intro c hc
    rw [RequestWriter.frame, hsame c hc]
    rfl

section Send

variable {s s' : RequestWriter} {c : Nat} {coroutine : Bool} {call : RequestCall}

theorem Unsent.isSent_eq (h : s.Unsent c coroutine call) : s.isSent c = false := by
  simp only [isSent, h.found, h.unsent]

theorem Unsent.frame_eq (h : s.Unsent c coroutine call) : s.frame c = call.frame := by
  simp only [frame, h.found]

theorem Unsent.getElem_set (h : s.Unsent c coroutine call) (d : Nat) :
    (s.calls.set c { call with sent := true })[d]? =
      if c = d then some { call with sent := true } else s.calls[d]? := by
  by_cases hd : c = d
  · subst hd
    rw [if_pos rfl, List.getElem?_set_self (List.getElem?_eq_some_iff.mp h.found).1]
  · rw [if_neg hd, List.getElem?_set_ne hd]

/-- A call that has just sent. -/
theorem Unsent.isSent_set (h : s.Unsent c coroutine call)
    (hs : s'.calls = s.calls.set c { call with sent := true }) : s'.isSent c = true := by
  simp only [isSent, hs, h.getElem_set, if_pos]

theorem Unsent.frame_set (h : s.Unsent c coroutine call)
    (hs : s'.calls = s.calls.set c { call with sent := true }) : s'.frame = s.frame := by
  funext d
  simp only [frame, hs, h.getElem_set]
  by_cases hd : c = d
  · subst hd
    simp only [if_pos, h.found]
    rfl
  · simp only [if_neg hd]

theorem Unsent.extends_set (h : s.Unsent c coroutine call)
    (hs : s'.calls = s.calls.set c { call with sent := true }) : s.Extends s' := by
  constructor
  · intro d hd
    have hne : c ≠ d := by
      rintro rfl
      rw [h.isSent_eq] at hd
      cases hd
    simp only [isSent, hs, h.getElem_set, if_neg hne]
    exact hd
  · intro d _
    rw [h.frame_set hs]

end Send

theorem Order.extend {s s' : RequestWriter} {order : List Nat} (h : s.Order order) (hext : s.Extends s') :
    s'.Order order ∧ wholeFrames s'.frame order = wholeFrames s.frame order := by
  constructor
  · exact ⟨h.nodup, fun c hc => hext.sent c (h.sent c hc)⟩
  · exact wholeFrames_congr fun c hc => hext.frame c (h.sent c hc)

theorem Prefixed.extend {s s' : RequestWriter} (h : s.Prefixed) (hext : s.Extends s')
    (hwire : s'.wire = s.wire) : s'.Prefixed := by
  obtain ⟨order, horder, hpre⟩ := h
  obtain ⟨horder', hframes⟩ := horder.extend hext
  refine ⟨order, horder', ?_⟩
  rw [hwire, hframes]
  exact hpre

theorem Flowing.extend {s s' : RequestWriter} (h : s.Flowing) (hext : s.Extends s')
    (hstream : s'.wire ++ s'.writeBuffer = s.wire ++ s.writeBuffer) : s'.Flowing := by
  obtain ⟨order, horder, hall⟩ := h
  obtain ⟨horder', hframes⟩ := horder.extend hext
  exact ⟨order, horder', by rw [hstream, hframes, hall]⟩

theorem Flowing.prefixed {s s' : RequestWriter} (h : s.Flowing) (hext : s.Extends s')
    (hwire : s'.wire <+: s.wire ++ s.writeBuffer) : s'.Prefixed := by
  obtain ⟨order, horder, hall⟩ := h
  obtain ⟨horder', hframes⟩ := horder.extend hext
  refine ⟨order, horder', ?_⟩
  rw [hframes, ← hall]
  exact hwire

theorem Jammed.extend {s s' : RequestWriter} (h : s.Jammed) (hext : s.Extends s')
    (hwire : s'.wire = s.wire)
    (hqueue : ∀ b ∈ s'.writeBuffer, b ∈ s.writeBuffer ∨ s.isSent b.1 = false) : s'.Jammed := by
  obtain ⟨c, hc, hhalf, hother⟩ := h
  refine ⟨c, hext.sent c hc, ?_, ?_⟩
  · unfold Halfway
    rw [hwire, hext.frame c hc]
    exact hhalf
  · intro b hb
    rcases hqueue b hb with hb | hb
    · exact hother b hb
    · rintro rfl
      rw [hb] at hc
      cases hc

/-- No frame is half-way: the wire ends between two frames. -/
theorem Order.boundary {s : RequestWriter} {order : List Nat} (h : s.Order order) (hnone : s.NoneHalfway)
    (hpre : s.wire <+: wholeFrames s.frame order) :
    ∃ done rest, order = done ++ rest ∧ s.wire = wholeFrames s.frame done := by
  apply boundary_of_not_halfway h.nodup hpre
  intro c hc
  exact hnone c (lt_of_isSent (h.sent c hc))

/-- One more call that has sent. -/
theorem Order.insert {s s' : RequestWriter} {done rest : List Nat} (h : s.Order (done ++ rest))
    (hext : s.Extends s') {c : Nat} (hc : s.isSent c = false) (hc' : s'.isSent c = true) :
    s'.Order (done ++ c :: rest) := by
  have hnot : c ∉ done ++ rest := by
    intro hmem
    rw [h.sent c hmem] at hc
    cases hc
  constructor
  · rw [List.nodup_middle, List.nodup_cons]
    exact ⟨hnot, h.nodup⟩
  · intro d hd
    simp only [List.mem_append, List.mem_cons] at hd
    rcases hd with hd | rfl | hd
    · exact hext.sent d (h.sent d (List.mem_append_left _ hd))
    · exact hc'
    · exact hext.sent d (h.sent d (List.mem_append_right _ hd))

/-! ## The steps -/

section Steps

variable {mode : ChannelMode} {s s' : RequestWriter} {c n : Nat} {call : RequestCall}

/-- A blocking send from a wire that ends between two frames. -/
theorem Prefixed.send (h : s.Prefixed) (hnone : s.NoneHalfway) (hcall : s.Unsent c false call)
    (hcalls : s'.calls = s.calls.set c { call with sent := true })
    (hwire : s'.wire = s.wire ++ (tagged s.frame c).take n) : s'.Prefixed := by
  obtain ⟨order, horder, hpre⟩ := h
  obtain ⟨done, rest, rfl, hdone⟩ := horder.boundary hnone hpre
  have hinsert := horder.insert (hcall.extends_set hcalls) hcall.isSent_eq (hcall.isSent_set hcalls)
  refine ⟨_, hinsert, ?_⟩
  rw [hcall.frame_set hcalls, hwire, hdone, wholeFrames_append, wholeFrames_cons,
    List.prefix_append_right_inj]
  exact (List.take_prefix _ _).trans (List.prefix_append _ _)

theorem Flowing.send (h : s.Flowing) (hnone : s.NoneHalfway) (hcall : s.Unsent c false call)
    (hn : n = call.frame.length ∨ n < call.frame.length)
    (hcalls : s'.calls = s.calls.set c { call with sent := true })
    (hwire : s'.wire = s.wire ++ (tagged s.frame c).take n) (hqueue : s'.writeBuffer = s.writeBuffer) :
    s'.Flowing ∨ s'.Jammed := by
  obtain ⟨order, horder, hall⟩ := h
  have hpre : s.wire <+: wholeFrames s.frame order := ⟨s.writeBuffer, hall⟩
  obtain ⟨done, rest, rfl, hdone⟩ := horder.boundary hnone hpre
  have hext := hcall.extends_set hcalls
  have hinsert := horder.insert hext hcall.isSent_eq (hcall.isSent_set hcalls)
  have hrest : s.writeBuffer = wholeFrames s.frame rest := by
    rw [hdone, wholeFrames_append] at hall
    exact List.append_cancel_left hall
  have hnodup := List.nodup_middle.mp hinsert.nodup
  have hnot : c ∉ done ++ rest := (List.nodup_cons.mp hnodup).1
  rcases hn with hn | hn
  · -- the whole frame is out, in front of what is queued
    refine .inl ⟨_, hinsert, ?_⟩
    have htake : (tagged s.frame c).take n = tagged s.frame c := by
      apply List.take_of_length_le
      rw [length_tagged, hcall.frame_eq]
      omega
    rw [hcall.frame_set hcalls, hwire, hqueue, htake, hdone, hrest, wholeFrames_append, wholeFrames_cons,
      List.append_assoc]
  · by_cases hzero : n = 0
    · have hstream : s'.wire ++ s'.writeBuffer = s.wire ++ s.writeBuffer := by
        rw [hwire, hqueue, hzero, List.take_zero, List.append_nil]
      exact .inl (Flowing.extend ⟨_, horder, hall⟩ hext hstream)
    · -- the call gives up half-way, and its rest is nowhere
      refine .inr ⟨c, hcall.isSent_set hcalls, ?_, ?_⟩
      · rw [hcall.frame_set hcalls, hwire, hdone]
        have hlen : ((tagged s.frame c).take n).length = n := by
          rw [List.length_take, length_tagged, hcall.frame_eq]
          omega
        apply halfway_of_part
        · exact fun hmem => hnot (List.mem_append_left _ hmem)
        · exact List.take_prefix _ _
        · intro hnil
          rw [hnil] at hlen
          exact hzero hlen.symm
        · rw [hlen, hcall.frame_eq]
          exact hn
      · intro b hb
        rw [hqueue, hrest] at hb
        rintro rfl
        exact hnot (List.mem_append_right _ (fst_of_mem_wholeFrames hb))

theorem Jammed.not_noneHalfway (h : s.Jammed) : ¬ s.NoneHalfway := by
  obtain ⟨c, hc, hhalf, -⟩ := h
  intro hnone
  exact hnone c (lt_of_isSent hc) hhalf

theorem Jammed.not_frontHalfway (h : s.Jammed) : ¬ s.FrontHalfway := by
  obtain ⟨c, hc, hhalf, hother⟩ := h
  intro hfront
  obtain ⟨b, hb, heq⟩ := hfront c (lt_of_isSent hc) hhalf
  exact hother b (List.mem_of_mem_head? hb) heq

/-- **Blocking send.** -/
theorem Whole.send (h : Whole mode s) {e : LoopEnd} {answers : List WriteResult}
    (hg : s.Untorn (.send c answers)) (hcall : s.Unsent c false call)
    (hloop : writeLoop blockingReaction call.frame.length 0 answers = some (n, e)) :
    Whole mode { s.markSent c call with wire := s.wire ++ (tagged s.frame c).take n } := by
  have hbuffered := h.buffered.markSent hcall
  generalize hs' : ({ s.markSent c call with wire := s.wire ++ (tagged s.frame c).take n } :
    RequestWriter) = s'
  have hcalls : s'.calls = s.calls.set c { call with sent := true } := by rw [← hs']; rfl
  have hwire : s'.wire = s.wire ++ (tagged s.frame c).take n := by rw [← hs']
  have hqueue : s'.writeBuffer = s.writeBuffer := by rw [← hs']; rfl
  have hext : s.Extends s' := hcall.extends_set hcalls
  have hmuted : s.Muted → s'.Muted := by rw [← hs']; exact id
  have hbuffered : Buffered mode s' := by
    rw [← hs']
    exact ⟨hbuffered.connected, hbuffered.coroutines, hbuffered.enableTasks⟩
  have hdispatch : s'.dispatch.Nodup := by rw [← hs']; exact h.dispatch
  rcases hg with hnone | hnothing
  · have hn : n = call.frame.length ∨ n < call.frame.length := by
      rcases (writeLoop_ends answers (Nat.zero_le _) hloop).2 with ⟨-, hn⟩ | ⟨-, hn⟩
      · exact .inl hn
      · exact .inr hn
    refine ⟨hbuffered, hdispatch, h.prefixed.send hnone hcall hcalls hwire, ?_⟩
    rcases h.queue with hflow | hjam | hm
    · rcases hflow.send hnone hcall hn hcalls hwire hqueue with hflow | hjam
      · exact .inl hflow
      · exact .inr (.inl hjam)
    · exact absurd hnone hjam.not_noneHalfway
    · exact .inr (.inr (hmuted hm))
  · have hzero := writeLoop_acceptsNothing blockingReaction_acceptsNothing answers hnothing hloop
    rw [hzero, List.take_zero, List.append_nil] at hwire
    refine ⟨hbuffered, hdispatch, h.prefixed.extend hext hwire, ?_⟩
    rcases h.queue with hflow | hjam | hm
    · exact .inl (hflow.extend hext (by rw [hwire, hqueue]))
    · exact .inr (.inl (hjam.extend hext hwire fun b hb => .inl (by rwa [hqueue] at hb)))
    · exact .inr (.inr (hmuted hm))

/-- **A coroutine's frame is queued.** -/
theorem Whole.append (h : Whole mode s) (hcall : s.Unsent c true call) :
    Whole mode { s.markSent c call with writeBuffer := s.writeBuffer ++ tagged s.frame c } := by
  have hext : s.Extends { s.markSent c call with writeBuffer := s.writeBuffer ++ tagged s.frame c } :=
    hcall.extends_set rfl
  have hbuffered := h.buffered.markSent hcall
  refine ⟨⟨hbuffered.connected, hbuffered.coroutines, hbuffered.enableTasks⟩, h.dispatch,
    h.prefixed.extend hext rfl, ?_⟩
  rcases h.queue with hflow | hjam | hmuted
  · obtain ⟨order, horder, hall⟩ := hflow
    have horder : s.Order (order ++ []) := by
      rw [List.append_nil]
      exact horder
    have hinsert := horder.insert hext hcall.isSent_eq (hcall.isSent_set rfl)
    have hframe : RequestWriter.frame { s.markSent c call with
        writeBuffer := s.writeBuffer ++ tagged s.frame c } = s.frame := hcall.frame_set rfl
    refine .inl ⟨order ++ [c], hinsert, ?_⟩
    rw [hframe, wholeFrames_append, wholeFrames_cons, wholeFrames_nil, List.append_nil, ← hall,
      List.append_assoc]
    rfl
  · refine .inr (.inl (hjam.extend hext rfl ?_))
    intro b hb
    rcases List.mem_append.mp hb with hb | hb
    · exact .inl hb
    · rw [fst_of_mem_tagged hb]
      exact .inr hcall.isSent_eq
  · exact .inr (.inr hmuted)

/-- A step that leaves calls, wire and queue as they are, and does not bring `on_write` back. -/
theorem Whole.keep (h : Whole mode s) (hcalls : s'.calls = s.calls) (hconnected : s'.connected = s.connected)
    (htasks : s'.enableTasks = s.enableTasks) (hwire : s'.wire = s.wire)
    (hqueue : s'.writeBuffer = s.writeBuffer) (hdispatch : s'.dispatch.Nodup)
    (hmuted : s.Muted → s'.Muted) : Whole mode s' := by
  have hext : s.Extends s' := .of_eq hcalls
  refine ⟨⟨?_, ?_, ?_⟩, hdispatch, h.prefixed.extend hext hwire, ?_⟩
  · rw [hconnected]
    exact h.buffered.connected
  · rw [hcalls]
    exact h.buffered.coroutines
  · rw [htasks]
    exact h.buffered.enableTasks
  · rcases h.queue with hflow | hjam | hm
    · exact .inl (hflow.extend hext (by rw [hwire, hqueue]))
    · exact .inr (.inl (hjam.extend hext hwire fun b hb => .inl (by rwa [hqueue] at hb)))
    · exact .inr (.inr (hmuted hm))

/-- The loop has run a handler. -/
theorem Muted.handled {h : Handler} {rest : List Handler} (hm : s.Muted) (hdispatch : s.dispatch = h :: rest) :
    .write ∉ rest := by
  intro hmem
  apply hm.2
  rw [hdispatch]
  exact List.mem_cons_of_mem _ hmem

/-- **`on_write` flushes a part of the queue.** -/
theorem Whole.flush (h : Whole mode s) {rest : List Handler} (hdispatch : s.dispatch = .write :: rest)
    {answers : List WriteResult} {e : LoopEnd} (hg : s.Untorn (.onWrite false answers))
    (hloop : writeLoop nonblockingReaction s.writeBuffer.length 0 answers = some (n, e))
    (hcalls : s'.calls = s.calls) (hconnected : s'.connected = s.connected)
    (htasks : s'.enableTasks = s.enableTasks) (hrest : s'.dispatch = rest)
    (hwire : s'.wire = s.wire ++ s.writeBuffer.take n)
    (hqueue : s'.writeBuffer = s.writeBuffer.drop n ∨ s'.channel.isWriting = false) : Whole mode s' := by
  have hext : s.Extends s' := .of_eq hcalls
  have hnodup := h.dispatch
  rw [hdispatch] at hnodup
  have hwrite : .write ∉ s'.dispatch := by
    rw [hrest]
    exact (List.nodup_cons.mp hnodup).1
  have hbuffered : Buffered mode s' := by
    refine ⟨?_, ?_, ?_⟩
    · rw [hconnected]
      exact h.buffered.connected
    · rw [hcalls]
      exact h.buffered.coroutines
    · rw [htasks]
      exact h.buffered.enableTasks
  have hdispatch' : s'.dispatch.Nodup := by
    rw [hrest]
    exact (List.nodup_cons.mp hnodup).2
  rcases h.queue with hflow | hjam | hmuted
  · have hpre : s'.wire <+: s.wire ++ s.writeBuffer := by
      rw [hwire, List.prefix_append_right_inj]
      exact List.take_prefix _ _
    refine ⟨hbuffered, hdispatch', hflow.prefixed hext hpre, ?_⟩
    rcases hqueue with hqueue | hoff
    · refine .inl (hflow.extend hext ?_)
      rw [hwire, hqueue, List.append_assoc, List.take_append_drop]
    · exact .inr (.inr ⟨hoff, hwrite⟩)
  · rcases hg with hfront | hnothing
    · exact absurd hfront hjam.not_frontHalfway
    · have hzero := writeLoop_acceptsNothing nonblockingReaction_acceptsNothing answers hnothing hloop
      subst hzero
      rw [List.take_zero, List.append_nil] at hwire
      refine ⟨hbuffered, hdispatch', h.prefixed.extend hext hwire, ?_⟩
      rcases hqueue with hqueue | hoff
      · refine .inr (.inl (hjam.extend hext hwire ?_))
        intro b hb
        rw [hqueue, List.drop_zero] at hb
        exact .inl hb
      · exact .inr (.inr ⟨hoff, hwrite⟩)
  · -- `on_write` does not run any more
    refine absurd ?_ hmuted.2
    rw [hdispatch]
    exact List.mem_cons_self

/-- **Step lemma**: a step that meets the condition keeps the wire whole. -/
theorem Whole.step {l : WriterLabel} (h : Whole mode s) (hg : s.Untorn l) (hs : StepEnds mode s l s') :
    Whole mode s' := by
  have handled : ∀ {x : Handler} {rest : List Handler}, s.dispatch = x :: rest → rest.Nodup := by
    intro x rest hdispatch
    have hnodup := h.dispatch
    rw [hdispatch] at hnodup
    exact (List.nodup_cons.mp hnodup).2
  have hstep := h.buffered.step hs
  cases hs with
  | called call hnew hpath =>
    have hext : s.Extends { s with calls := s.calls ++ [call] } := extends_append rfl
    refine ⟨hstep, h.dispatch, h.prefixed.extend hext rfl, ?_⟩
    rcases h.queue with hflow | hjam | hmuted
    · exact .inl (hflow.extend hext rfl)
    · exact .inr (.inl (hjam.extend hext rfl fun b hb => .inl hb))
    · exact .inr (.inr hmuted)
  | sent hcall hloop => exact h.send hg hcall hloop
  | appended hcall _ => exact h.append hcall
  | sentAtOnce hcall hconnected | sentInPart hcall hconnected _ =>
    rw [h.buffered.not_connected hcall] at hconnected
    cases hconnected
  | @polled revents _ _ hreportable =>
    refine h.keep rfl rfl rfl rfl rfl (nodup_handleEventsWithGuard revents) ?_
    intro hmuted
    refine ⟨hmuted.1, write_not_mem_handleEventsWithGuard ?_⟩
    have hoff : s.channel.events.epollout = false := hmuted.1
    simp only [EpollEvents.reportable, hoff, Bool.and_eq_true, Bool.or_false] at hreportable
    simpa using hreportable.2
  | read hdispatch | unset hdispatch =>
    exact h.keep rfl rfl rfl rfl rfl (handled hdispatch) fun hm => ⟨hm.1, hm.handled hdispatch⟩
  | readBroken hdispatch | connectFailed hdispatch =>
    exact h.keep rfl rfl rfl rfl rfl (handled hdispatch) fun hm => ⟨rfl, hm.handled hdispatch⟩
  | nothingToWrite hdispatch _ =>
    exact h.keep rfl rfl rfl rfl rfl (handled hdispatch) fun hm => ⟨rfl, hm.handled hdispatch⟩
  | drained hdispatch hloop =>
    exact h.flush hdispatch hg hloop rfl rfl rfl rfl (by rw [List.take_length]) (.inr rfl)
  | drainedPart hdispatch _ hloop => exact h.flush hdispatch hg hloop rfl rfl rfl rfl rfl (.inl rfl)
  | writeFailed hdispatch hloop => exact h.flush hdispatch hg hloop rfl rfl rfl rfl rfl (.inr rfl)
  | enabled htask =>
    rw [h.buffered.enableTasks] at htask
    cases htask
  | closed => exact h.keep rfl rfl rfl rfl rfl h.dispatch id

end Steps

theorem whole_create (mode : ChannelMode) : Whole mode (create mode) where
  buffered := buffered_create mode
  dispatch := List.nodup_nil
  prefixed := ⟨[], ⟨List.nodup_nil, fun _ h => absurd h List.not_mem_nil⟩, List.prefix_refl _⟩
  queue := .inl ⟨[], ⟨List.nodup_nil, fun _ h => absurd h List.not_mem_nil⟩, rfl⟩

/-- **Request frames are not torn**: what the socket has accepted is a prefix of whole encoded requests
of different calls. -/
theorem frames_not_torn {mode : ChannelMode} {s : RequestWriter} (h : (system mode).Reaches Untorn s) :
    ∃ order : List Nat, order.Nodup ∧ (∀ c ∈ order, s.isSent c = true) ∧
      s.wire.map Prod.snd <+: (order.map s.frame).flatten := by
  have hwhole : Whole mode s :=
    h.invariant (whole_create mode) fun _ _ _ hw hg hs => hw.step hg (step_ends hs)
  obtain ⟨order, horder, hpre⟩ := hwhole.prefixed
  refine ⟨order, horder.nodup, horder.sent, ?_⟩
  rw [← map_snd_wholeFrames]
  exact hpre.map Prod.snd

instance (s : RequestWriter) : ∀ l, Decidable (s.Untorn l)
  | .send _ answers =>
    inferInstanceAs (Decidable ((∀ c, c < s.calls.length → ¬ Halfway s.frame s.wire c) ∨
      ∀ r ∈ answers, r.acceptsNothing = true))
  | .onWrite _ answers =>
    inferInstanceAs (Decidable ((∀ c, c < s.calls.length → Halfway s.frame s.wire c →
      ∃ b ∈ s.writeBuffer.head?, b.1 = c) ∨ ∀ r ∈ answers, r.acceptsNothing = true))
  | .call _ _ _ _ | .writeRequestNonblocking _ _ _ | .poll _ | .onRead _ | .unset | .enableWriting
  | .close => inferInstanceAs (Decidable True)

/-- A coroutine's request is flushed in two parts, then a thread sends, interrupted once. -/
def flushThenSend : List WriterLabel :=
  [.call true 1 [1] [2, 3], .writeRequestNonblocking 0 true [], .poll { epollout := true },
    .onWrite false [.accepted 5, .failed .eagain], .call false 2 [4] [], .poll { epollout := true },
    .onWrite false [.accepted 18], .send 1 [.accepted 7, .failed .eintr, .accepted 14]]

theorem frames_not_torn_flushThenSend :
    ∃ s ∈ (system .loop).run (create .loop) flushThenSend, s.wire.length = 44 ∧
      ∃ order : List Nat, order.Nodup ∧ (∀ c ∈ order, s.isSent c = true) ∧
        s.wire.map Prod.snd <+: (order.map s.frame).flatten := by
  obtain ⟨s, hs, hlen⟩ : ∃ s ∈ (system .loop).run (create .loop) flushThenSend,
      s.wire.length = 44 := by decide +kernel
  have hg : (system .loop).Admits Untorn (create .loop) flushThenSend := by decide +kernel
  exact ⟨s, hs, hlen, frames_not_torn (.of_run _ hs hg)⟩

/-- A wire that starts with no whole frame's first bytes is torn. -/
theorem torn_of_take {s : RequestWriter} {k : Nat} (hk : 0 < k) (hkRpc : k ≤ kRpcHeaderSize)
    (hlen : k ≤ s.wire.length)
    (htake : ∀ c, c < s.calls.length → (s.frame c).take k ≠ (s.wire.map Prod.snd).take k) :
    ¬ ∃ order : List Nat, order.Nodup ∧ (∀ c ∈ order, s.isSent c = true) ∧
      s.wire.map Prod.snd <+: (order.map s.frame).flatten := by
  rintro ⟨order, -, hsent, hpre⟩
  cases order with
  | nil =>
    simp only [List.map_nil, List.flatten_nil, List.prefix_nil, List.map_eq_nil_iff] at hpre
    rw [hpre] at hlen
    simp only [List.length_nil] at hlen
    omega
  | cons c order =>
    have hc := lt_of_isSent (hsent c List.mem_cons_self)
    have hframe : k ≤ (s.frame c).length := by
      simp only [frame, List.getElem?_eq_getElem hc]
      exact Nat.le_trans hkRpc (length_frame _)
    apply htake c hc
    rw [List.map_cons, List.flatten_cons] at hpre
    obtain ⟨rest, hrest⟩ := hpre
    have htake := congrArg (List.take k) hrest
    rw [List.take_append_of_le_length (by rw [List.length_map]; exact hlen),
      List.take_append_of_le_length hframe] at htake
    exact htake.symm

/-- In loop mode the socket is non-blocking: a call on a thread gets three bytes out, then `EAGAIN`. -/
def sendAfterPartialSend : List WriterLabel :=
  [.call false 1 [1] [2, 3], .call false 2 [4] [5], .send 0 [.accepted 3, .failed .eagain],
    .send 1 [.accepted 22]]

/-- **A blocking send that gives up half-way tears the stream** for the next call. -/
theorem torn_after_partial_send :
    ¬ ∀ mode s, (system mode).Reachable s →
      ∃ order : List Nat, order.Nodup ∧ (∀ c ∈ order, s.isSent c = true) ∧
        s.wire.map Prod.snd <+: (order.map s.frame).flatten := by
  intro h
  obtain ⟨s, hs, hlen, htake⟩ : ∃ s ∈ (system .loop).run (create .loop) sendAfterPartialSend,
      4 ≤ s.wire.length ∧
        ∀ c, c < s.calls.length → (s.frame c).take 4 ≠ (s.wire.map Prod.snd).take 4 := by
    decide +kernel
  exact torn_of_take (by omega) (by simp only [kRpcHeaderSize]; omega) hlen htake (h .loop s (.of_run _ hs))

/-- `on_write` flushes three bytes of a coroutine's request; a call on a thread writes before it goes
on. -/
def sendBetweenFlushes : List WriterLabel :=
  [.call true 1 [1] [2, 3], .writeRequestNonblocking 0 true [], .poll { epollout := true },
    .onWrite false [.accepted 3, .failed .eagain], .call false 2 [4] [5], .send 1 [.accepted 22]]

/-- **A blocking send between two partial flushes tears the stream**, with no error anywhere. -/
theorem torn_between_partial_flushes :
    ∃ s, (system .loop).Reachable s ∧ s.running = true ∧
      ¬ ∃ order : List Nat, order.Nodup ∧ (∀ c ∈ order, s.isSent c = true) ∧
        s.wire.map Prod.snd <+: (order.map s.frame).flatten := by
  obtain ⟨s, hs, hrunning, hlen, htake⟩ : ∃ s ∈ (system .loop).run (create .loop) sendBetweenFlushes,
      s.running = true ∧ 4 ≤ s.wire.length ∧
        ∀ c, c < s.calls.length → (s.frame c).take 4 ≠ (s.wire.map Prod.snd).take 4 := by
    decide +kernel
  exact ⟨s, .of_run _ hs, hrunning,
    torn_of_take (by omega) (by simp only [kRpcHeaderSize]; omega) hlen htake⟩

end RequestWriter

end Tudou
