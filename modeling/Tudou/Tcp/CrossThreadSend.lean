import Mathlib.Data.List.Nodup
import Tudou.Reactor.EventLoop
import Tudou.Tcp.Buffer

/-!
# `TcpConnection::send` from any thread

Model of `TcpConnection::send` in `src/tudou/tcp/TcpConnection.cpp` over `EventLoop`.  On the loop
thread it is a call of `send_in_loop`; on another thread it queues a functor with a copy of the
message, and the functor calls `send_in_loop` when the loop runs it.

* `CrossThreadSend` — the loop, the threads inside `send`, and the messages passed to `send` and
  handed to `send_in_loop` so far.
* `crossThreadSend` — any number of threads send, the loop thread sends from any user code, and both
  do whatever else they do to the loop.
* `sent_eq` — the messages of a thread: handed over, then queued, then not queued yet.
* `sends_exactly_once_in_order` — **every message is handed over once, in the order of its thread,
  and not before its functor runs**.
-/

namespace Tudou

open Transition

/-- One call of `send`: its number, its thread (`none` is the loop thread) and its message. -/
structure SentMessage (T : Type*) where
  call : Nat
  caller : Option T
  msg : Bytes
  deriving DecidableEq, Repr

/-- A functor on the loop's queue: the lambda of `send`, or another one. -/
inductive SendFunctor (F T : Type*) where
  | sendInLoop (m : SentMessage T)
  | other (f : F)
  deriving DecidableEq, Repr

/-- The message a functor hands to `send_in_loop` before anything else. -/
def SendFunctor.message {F T : Type*} : SendFunctor F T → Option (SentMessage T)
  | .sendInLoop m => some m
  | .other _ => none

structure CrossThreadSend (F T : Type*) where
  loop : EventLoop (SendFunctor F T) T
  /-- Calls of `send` that have not reached `queue_in_loop`. -/
  sending : List (SentMessage T)
  called : List (SentMessage T)
  /-- The arguments of `send_in_loop`. -/
  handed : List (SentMessage T)

inductive SendLabel (F T : Type*) where
  /-- `send` in user code of the loop thread, inside a pending functor or outside. -/
  | sendInLoop (msg : Bytes)
  /-- `send` on another thread. -/
  | send (t : T) (msg : Bytes)
  | queueInLoop (t : T)
  /-- A step of the loop, or of a thread on the loop, that queues no message. -/
  | loop (l : LoopLabel (SendFunctor F T) T)

namespace CrossThreadSend

variable {F T : Type*} [DecidableEq T]

def create : CrossThreadSend F T := ⟨EventLoop.create, [], [], []⟩

/-- Thread `t` is inside `send`, `queue_in_loop` or `quit`. -/
def busy (s : CrossThreadSend F T) (t : T) : Bool :=
  t ∈ s.loop.waking ∨ t ∈ s.loop.quitting ∨ ∃ m ∈ s.sending, m.caller = some t

def step (s : CrossThreadSend F T) : SendLabel F T → Option (CrossThreadSend F T)
  | .sendInLoop msg =>
    if s.loop.phase.inUserCode ∧ s.loop.ownWaking = false then
      some { s with
        called := s.called ++ [⟨s.called.length, none, msg⟩]
        handed := s.handed ++ [⟨s.called.length, none, msg⟩] }
    else none
  | .send t msg =>
    if s.busy t then none
    else some { s with
      called := s.called ++ [⟨s.called.length, some t, msg⟩]
      sending := s.sending ++ [⟨s.called.length, some t, msg⟩] }
  | .queueInLoop t =>
    match s.sending.find? fun m => m.caller = some t with
    | none => none
    | some m =>
      match s.loop.step (.queue t (.sendInLoop m)) with
      | none => none
      | some loop => some { s with loop := loop, sending := s.sending.filter fun m => m.caller ≠ some t }
  | .loop l =>
    if l.pushes.filterMap SendFunctor.message = [] then
      match s.loop.step l with
      | none => none
      | some loop => some { s with
          loop := loop
          handed := s.handed ++ (s.loop.starts l).filterMap SendFunctor.message }
    else none

/-- The messages of one thread. -/
def ofThread (t : Option T) (ms : List (SentMessage T)) : List (SentMessage T) :=
  ms.filter fun m => m.caller = t

/-- The messages queued so far, and those among them whose functor has been started. -/
def queued (s : CrossThreadSend F T) : List (SentMessage T) := s.loop.pushed.filterMap SendFunctor.message

def started (s : CrossThreadSend F T) : List (SentMessage T) :=
  s.loop.executed.filterMap SendFunctor.message

end CrossThreadSend

/-- **`send` from any number of threads**, over arbitrary other functors. -/
def crossThreadSend (F T : Type*) [DecidableEq T] : System (CrossThreadSend F T) (SendLabel F T) where
  init := CrossThreadSend.create
  step := CrossThreadSend.step

namespace CrossThreadSend

variable {F T : Type*} [DecidableEq T]

/-! ## What a step does -/

inductive StepEnds (s : CrossThreadSend F T) : SendLabel F T → CrossThreadSend F T → Prop where
  | direct {msg : Bytes} :
    StepEnds s (.sendInLoop msg) { s with
      called := s.called ++ [⟨s.called.length, none, msg⟩]
      handed := s.handed ++ [⟨s.called.length, none, msg⟩] }
  | called {t : T} {msg : Bytes} (hfree : ofThread (some t) s.sending = []) :
    StepEnds s (.send t msg) { s with
      called := s.called ++ [⟨s.called.length, some t, msg⟩]
      sending := s.sending ++ [⟨s.called.length, some t, msg⟩] }
  | queued {t : T} {m : SentMessage T} {loop : EventLoop (SendFunctor F T) T}
      (hfind : s.sending.find? (fun m => m.caller = some t) = some m)
      (hloop : s.loop.step (.queue t (.sendInLoop m)) = some loop) :
    StepEnds s (.queueInLoop t) { s with
      loop := loop, sending := s.sending.filter fun m => m.caller ≠ some t }
  | looped {l : LoopLabel (SendFunctor F T) T} {loop : EventLoop (SendFunctor F T) T}
      (hother : l.pushes.filterMap SendFunctor.message = []) (hloop : s.loop.step l = some loop) :
    StepEnds s (.loop l) { s with
      loop := loop
      handed := s.handed ++ (s.loop.starts l).filterMap SendFunctor.message }

theorem step_ends {s s' : CrossThreadSend F T} {l : SendLabel F T} (h : s.step l = some s') :
    StepEnds s l s' := by
  cases l with
  | sendInLoop msg =>
    simp only [step] at h
    split at h
    · cases h
      exact .direct
    · cases h
  | send t msg =>
    simp only [step] at h
    split at h
    · cases h
    · rename_i hbusy
      cases h
      apply StepEnds.called
      rw [ofThread, List.filter_eq_nil_iff]
      intro m hm hcaller
      apply hbusy
      simp only [busy, decide_eq_true_eq]
      exact .inr (.inr ⟨m, hm, by simpa using hcaller⟩)
  | queueInLoop t =>
    simp only [step] at h
    split at h
    · cases h
    · rename_i m hfind
      split at h
      · cases h
      · rename_i loop hloop
        cases h
        exact .queued hfind hloop
  | loop l =>
    simp only [step] at h
    split at h
    · rename_i hother
      split at h
      · cases h
      · rename_i loop hloop
        cases h
        exact .looped hother hloop
    · cases h

/-- The loop of the system makes at most one step of its own. -/
theorem loop_step {s s' : CrossThreadSend F T} {l : SendLabel F T} (h : s.step l = some s') :
    s'.loop = s.loop ∨ ∃ l', s.loop.step l' = some s'.loop := by
  cases step_ends h with
  | direct | called _ => exact .inl rfl
  | queued _ hloop | looped _ hloop => exact .inr ⟨_, hloop⟩

/-- **The system runs an `EventLoop`.** -/
theorem crossThreadSend_refines_eventLoop :
    Simulation (crossThreadSend F T) (fun _ _ => True) (eventLoop (SendFunctor F T) T)
      fun s loop => loop = s.loop where
  init := rfl
  step := by
    rintro s l s' loop rfl - hs
    rcases loop_step hs with hsame | ⟨l', hstep⟩
    · exact ⟨[], s.loop, rfl, hsame.symm⟩
    · refine ⟨[l'], s'.loop, ?_, rfl⟩
      simp only [System.run, eventLoop, hstep]

theorem functors_fifo {s : CrossThreadSend F T} (h : (crossThreadSend F T).Reachable s) : s.loop.Fifo := by
  obtain ⟨loop, hloop, rfl⟩ := crossThreadSend_refines_eventLoop.reaches h
  exact EventLoop.functors_fifo hloop

/-! ## Where a message is -/

/-- A message is handed over directly, or by the functor it was queued with; a thread's messages are
queued in the order of its calls, and it makes one call at a time. -/
structure Tracked (s : CrossThreadSend F T) : Prop where
  numbered : s.called.map SentMessage.call = List.range s.called.length
  direct : ofThread none s.handed = ofThread none s.called
  started : s.handed.filter (fun m => m.caller ≠ none) = s.started
  queued : ∀ t, ofThread (some t) s.called = ofThread (some t) s.queued ++ ofThread (some t) s.sending
  oneCall : ∀ t, (ofThread (some t) s.sending).length ≤ 1
  callers : ∀ m ∈ s.queued ++ s.sending, m.caller ≠ none

@[simp] theorem ofThread_append (t : Option T) (ms ms' : List (SentMessage T)) :
    ofThread t (ms ++ ms') = ofThread t ms ++ ofThread t ms' := List.filter_append _ _

theorem ofThread_other {t : Option T} {m : SentMessage T} (h : m.caller ≠ t) : ofThread t [m] = [] := by
  simp [ofThread, h]

theorem ofThread_own (m : SentMessage T) : ofThread m.caller [m] = [m] := by
  simp [ofThread]

omit [DecidableEq T] in
/-- A new call has the next number. -/
theorem numbered_append {ms : List (SentMessage T)} (h : ms.map SentMessage.call = List.range ms.length)
    (m : SentMessage T) (hm : m.call = ms.length) :
    (ms ++ [m]).map SentMessage.call = List.range (ms ++ [m]).length := by
  simp [h, hm, List.range_succ]

theorem Tracked.direct_step {s : CrossThreadSend F T} (h : Tracked s) (msg : Bytes) :
    Tracked { s with
      called := s.called ++ [⟨s.called.length, none, msg⟩]
      handed := s.handed ++ [⟨s.called.length, none, msg⟩] } where
  numbered := numbered_append h.numbered _ rfl
  direct := by
    show ofThread none (s.handed ++ _) = ofThread none (s.called ++ _)
    simp only [ofThread_append, h.direct]
  started := by
    show (s.handed ++ [_]).filter _ = s.started
    rw [List.filter_append, h.started]
    simp
  queued := by
    intro t
    show ofThread (some t) (s.called ++ [_]) = _
    rw [ofThread_append, ofThread_other (by simp), List.append_nil]
    exact h.queued t
  oneCall := h.oneCall
  callers := h.callers

theorem Tracked.call_step {s : CrossThreadSend F T} (h : Tracked s) {t : T}
    (hfree : ofThread (some t) s.sending = []) (msg : Bytes) :
    Tracked { s with
      called := s.called ++ [⟨s.called.length, some t, msg⟩]
      sending := s.sending ++ [⟨s.called.length, some t, msg⟩] } where
  numbered := numbered_append h.numbered _ rfl
  direct := by
    show ofThread none s.handed = ofThread none (s.called ++ [_])
    rw [ofThread_append, ofThread_other (by simp), List.append_nil]
    exact h.direct
  started := h.started
  queued := by
    intro t'
    show ofThread (some t') (s.called ++ [_]) = ofThread (some t') s.queued ++ ofThread (some t') (s.sending ++ [_])
    rw [ofThread_append, ofThread_append, h.queued t', List.append_assoc]
  oneCall := by
    intro t'
    show (ofThread (some t') (s.sending ++ [_])).length ≤ 1
    rw [ofThread_append]
    by_cases ht : t = t'
    · subst ht
      rw [hfree]
      simp [ofThread]
    · rw [ofThread_other (by simp [ht]), List.append_nil]
      exact h.oneCall t'
  callers := by
    intro m hm
    show m.caller ≠ none
    rw [← List.append_assoc] at hm
    rcases List.mem_append.mp hm with hm | hm
    · exact h.callers m hm
    · rw [List.mem_singleton.mp hm]
      simp

/-- The message a thread is about to queue is the only one it has not queued. -/
theorem Tracked.sending_eq {s : CrossThreadSend F T} (h : Tracked s) {t : T} {m : SentMessage T}
    (hfind : s.sending.find? (fun m => m.caller = some t) = some m) :
    m.caller = some t ∧ ofThread (some t) s.sending = [m] := by
  have hcaller : m.caller = some t := by simpa using List.find?_some hfind
  have hmem : m ∈ ofThread (some t) s.sending := by
    rw [ofThread, List.mem_filter]
    exact ⟨List.mem_of_find?_eq_some hfind, by simpa using hcaller⟩
  refine ⟨hcaller, ?_⟩
  have hone := h.oneCall t
  match hms : ofThread (some t) s.sending with
  | [] => rw [hms] at hmem; cases hmem
  | [m'] => rw [hms] at hmem; rw [List.mem_singleton.mp hmem]
  | _ :: _ :: _ => rw [hms] at hone; simp at hone

theorem ofThread_without {t t' : T} (ms : List (SentMessage T)) :
    ofThread (some t') (ms.filter fun m => m.caller ≠ some t) =
      if t = t' then [] else ofThread (some t') ms := by
  rw [ofThread, List.filter_filter]
  split
  · rename_i ht
    subst ht
    rw [List.filter_eq_nil_iff]
    simp
  · rename_i ht
    apply List.filter_congr
    intro m _
    by_cases hm : m.caller = some t'
    · simp [hm, Ne.symm ht]
    · simp [hm]

theorem Tracked.queue_step {s : CrossThreadSend F T} (h : Tracked s) {t : T} {m : SentMessage T}
    {loop : EventLoop (SendFunctor F T) T}
    (hfind : s.sending.find? (fun m => m.caller = some t) = some m)
    (hloop : s.loop.step (.queue t (.sendInLoop m)) = some loop) :
    Tracked { s with loop := loop, sending := s.sending.filter fun m => m.caller ≠ some t } := by
  obtain ⟨hcaller, hsending⟩ := h.sending_eq hfind
  obtain ⟨hpushed, hexecuted⟩ := EventLoop.step_log hloop
  have hqueued : loop.pushed.filterMap SendFunctor.message = s.queued ++ [m] := by
    rw [hpushed, List.filterMap_append]
    rfl
  exact {
    numbered := h.numbered
    direct := h.direct
    started := by
      show _ = loop.executed.filterMap SendFunctor.message
      simp only [EventLoop.starts, List.append_nil] at hexecuted
      rw [hexecuted]
      exact h.started
    queued := by
      intro t'
      show ofThread (some t') s.called =
        ofThread (some t') (loop.pushed.filterMap SendFunctor.message) ++ ofThread (some t') (s.sending.filter _)
      rw [hqueued, ofThread_append, ofThread_without, h.queued t', List.append_assoc]
      by_cases ht : t = t'
      · subst ht
        rw [if_pos rfl, hsending, List.append_nil, ← hcaller, ofThread_own]
      · rw [if_neg ht, ofThread_other (by rw [hcaller]; simp [ht]), List.nil_append]
    oneCall := by
      intro t'
      show (ofThread (some t') (s.sending.filter _)).length ≤ 1
      rw [ofThread_without]
      split
      · simp
      · exact h.oneCall t'
    callers := by
      intro m' hm'
      have hm' : m' ∈ loop.pushed.filterMap SendFunctor.message ++ s.sending.filter _ := hm'
      rw [hqueued] at hm'
      simp only [List.mem_append, List.mem_singleton, List.mem_filter] at hm'
      rcases hm' with (hm' | hm') | hm'
      · exact h.callers m' (List.mem_append_left _ hm')
      · rw [hm', hcaller]
        simp
      · exact h.callers m' (List.mem_append_right _ hm'.1) }

theorem Tracked.loop_step {s : CrossThreadSend F T} (h : Tracked s) (hfifo : s.loop.Fifo)
    {l : LoopLabel (SendFunctor F T) T} {loop : EventLoop (SendFunctor F T) T}
    (hother : l.pushes.filterMap SendFunctor.message = []) (hloop : s.loop.step l = some loop) :
    Tracked { s with
      loop := loop
      handed := s.handed ++ (s.loop.starts l).filterMap SendFunctor.message } := by
  obtain ⟨hpushed, hexecuted⟩ := EventLoop.step_log hloop
  have hqueued : loop.pushed.filterMap SendFunctor.message = s.queued := by
    rw [hpushed, List.filterMap_append, hother, List.append_nil]
    rfl
  have hcallers : ∀ m ∈ (s.loop.starts l).filterMap SendFunctor.message, m.caller ≠ none := by
    intro m hm
    obtain ⟨f, hf, hmessage⟩ := List.mem_filterMap.mp hm
    have hpushed : f ∈ s.loop.pushed := by
      rw [hfifo]
      apply List.mem_append_left
      apply List.mem_append_right
      unfold EventLoop.starts at hf
      split at hf
      · exact List.mem_of_mem_take hf
      · cases hf
    apply h.callers
    apply List.mem_append_left
    exact List.mem_filterMap.mpr ⟨f, hpushed, hmessage⟩
  exact {
    numbered := h.numbered
    direct := by
      show ofThread none (s.handed ++ _) = _
      have hnone : ofThread none ((s.loop.starts l).filterMap SendFunctor.message) = [] := by
        rw [ofThread, List.filter_eq_nil_iff]
        intro m hm
        simpa using hcallers m hm
      rw [ofThread_append, hnone, List.append_nil]
      exact h.direct
    started := by
      show (s.handed ++ _).filter _ = loop.executed.filterMap SendFunctor.message
      have hall : ((s.loop.starts l).filterMap SendFunctor.message).filter (fun m => m.caller ≠ none) =
          (s.loop.starts l).filterMap SendFunctor.message := by
        rw [List.filter_eq_self]
        intro m hm
        simpa using hcallers m hm
      rw [List.filter_append, h.started, hall, hexecuted, List.filterMap_append]
      rfl
    queued := by
      intro t
      show _ = ofThread (some t) (loop.pushed.filterMap SendFunctor.message) ++ _
      rw [hqueued]
      exact h.queued t
    oneCall := h.oneCall
    callers := by
      intro m hm
      have hm : m ∈ loop.pushed.filterMap SendFunctor.message ++ s.sending := hm
      rw [hqueued] at hm
      exact h.callers m hm }

/-- **Step lemma** for messages. -/
theorem Tracked.step {s s' : CrossThreadSend F T} {l : SendLabel F T} (h : Tracked s)
    (hfifo : s.loop.Fifo) (hs : s.step l = some s') : Tracked s' := by
  cases step_ends hs with
  | direct => exact h.direct_step _
  | called hfree => exact h.call_step hfree _
  | queued hfind hloop => exact h.queue_step hfind hloop
  | looped hother hloop => exact h.loop_step hfifo hother hloop

theorem tracked_of_reachable {s : CrossThreadSend F T} (h : (crossThreadSend F T).Reachable s) :
    Tracked s := by
  induction h with
  | init =>
    refine ⟨rfl, rfl, rfl, fun _ => rfl, fun _ => Nat.zero_le _, ?_⟩
    intro m hm
    cases hm
  | step hreach _ hs ih => exact ih.step (functors_fifo hreach) hs

/-- **The messages of a thread**, in the order of its calls: handed over, in the functors swapped out
or pending, and not queued yet. -/
theorem sent_eq {s : CrossThreadSend F T} (h : (crossThreadSend F T).Reachable s) (t : T) :
    ofThread (some t) s.called = ofThread (some t) s.handed ++
      ofThread (some t) ((s.loop.phase.batch ++ s.loop.pendingFunctors).filterMap SendFunctor.message) ++
        ofThread (some t) s.sending := by
  have htracked := tracked_of_reachable h
  have hhanded : ofThread (some t) s.handed = ofThread (some t) s.started := by
    rw [← htracked.started, ofThread, ofThread, List.filter_filter]
    apply List.filter_congr
    intro m _
    by_cases hm : m.caller = some t
    · simp [hm]
    · simp [hm]
  have hqueued : s.queued = s.started ++
      (s.loop.phase.batch ++ s.loop.pendingFunctors).filterMap SendFunctor.message := by
    rw [CrossThreadSend.queued, functors_fifo h, List.append_assoc, List.filterMap_append]
    rfl
  rw [htracked.queued t, hqueued, ofThread_append, hhanded]

/-- What a thread handed over is the first part of what it sent; the loop thread has handed over all. -/
theorem handed_in_order {s : CrossThreadSend F T} (h : (crossThreadSend F T).Reachable s) (t : Option T) :
    ofThread t s.handed <+: ofThread t s.called := by
  cases t with
  | none =>
    refine ⟨[], ?_⟩
    rw [(tracked_of_reachable h).direct, List.append_nil]
  | some t =>
    rw [sent_eq h t, List.append_assoc]
    exact List.prefix_append _ _

/-- Calls are numbered in their order. -/
theorem Tracked.called_getElem {s : CrossThreadSend F T} (h : Tracked s) {m : SentMessage T}
    (hm : m ∈ s.called) : s.called[m.call]? = some m := by
  obtain ⟨i, hi, hget⟩ := List.getElem_of_mem hm
  have hcall : m.call = i := by
    have hnumber : (s.called.map SentMessage.call)[i]? = some m.call := by
      rw [List.getElem?_map, List.getElem?_eq_getElem hi, hget, Option.map_some]
    rw [h.numbered, List.getElem?_range hi] at hnumber
    exact (Option.some.inj hnumber).symm
  rw [hcall, List.getElem?_eq_getElem hi, hget]

/-- **No call is handed over twice**: counted in its own thread's messages, it is one call. -/
theorem handed_nodup {s : CrossThreadSend F T} (h : (crossThreadSend F T).Reachable s) :
    s.handed.Nodup := by
  have hcalled : s.called.Nodup := by
    apply List.Nodup.of_map SentMessage.call
    rw [(tracked_of_reachable h).numbered]
    exact List.nodup_range
  rw [List.nodup_iff_count_le_one]
  intro m
  have hown : ∀ ms : List (SentMessage T), (ofThread m.caller ms).count m = ms.count m := by
    intro ms
    rw [ofThread, List.count_filter (by simp)]
  calc s.handed.count m = (ofThread m.caller s.handed).count m := (hown s.handed).symm
    _ ≤ (ofThread m.caller s.called).count m := (handed_in_order h m.caller).sublist.count_le m
    _ = s.called.count m := hown s.called
    _ ≤ 1 := List.nodup_iff_count_le_one.mp hcalled m

theorem called_of_handed {s : CrossThreadSend F T} (h : (crossThreadSend F T).Reachable s)
    {m : SentMessage T} (hm : m ∈ s.handed) : m ∈ s.called := by
  have hmem : m ∈ ofThread m.caller s.handed := by
    rw [ofThread, List.mem_filter]
    exact ⟨hm, by simp⟩
  exact (List.mem_filter.mp ((handed_in_order h m.caller).subset hmem)).1

/-- **A queued message is handed over when its functor starts**, and not before. -/
theorem Tracked.handed_iff {s : CrossThreadSend F T} (h : Tracked s) {m : SentMessage T}
    (hcaller : m.caller ≠ none) : m ∈ s.handed ↔ .sendInLoop m ∈ s.loop.executed := by
  have hstarted : m ∈ s.handed ↔ m ∈ s.started := by
    rw [← h.started, List.mem_filter]
    simp [hcaller]
  rw [hstarted, CrossThreadSend.started, List.mem_filterMap]
  constructor
  · rintro ⟨f, hf, hmessage⟩
    cases f with
    | sendInLoop m' =>
      cases hmessage
      exact hf
    | other f => cases hmessage
  · intro hf
    exact ⟨_, hf, rfl⟩

/-- **Sends are exactly-once and ordered**: what is handed to `send_in_loop` was passed to `send`, no
call twice; a message sent on the loop thread is handed over at once, one sent elsewhere exactly when
its functor has been started; each thread's messages come in the order of its calls; and the functors
executed are a prefix of the functors pushed. -/
theorem sends_exactly_once_in_order {s : CrossThreadSend F T} (h : (crossThreadSend F T).Reachable s) :
    s.handed.Nodup ∧
    (∀ m ∈ s.handed, s.called[m.call]? = some m) ∧
    (∀ m ∈ s.called, m.caller = none → m ∈ s.handed) ∧
    (∀ m ∈ s.called, m.caller ≠ none → (m ∈ s.handed ↔ .sendInLoop m ∈ s.loop.executed)) ∧
    (∀ t, s.handed.filter (fun m => m.caller = t) <+: s.called.filter (fun m => m.caller = t)) ∧
    s.loop.executed <+: s.loop.pushed := by
  have htracked := tracked_of_reachable h
  refine ⟨handed_nodup h, ?_, ?_, ?_, handed_in_order h, ?_⟩
  · intro m hm
    exact htracked.called_getElem (called_of_handed h hm)
  · intro m hm hcaller
    have hmem : m ∈ ofThread none s.handed := by
      rw [htracked.direct, ofThread, List.mem_filter]
      exact ⟨hm, by simp [hcaller]⟩
    exact (List.mem_filter.mp hmem).1
  · intro m _ hcaller
    exact htracked.handed_iff hcaller
  · rw [functors_fifo h, List.append_assoc]
    exact List.prefix_append _ _

/-- Two threads send, the loop thread sends between them and from a functor; one message is queued
while the functors run. -/
def threeSenders : List (SendLabel Nat Nat) :=
  [.loop (.own .enterLoop), .loop (.own .test), .send 1 [1], .send 2 [2], .queueInLoop 2, .queueInLoop 1,
    .loop (.wakeup 2), .loop (.own (.pollReturns [.wakeup, .other])), .loop (.own .handle),
    .loop (.own .handle), .sendInLoop [0], .loop (.own .handlerReturns), .loop (.own .beginFunctors),
    .loop (.own .swap), .loop (.wakeup 1), .send 1 [3], .queueInLoop 1, .loop (.own .call),
    .sendInLoop [4], .loop (.own .functorReturns), .loop (.own .call)]

theorem sends_exactly_once_in_order_threeSenders :
    ∃ s ∈ (crossThreadSend Nat Nat).run create threeSenders,
      s.handed.map SentMessage.msg = [[0], [2], [4], [1]] ∧ s.handed.Nodup := by
  obtain ⟨s, hs, hhanded⟩ : ∃ s ∈ (crossThreadSend Nat Nat).run create threeSenders,
      s.handed.map SentMessage.msg = [[0], [2], [4], [1]] := by decide
  exact ⟨s, hs, hhanded, (sends_exactly_once_in_order (.of_run threeSenders hs)).1⟩

end CrossThreadSend

end Tudou
