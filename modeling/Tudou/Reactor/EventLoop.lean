import Mathlib.Algebra.Group.Nat.Defs
import Tudou.Foundation.Run

/-!
# `EventLoop`: pending functors and the wakeup descriptor

Model of `src/tudou/reactor/EventLoop.{h,cpp}`: `loop`, `queue_in_loop`, `run_in_loop`, `quit`,
`wakeup`, `on_read` and `do_pending_functors`, as steps of the loop thread and of any number of
other threads.  Every access to shared data is a step of its own: a push and the wakeup that
follows it, the swap of the queue and the runs of its functors.

* `LoopPhase` — where the loop thread is; user code runs before `loop()`, in event handlers and in
  functors.
* `eventLoop` — the transition system, over arbitrary functors and threads.
* `functors_fifo` — functors are taken in the order of their pushes, each once.
* `no_lost_wakeup` — **the loop thread never waits in `epoll_wait` for a functor nobody will wake
  it for**, if its own thread queues none before it enters `loop()`.
* `lost_wakeup_before_loop` — without the condition it can.
-/

namespace Tudou

open Transition

/-- A channel of a poll batch, as far as the wakeup protocol tells them apart. -/
inductive ActiveChannel where
  | wakeup
  | other
  deriving DecidableEq, Repr

/-- Where the loop thread is; the rest of the batch or of the functors stands with it. -/
inductive LoopPhase (F : Type*) where
  /-- Constructed, `loop()` not entered. -/
  | constructed
  /-- At `while (!isQuit_)`. -/
  | testing
  /-- Blocked in `epoll_wait`. -/
  | polling
  | dispatching (ready : List ActiveChannel)
  /-- In the callbacks of a channel. -/
  | handling (ready : List ActiveChannel)
  /-- In `do_pending_functors`, before the swap. -/
  | swapping
  | running (functors : List F)
  /-- In a functor. -/
  | calling (functors : List F)
  | returned
  deriving DecidableEq

namespace LoopPhase

variable {F : Type*}

/-- User code runs on the loop thread. -/
def inUserCode : LoopPhase F → Bool
  | constructed | handling _ | calling _ | returned => true
  | _ => false

/-- The functors swapped out and not started. -/
def batch : LoopPhase F → List F
  | running functors | calling functors => functors
  | _ => []

/-- Between the two writes of `isCallingPendingFunctors_`. -/
def inFunctors : LoopPhase F → Bool
  | swapping | running _ | calling _ => true
  | _ => false

/-- The queue is swapped before the next `epoll_wait`, or there is no next one. -/
def willSwap : LoopPhase F → Bool
  | dispatching _ | handling _ | swapping | returned => true
  | _ => false

def isConstructed : LoopPhase F → Bool
  | constructed => true
  | _ => false

/-- In `loop()` and after it, user code runs in a functor or before the next swap. -/
theorem of_inUserCode {phase : LoopPhase F} (h : phase.inUserCode = true)
    (hc : phase.isConstructed = false) :
    (∃ functors, phase = calling functors) ∨ phase.willSwap = true ∧ phase.inFunctors = false := by
  cases phase with
  | constructed => cases hc
  | handling _ | returned => exact .inr ⟨rfl, rfl⟩
  | calling functors => exact .inl ⟨functors, rfl⟩
  | testing | polling | dispatching _ | swapping | running _ => cases h

end LoopPhase

/-- `EventLoop`, the threads inside its operations, and what was pushed and executed so far. -/
structure EventLoop (F T : Type*) where
  phase : LoopPhase F
  pendingFunctors : List F
  isCallingPendingFunctors : Bool
  isQuit : Bool
  /-- The counter of the eventfd `wakeupFd_`. -/
  wakeupCounter : Nat
  /-- The loop thread is between the push and the wakeup of its own `queue_in_loop`. -/
  ownWaking : Bool
  /-- Other threads between the push and the wakeup of `queue_in_loop`. -/
  waking : List T
  /-- Other threads between the store and the wakeup of `quit`. -/
  quitting : List T
  pushed : List F
  executed : List F

/-- Steps of the loop thread. -/
inductive OwnStep (F : Type*) where
  | enterLoop
  | test
  | pollReturns (ready : List ActiveChannel)
  | handle
  | handlerReturns
  | beginFunctors
  | swap
  | call
  | functorReturns
  | endFunctors
  /-- User code calls `queue_in_loop`; it wakes the loop up in a step of its own. -/
  | queue (f : F)
  | wakeup
  | quit

/-- Steps of the loop thread and of other threads; `run_in_loop` is the call itself on the loop
thread and `queue_in_loop` elsewhere, and an empty functor is dropped by both. -/
inductive LoopLabel (F T : Type*) where
  | own (a : OwnStep F)
  | queue (t : T) (f : F)
  | wakeup (t : T)
  | quit (t : T)
  | quitWakeup (t : T)

/-- The functor a step of the loop thread pushes. -/
def OwnStep.pushes {F : Type*} : OwnStep F → List F
  | .queue f => [f]
  | _ => []

/-- The functor a step pushes. -/
def LoopLabel.pushes {F T : Type*} : LoopLabel F T → List F
  | .own a => a.pushes
  | .queue _ f => [f]
  | _ => []

/-- The largest value an eventfd holds. -/
def eventfdMax : Nat := 2 ^ 64 - 2

namespace EventLoop

variable {F T : Type*}

/-- `EventLoop::EventLoop()`. -/
def create : EventLoop F T where
  phase := .constructed
  pendingFunctors := []
  isCallingPendingFunctors := false
  isQuit := false
  wakeupCounter := 0
  ownWaking := false
  waking := []
  quitting := []
  pushed := []
  executed := []

/-- The locked part of `queue_in_loop`. -/
def push (s : EventLoop F T) (f : F) : EventLoop F T :=
  { s with pendingFunctors := s.pendingFunctors ++ [f], pushed := s.pushed ++ [f] }

/-- `wakeup()`: a write of one, which a full counter refuses with `EAGAIN`. -/
def wakeup (s : EventLoop F T) : EventLoop F T :=
  { s with wakeupCounter := if s.wakeupCounter < eventfdMax then s.wakeupCounter + 1 else s.wakeupCounter }

/-- `on_read()`: a read takes the whole counter. -/
def onRead (s : EventLoop F T) : EventLoop F T := { s with wakeupCounter := 0 }

/-- A step of the loop thread outside `wakeup()`. -/
def ownStep (s : EventLoop F T) (a : OwnStep F) : Option (EventLoop F T) :=
  match a, s.phase with
  | .enterLoop, .constructed => some { s with phase := .testing }
  | .test, .testing => some { s with phase := if s.isQuit then .returned else .polling }
  | .pollReturns ready, .polling => some { s with phase := .dispatching ready }
  | .handle, .dispatching (.wakeup :: ready) => some { s.onRead with phase := .dispatching ready }
  | .handle, .dispatching (.other :: ready) => some { s with phase := .handling ready }
  | .handlerReturns, .handling ready => some { s with phase := .dispatching ready }
  | .beginFunctors, .dispatching [] =>
    some { s with phase := .swapping, isCallingPendingFunctors := true }
  | .swap, .swapping => some { s with phase := .running s.pendingFunctors, pendingFunctors := [] }
  | .call, .running (f :: functors) =>
    some { s with phase := .calling functors, executed := s.executed ++ [f] }
  | .functorReturns, .calling functors => some { s with phase := .running functors }
  | .endFunctors, .running [] =>
    some { s with phase := .testing, isCallingPendingFunctors := false }
  | .queue f, phase =>
    if phase.inUserCode then some { s.push f with ownWaking := s.isCallingPendingFunctors } else none
  | .quit, phase => if phase.inUserCode then some { s with isQuit := true } else none
  | _, _ => none

variable [DecidableEq T]

def step (s : EventLoop F T) (l : LoopLabel F T) : Option (EventLoop F T) :=
  match l with
  | .own .wakeup => if s.ownWaking then some { s.wakeup with ownWaking := false } else none
  | .own a => if s.ownWaking then none else s.ownStep a
  | .queue t f =>
    if t ∈ s.waking ∨ t ∈ s.quitting then none else some { s.push f with waking := t :: s.waking }
  | .wakeup t => if t ∈ s.waking then some { s.wakeup with waking := s.waking.erase t } else none
  | .quit t =>
    if t ∈ s.waking ∨ t ∈ s.quitting then none
    else some { s with isQuit := true, quitting := t :: s.quitting }
  | .quitWakeup t =>
    if t ∈ s.quitting then some { s.wakeup with quitting := s.quitting.erase t } else none

end EventLoop

/-- **The event loop among any number of threads.** -/
def eventLoop (F T : Type*) [DecidableEq T] : System (EventLoop F T) (LoopLabel F T) where
  init := EventLoop.create
  step := EventLoop.step

namespace EventLoop

variable {F T : Type*}

/-- A wakeup leaves the eventfd readable. -/
theorem wakeupCounter_wakeup_pos (s : EventLoop F T) : 0 < s.wakeup.wakeupCounter := by
  show 0 < if s.wakeupCounter < eventfdMax then s.wakeupCounter + 1 else s.wakeupCounter
  unfold eventfdMax
  split
  · omega
  · omega

/-! ## Steps -/

/-- The functor a step starts to run. -/
def starts (s : EventLoop F T) : LoopLabel F T → List F
  | .own .call => s.phase.batch.take 1
  | _ => []

/-- **What a step of the loop thread does** outside `wakeup()`. -/
inductive OwnEnds (s : EventLoop F T) : OwnStep F → EventLoop F T → Prop where
  | enterLoop : s.phase = .constructed → OwnEnds s .enterLoop { s with phase := .testing }
  | leaveLoop : s.phase = .testing → OwnEnds s .test { s with phase := .returned }
  | poll : s.phase = .testing → OwnEnds s .test { s with phase := .polling }
  | pollReturns {ready : List ActiveChannel} : s.phase = .polling →
      OwnEnds s (.pollReturns ready) { s with phase := .dispatching ready }
  | readWakeup {ready : List ActiveChannel} : s.phase = .dispatching (.wakeup :: ready) →
      OwnEnds s .handle { s.onRead with phase := .dispatching ready }
  | handle {ready : List ActiveChannel} : s.phase = .dispatching (.other :: ready) →
      OwnEnds s .handle { s with phase := .handling ready }
  | handlerReturns {ready : List ActiveChannel} : s.phase = .handling ready →
      OwnEnds s .handlerReturns { s with phase := .dispatching ready }
  | beginFunctors : s.phase = .dispatching [] →
      OwnEnds s .beginFunctors { s with phase := .swapping, isCallingPendingFunctors := true }
  | swap : s.phase = .swapping →
      OwnEnds s .swap { s with phase := .running s.pendingFunctors, pendingFunctors := [] }
  | call {f : F} {functors : List F} : s.phase = .running (f :: functors) →
      OwnEnds s .call { s with phase := .calling functors, executed := s.executed ++ [f] }
  | functorReturns {functors : List F} : s.phase = .calling functors →
      OwnEnds s .functorReturns { s with phase := .running functors }
  | endFunctors : s.phase = .running [] →
      OwnEnds s .endFunctors { s with phase := .testing, isCallingPendingFunctors := false }
  | queue {f : F} : s.phase.inUserCode = true →
      OwnEnds s (.queue f) { s.push f with ownWaking := s.isCallingPendingFunctors }
  | quit : s.phase.inUserCode = true → OwnEnds s .quit { s with isQuit := true }

theorem ownStep_ends {s s' : EventLoop F T} {a : OwnStep F} (h : s.ownStep a = some s') :
    OwnEnds s a s' := by
  unfold ownStep at h
  split at h
  · cases h; exact .enterLoop ‹_›
  · cases h
    split
    · exact .leaveLoop ‹_›
    · exact .poll ‹_›
  · cases h; exact .pollReturns ‹_›
  · cases h; exact .readWakeup ‹_›
  · cases h; exact .handle ‹_›
  · cases h; exact .handlerReturns ‹_›
  · cases h; exact .beginFunctors ‹_›
  · cases h; exact .swap ‹_›
  · cases h; exact .call ‹_›
  · cases h; exact .functorReturns ‹_›
  · cases h; exact .endFunctors ‹_›
  · split at h
    · cases h; exact .queue ‹_›
    · cases h
  · split at h
    · cases h; exact .quit ‹_›
    · cases h
  · cases h

/-- **What a step does**, of the loop thread or of another one. -/
inductive StepEnds [DecidableEq T] (s : EventLoop F T) : LoopLabel F T → EventLoop F T → Prop where
  | own {a : OwnStep F} {s' : EventLoop F T} : s.ownWaking = false → OwnEnds s a s' →
      StepEnds s (.own a) s'
  | ownWakeup : s.ownWaking = true → StepEnds s (.own .wakeup) { s.wakeup with ownWaking := false }
  | queue {t : T} {f : F} : StepEnds s (.queue t f) { s.push f with waking := t :: s.waking }
  | wakeup {t : T} : t ∈ s.waking →
      StepEnds s (.wakeup t) { s.wakeup with waking := s.waking.erase t }
  | quit {t : T} : StepEnds s (.quit t) { s with isQuit := true, quitting := t :: s.quitting }
  | quitWakeup {t : T} : t ∈ s.quitting →
      StepEnds s (.quitWakeup t) { s.wakeup with quitting := s.quitting.erase t }

variable [DecidableEq T]

theorem step_ends {s s' : EventLoop F T} {l : LoopLabel F T} (h : s.step l = some s') :
    StepEnds s l s' := by
  unfold step at h
  split at h
  · split at h
    · cases h; exact .ownWakeup ‹_›
    · cases h
  · split at h
    · cases h
    · exact .own (Bool.eq_false_iff.mpr ‹_›) (ownStep_ends h)
  · split at h
    · cases h
    · cases h; exact .queue
  · split at h
    · cases h; exact .wakeup ‹_›
    · cases h
  · split at h
    · cases h
    · cases h; exact .quit
  · split at h
    · cases h; exact .quitWakeup ‹_›
    · cases h

/-! ## Order of the functors -/

omit [DecidableEq T] in
theorem OwnEnds.log {s s' : EventLoop F T} {a : OwnStep F} (h : OwnEnds s a s') :
    s'.pushed = s.pushed ++ a.pushes ∧ s'.executed = s.executed ++ s.starts (.own a) := by
  cases h with
  | call hph =>
    constructor
    · simp [OwnStep.pushes]
    · simp [starts, hph, LoopPhase.batch]
  | queue _ => exact ⟨rfl, by simp [starts, push]⟩
  | enterLoop _ | leaveLoop _ | poll _ | pollReturns _ | readWakeup _ | handle _ | handlerReturns _
  | beginFunctors _ | swap _ | functorReturns _ | endFunctors _ | quit _ =>
    simp [OwnStep.pushes, starts, onRead]

/-- **What a step adds to the histories** of pushed and executed functors. -/
theorem step_log {s s' : EventLoop F T} {l : LoopLabel F T} (h : s.step l = some s') :
    s'.pushed = s.pushed ++ l.pushes ∧ s'.executed = s.executed ++ s.starts l := by
  cases step_ends h with
  | own _ h => exact h.log
  | queue => exact ⟨rfl, by simp [starts, push]⟩
  | ownWakeup _ | wakeup _ | quit | quitWakeup _ =>
    simp [LoopLabel.pushes, OwnStep.pushes, starts, EventLoop.wakeup]

/-- What was pushed has been executed, is in the batch being run, or is pending, in order. -/
def Fifo (s : EventLoop F T) : Prop :=
  s.pushed = s.executed ++ s.phase.batch ++ s.pendingFunctors

omit [DecidableEq T] in
theorem Fifo.push {s : EventLoop F T} (h : s.Fifo) (f : F) : (s.push f).Fifo := by
  unfold Fifo EventLoop.push at *
  rw [h, ← List.append_assoc]

omit [DecidableEq T] in
theorem Fifo.own {s s' : EventLoop F T} {a : OwnStep F} (h : s.Fifo) (hs : OwnEnds s a s') :
    s'.Fifo := by
  unfold Fifo at h
  cases hs with
  | swap hph | call hph =>
    unfold Fifo
    rw [hph] at h
    simpa [LoopPhase.batch] using h
  | queue _ => exact Fifo.push h _
  | quit _ => exact h
  | enterLoop hph | leaveLoop hph | poll hph | pollReturns hph | readWakeup hph | handle hph
  | handlerReturns hph | beginFunctors hph | functorReturns hph | endFunctors hph =>
    rw [hph] at h
    exact h

theorem Fifo.step {s s' : EventLoop F T} {l : LoopLabel F T} (h : s.Fifo)
    (hs : s.step l = some s') : s'.Fifo := by
  cases step_ends hs with
  | own _ hs => exact h.own hs
  | queue => exact h.push _
  | ownWakeup _ | wakeup _ | quit | quitWakeup _ => exact h

/-- **Functors are taken in the order of their pushes, each once.** -/
theorem functors_fifo {s : EventLoop F T} (h : (eventLoop F T).Reachable s) : s.Fifo := by
  have hinit : (eventLoop F T).init.Fifo := rfl
  exact h.invariant hinit fun s l s' hI _ hs => hI.step hs

/-- The functors pushed and not started, in order. -/
def waiting (s : EventLoop F T) : List F := s.phase.batch ++ s.pendingFunctors

/-- **What a step does to the waiting functors**: what it starts leaves at the head, and what it
pushes enters at the tail. -/
theorem Fifo.waiting_step {s s' : EventLoop F T} {l : LoopLabel F T} (h : s.Fifo)
    (hs : s.step l = some s') : s.starts l ++ s'.waiting = s.waiting ++ l.pushes := by
  obtain ⟨hpushed, hexecuted⟩ := step_log hs
  have h' := h.step hs
  unfold Fifo at h h'
  rw [hpushed, hexecuted, h] at h'
  simp only [List.append_assoc] at h'
  have hsame := (List.append_cancel_left h').symm
  simpa [waiting] using hsame

/-! ## Wakeups -/

/-- The loop thread is blocked with a functor pending, and neither the eventfd nor a thread on its
way to `wakeup()` will unblock it. -/
def Stalled (s : EventLoop F T) : Prop :=
  s.phase = .polling ∧ s.pendingFunctors ≠ [] ∧ s.wakeupCounter = 0 ∧ s.waking = [] ∧
    s.ownWaking = false

/-- What keeps a pending functor from being forgotten. -/
structure Noticed (s : EventLoop F T) : Prop where
  calling : s.isCallingPendingFunctors = s.phase.inFunctors
  ownWaking : s.ownWaking = true → ∃ functors, s.phase = .calling functors
  noticed : s.pendingFunctors = [] ∨ 0 < s.wakeupCounter ∨ s.waking ≠ [] ∨ s.ownWaking = true ∨
    s.phase.willSwap = true

/-- The loop's own thread queues no functor before it enters `loop()`. -/
def queuesAfterEntry (s : EventLoop F T) (l : LoopLabel F T) : Bool :=
  match l with
  | .own (.queue _) => !s.phase.isConstructed
  | _ => true

omit [DecidableEq T] in
/-- Outside the phases that swap before the next `epoll_wait`, with no wakeup of its own to make. -/
theorem Noticed.elsewhere {s : EventLoop F T} (h : Noticed s) (ho : s.ownWaking = false)
    (hph : s.phase.willSwap = false) :
    s.pendingFunctors = [] ∨ 0 < s.wakeupCounter ∨ s.waking ≠ [] := by
  rcases h.noticed with hn | hn | hn | hn | hn
  · exact .inl hn
  · exact .inr (.inl hn)
  · exact .inr (.inr hn)
  · rw [ho] at hn; cases hn
  · rw [hph] at hn; cases hn

omit [DecidableEq T] in
/-- A move of the loop thread that keeps the queue, the eventfd and the waking threads. -/
theorem Noticed.move {s : EventLoop F T} {phase : LoopPhase F} {executed : List F} {calling : Bool}
    (h : Noticed s) (ho : s.ownWaking = false) (hph : s.phase.willSwap = false)
    (hc : calling = phase.inFunctors) :
    Noticed { s with phase := phase, executed := executed, isCallingPendingFunctors := calling } := by
  refine ⟨hc, fun hw => ?_, ?_⟩
  · rw [show s.ownWaking = true from hw] at ho
    cases ho
  · rcases h.elsewhere ho hph with hn | hn | hn
    · exact .inl hn
    · exact .inr (.inl hn)
    · exact .inr (.inr (.inl hn))

omit [DecidableEq T] in
theorem Noticed.own {s s' : EventLoop F T} {a : OwnStep F} (h : Noticed s)
    (ho : s.ownWaking = false) (hg : ∀ f, a = .queue f → s.phase.isConstructed = false)
    (hs : OwnEnds s a s') : Noticed s' := by
  have hcalling := h.calling
  have hno : ∀ {P : Prop}, s.ownWaking = true → P := fun hw => by rw [ho] at hw; cases hw
  cases hs with
  | enterLoop hph | poll hph | call hph | functorReturns hph | endFunctors hph =>
    rw [hph] at hcalling
    exact h.move ho (by rw [hph]; rfl) (by first | exact hcalling | rfl)
  | leaveLoop hph | pollReturns hph | readWakeup hph | handle hph | handlerReturns hph
  | beginFunctors hph =>
    rw [hph] at hcalling
    exact ⟨by first | exact hcalling | rfl, hno, by simp [LoopPhase.willSwap]⟩
  | swap hph =>
    rw [hph] at hcalling
    exact ⟨hcalling, hno, .inl rfl⟩
  | quit _ => exact ⟨hcalling, hno, h.noticed⟩
  | @queue f hu =>
    rcases LoopPhase.of_inUserCode hu (hg f rfl) with ⟨functors, hph⟩ | ⟨hswap, hin⟩
    · -- in a functor: the loop wakes itself up
      rw [hph] at hcalling
      exact ⟨h.calling, fun _ => ⟨functors, hph⟩, .inr (.inr (.inr (.inl hcalling)))⟩
    · -- elsewhere: this iteration still swaps
      refine ⟨h.calling, fun hw => ?_, .inr (.inr (.inr (.inr hswap)))⟩
      rw [show s.isCallingPendingFunctors = true from hw, hin] at hcalling
      cases hcalling

/-- **Step lemma** for wakeups. -/
theorem Noticed.step {s s' : EventLoop F T} {l : LoopLabel F T} (h : Noticed s)
    (hg : s.queuesAfterEntry l = true) (hs : StepEnds s l s') : Noticed s' := by
  cases hs with
  | own ho hs =>
    refine h.own ho ?_ hs
    rintro f rfl
    simpa [queuesAfterEntry] using hg
  | ownWakeup _ =>
    exact ⟨h.calling, fun hw => (by cases hw), .inr (.inl (wakeupCounter_wakeup_pos s))⟩
  | queue => exact ⟨h.calling, h.ownWaking, .inr (.inr (.inl (List.cons_ne_nil _ _)))⟩
  | quit => exact ⟨h.calling, h.ownWaking, h.noticed⟩
  | wakeup _ | quitWakeup _ =>
    exact ⟨h.calling, h.ownWaking, .inr (.inl (wakeupCounter_wakeup_pos s))⟩

/-- **No lost wakeup**: whatever the threads do and in whatever order, the loop thread is never
blocked in `epoll_wait` with a functor pending, the eventfd at zero and nobody about to write it. -/
theorem no_lost_wakeup {s : EventLoop F T}
    (h : (eventLoop F T).Reaches (fun s l => s.queuesAfterEntry l = true) s) : ¬s.Stalled := by
  have hinit : Noticed (eventLoop F T).init := ⟨rfl, fun hw => (by cases hw), .inl rfl⟩
  have hinv : Noticed s := h.invariant hinit fun s l s' hI hg hs => hI.step hg (step_ends hs)
  rintro ⟨hph, hpending, hcounter, hwaking, hown⟩
  rcases hinv.elsewhere hown (by rw [hph]; rfl) with hn | hn | hn
  · exact hpending hn
  · omega
  · exact hn hwaking

/-- A thread queues a functor while the loop polls, and the functor queues another. -/
def queueFromFunctor : List (LoopLabel Nat Nat) :=
  [.own .enterLoop, .own .test, .queue 1 7, .wakeup 1, .own (.pollReturns [.wakeup]), .own .handle,
    .own .beginFunctors, .own .swap, .own .call, .own (.queue 8), .own .wakeup, .own .functorReturns,
    .own .endFunctors, .own .test]

theorem no_lost_wakeup_queueFromFunctor :
    ∃ s ∈ (eventLoop Nat Nat).run (eventLoop Nat Nat).init queueFromFunctor,
      s.phase = .polling ∧ s.pendingFunctors = [8] ∧ ¬s.Stalled := by
  have hg : (eventLoop Nat Nat).Admits (fun s l => s.queuesAfterEntry l = true)
      (eventLoop Nat Nat).init queueFromFunctor := by
    decide
  obtain ⟨s, hs, hph, hpending⟩ :
      ∃ s ∈ (eventLoop Nat Nat).run (eventLoop Nat Nat).init queueFromFunctor,
        s.phase = .polling ∧ s.pendingFunctors = [8] := by
    decide
  exact ⟨s, hs, hph, hpending, no_lost_wakeup (.of_run _ hs hg)⟩

/-- **A wakeup can be lost before `loop()`**: what the loop's own thread queues there waits for an
unrelated event. -/
theorem lost_wakeup_before_loop :
    ¬∀ s : EventLoop Nat Nat, (eventLoop Nat Nat).Reachable s → ¬s.Stalled := by
  intro h
  obtain ⟨s, hs, hph, hpending, hcounter, hwaking, hown⟩ :
      ∃ s ∈ (eventLoop Nat Nat).run (eventLoop Nat Nat).init
          [.own (.queue 7), .own .enterLoop, .own .test],
        s.phase = .polling ∧ s.pendingFunctors ≠ [] ∧ s.wakeupCounter = 0 ∧ s.waking = [] ∧
          s.ownWaking = false := by
    decide
  exact h s (.of_run _ hs) ⟨hph, hpending, hcounter, hwaking, hown⟩

end EventLoop

end Tudou
