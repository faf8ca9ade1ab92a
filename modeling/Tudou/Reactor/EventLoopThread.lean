import Tudou.Reactor.Quit

/-!
# `EventLoopThread`: the handshake around a loop on a thread of its own

Model of `src/tudou/reactor/EventLoopThread.cpp`: the constructor starts the thread and waits on
`loopCondition_` until `loop_` is set; `thread_func` sets it, runs the init callback, notifies, runs
`loop()` and resets `loop_`; the destructor quits the loop under `loopMutex_` and joins the thread.
The loop in the middle is the one of `EventLoop`, called by any number of other threads.

* `EventLoopThread` — where the two threads are, and `loop_`.
* `eventLoopThread` — the transition system; a condition variable may also wake up by itself.
* `step_ends` — what each step does.
-/

namespace Tudou

open Transition

/-- Where the thread that constructs and destroys is. -/
inductive OwnerPhase where
  /-- Before `thread_` is started. -/
  | starting
  /-- At `loopMutex_`, before the first look at `loop_` or after a wait. -/
  | locking
  /-- At the predicate of `wait`, with the mutex. -/
  | checking
  | asleep
  | constructed
  /-- At `loopMutex_` in the destructor. -/
  | destroying
  /-- At `if (loop_)`, with the mutex. -/
  | quitting
  /-- Between the store and the wakeup of `quit()`, with the mutex. -/
  | waking
  /-- At the end of the locked block. -/
  | unlocking
  | joining
  | destroyed
  deriving DecidableEq, Repr

/-- Where `thread_func` is. -/
inductive ThreadPhase where
  | unstarted
  /-- At `loopMutex_`. -/
  | starting
  /-- Before `loop_` is set, with the mutex. -/
  | creating
  /-- In the init callback, with the mutex. -/
  | initializing
  | notifying
  /-- In `loop_->loop()`. -/
  | looping
  /-- At `loopMutex_`, with the loop left. -/
  | leaving
  /-- Before `loop_.reset()`, with the mutex. -/
  | resetting
  | done
  deriving DecidableEq, Repr

namespace OwnerPhase

def holdsMutex : OwnerPhase → Bool
  | checking | quitting | waking | unlocking => true
  | _ => false

def isConstructed : OwnerPhase → Bool
  | starting | locking | checking | asleep => false
  | _ => true

/-- Inside the constructor, or in the destructor before `join()`. -/
def isBusy : OwnerPhase → Bool
  | starting | locking | checking | asleep | destroying | quitting | waking | unlocking => true
  | constructed | joining | destroyed => false

/-- The steps that are left until the owner waits for `thread_func`, or is through. -/
def remaining : OwnerPhase → Nat
  | destroying => 4
  | quitting => 3
  | locking | waking => 2
  | checking | unlocking => 1
  | starting | asleep | constructed | joining | destroyed => 0

/-- The destructor has called `quit()`, if there was a loop. -/
def hasQuit : OwnerPhase → Bool
  | waking | unlocking | joining => true
  | _ => false

/-- A step that neither begins nor ends a part of the owner's course: no wait, no call into the loop,
and the same side of the constructor's return. -/
def GoesOn (owner owner' : OwnerPhase) : Prop :=
  owner ≠ starting ∧ owner' ≠ starting ∧ owner ≠ waking ∧ owner' ≠ waking ∧ owner' ≠ asleep ∧
    owner'.isConstructed = owner.isConstructed ∧ (owner'.hasQuit = true → owner.hasQuit = true)

instance (owner owner' : OwnerPhase) : Decidable (GoesOn owner owner') :=
  inferInstanceAs (Decidable (_ ∧ _))

theorem isConstructed_of_hasQuit {owner : OwnerPhase} (h : owner.hasQuit = true) :
    owner.isConstructed = true := by
  cases owner with
  | waking | unlocking | joining => rfl
  | starting | locking | checking | asleep | constructed | destroying | quitting | destroyed => cases h

end OwnerPhase

namespace ThreadPhase

def holdsMutex : ThreadPhase → Bool
  | creating | initializing | resetting => true
  | _ => false

/-- `loop_` is set. -/
def hasLoop : ThreadPhase → Bool
  | initializing | notifying | looping | leaving | resetting => true
  | _ => false

/-- `notify_one()` is still to come. -/
def willNotify : ThreadPhase → Bool
  | starting | creating | initializing | notifying => true
  | _ => false

def hasLeft : ThreadPhase → Bool
  | leaving | resetting | done => true
  | _ => false

/-- The steps of `thread_func` that are left, `loop()` taken as one. -/
def remaining : ThreadPhase → Nat
  | unstarted => 8
  | starting => 7
  | creating => 6
  | initializing => 5
  | notifying => 4
  | looping => 3
  | leaving => 2
  | resetting => 1
  | done => 0

/-- The first locked block is over. -/
def isInitialized : ThreadPhase → Bool
  | notifying | looping | leaving | resetting | done => true
  | _ => false

/-- A step of `thread_func` that leaves `loop_` alone. -/
def GoesOn (thread thread' : ThreadPhase) : Prop :=
  thread ≠ unstarted ∧ thread' ≠ unstarted ∧ thread.hasLoop = thread'.hasLoop ∧
    (thread.isInitialized = true → thread'.isInitialized = true)

instance (thread thread' : ThreadPhase) : Decidable (GoesOn thread thread') :=
  inferInstanceAs (Decidable (_ ∧ _))

end ThreadPhase

def LoopPhase.hasReturned {F : Type*} : LoopPhase F → Bool
  | returned => true
  | _ => false

theorem LoopPhase.hasReturned_iff {F : Type*} {phase : LoopPhase F} :
    phase.hasReturned = true ↔ phase = returned := by
  cases phase <;> simp [hasReturned]

/-- An `EventLoopThread`; the destructor calls into the loop as `none`, other threads as `some t`. -/
structure EventLoopThread (F T : Type*) where
  owner : OwnerPhase
  thread : ThreadPhase
  loop : Option (EventLoop F (Option T))

inductive HandshakeStep (F T : Type*) where
  | startThread
  | lock
  | check
  | spuriousWakeup
  | destroy
  | quit
  | wakeup
  | unlock
  | join
  | threadLock
  | createLoop
  | initReturns
  | notify
  | loopReturns
  | resetLoop
  /-- A step of the loop thread in the init callback or in `loop()`, or of another thread that calls
  into the loop.  Calls on a loop that is gone are left out. -/
  | loop (l : LoopLabel F (Option T))

/-- A step of the handshake, as opposed to one of the loop, or of a thread that wakes up by itself. -/
def HandshakeStep.isHandshake {F T : Type*} : HandshakeStep F T → Bool
  | .loop _ | .spuriousWakeup => false
  | _ => true

namespace EventLoopThread

variable {F T : Type*}

def create : EventLoopThread F T where
  owner := .starting
  thread := .unstarted
  loop := none

def isLocked (s : EventLoopThread F T) : Bool := s.owner.holdsMutex || s.thread.holdsMutex

/-- Who may make this step of the loop now: the init callback does not run the loop. -/
def allows (s : EventLoopThread F T) : LoopLabel F (Option T) → Bool
  | .own a => match s.thread with
    | .initializing => !a.advances
    | .looping => true
    | _ => false
  | .queue t _ | .wakeup t | .quit t | .quitWakeup t => t.isSome

variable [DecidableEq T]

def onLoop (s : EventLoopThread F T) (l : LoopLabel F (Option T)) : Option (EventLoopThread F T) := do
  let loop ← s.loop
  let loop ← loop.step l
  return { s with loop := some loop }

def step (s : EventLoopThread F T) : HandshakeStep F T → Option (EventLoopThread F T)
  | .startThread =>
    if s.owner = .starting then some { s with owner := .locking, thread := .starting } else none
  | .lock =>
    if s.isLocked then none
    else match s.owner with
      | .locking => some { s with owner := .checking }
      | .destroying => some { s with owner := .quitting }
      | _ => none
  | .check =>
    if s.owner = .checking then
      some { s with owner := if s.loop.isSome then .constructed else .asleep }
    else none
  | .spuriousWakeup => if s.owner = .asleep then some { s with owner := .locking } else none
  | .destroy => if s.owner = .constructed then some { s with owner := .destroying } else none
  | .quit =>
    if s.owner = .quitting then
      if s.loop.isSome then (s.onLoop (.quit none)).map fun s => { s with owner := .waking }
      else some { s with owner := .unlocking }
    else none
  | .wakeup =>
    if s.owner = .waking then
      (s.onLoop (.quitWakeup none)).map fun s => { s with owner := .unlocking }
    else none
  | .unlock => if s.owner = .unlocking then some { s with owner := .joining } else none
  | .join =>
    if s.owner = .joining ∧ s.thread = .done then some { s with owner := .destroyed } else none
  | .threadLock =>
    if s.isLocked then none
    else match s.thread with
      | .starting => some { s with thread := .creating }
      | .leaving => some { s with thread := .resetting }
      | _ => none
  | .createLoop =>
    if s.thread = .creating then some { s with thread := .initializing, loop := some .create } else none
  | .initReturns =>
    if s.thread = .initializing then some { s with thread := .notifying } else none
  | .notify =>
    if s.thread = .notifying then
      some { s with thread := .looping, owner := if s.owner = .asleep then .locking else s.owner }
    else none
  | .loopReturns =>
    if s.thread = .looping ∧ s.loop.any (·.phase.hasReturned) then
      some { s with thread := .leaving }
    else none
  | .resetLoop =>
    if s.thread = .resetting then some { s with thread := .done, loop := none } else none
  | .loop l => if s.allows l then s.onLoop l else none

end EventLoopThread

/-- One `EventLoopThread` with the threads that call into its loop. -/
def eventLoopThread (F T : Type*) [DecidableEq T] : System (EventLoopThread F T) (HandshakeStep F T) where
  init := EventLoopThread.create
  step := EventLoopThread.step

namespace EventLoopThread

variable {F T : Type*} [DecidableEq T]

/-! ## The steps -/

/-- What each step does. -/
inductive StepEnds (s : EventLoopThread F T) : HandshakeStep F T → EventLoopThread F T → Prop
  | startThread (ho : s.owner = .starting) :
      StepEnds s .startThread { s with owner := .locking, thread := .starting }
  | lock (ho : s.owner = .locking) (hfree : s.isLocked = false) :
      StepEnds s .lock { s with owner := .checking }
  | lockAgain (ho : s.owner = .destroying) (hfree : s.isLocked = false) :
      StepEnds s .lock { s with owner := .quitting }
  | returns {l : EventLoop F (Option T)} (ho : s.owner = .checking) (hl : s.loop = some l) :
      StepEnds s .check { s with owner := .constructed }
  | waits (ho : s.owner = .checking) (hl : s.loop = none) :
      StepEnds s .check { s with owner := .asleep }
  | spuriousWakeup (ho : s.owner = .asleep) : StepEnds s .spuriousWakeup { s with owner := .locking }
  | destroy (ho : s.owner = .constructed) : StepEnds s .destroy { s with owner := .destroying }
  | quit {l l' : EventLoop F (Option T)} (ho : s.owner = .quitting) (hl : s.loop = some l)
      (hs : l.step (.quit none) = some l') : StepEnds s .quit { s with owner := .waking, loop := some l' }
  | gone (ho : s.owner = .quitting) (hl : s.loop = none) :
      StepEnds s .quit { s with owner := .unlocking }
  | wakeup {l l' : EventLoop F (Option T)} (ho : s.owner = .waking) (hl : s.loop = some l)
      (hs : l.step (.quitWakeup none) = some l') :
      StepEnds s .wakeup { s with owner := .unlocking, loop := some l' }
  | unlock (ho : s.owner = .unlocking) : StepEnds s .unlock { s with owner := .joining }
  | join (ho : s.owner = .joining) (ht : s.thread = .done) :
      StepEnds s .join { s with owner := .destroyed }
  | threadLock (ht : s.thread = .starting) (hfree : s.isLocked = false) :
      StepEnds s .threadLock { s with thread := .creating }
  | threadLockAgain (ht : s.thread = .leaving) (hfree : s.isLocked = false) :
      StepEnds s .threadLock { s with thread := .resetting }
  | createLoop (ht : s.thread = .creating) :
      StepEnds s .createLoop { s with thread := .initializing, loop := some .create }
  | initReturns (ht : s.thread = .initializing) : StepEnds s .initReturns { s with thread := .notifying }
  | notifies (ht : s.thread = .notifying) (ho : s.owner = .asleep) :
      StepEnds s .notify { s with thread := .looping, owner := .locking }
  | notifiesNobody (ht : s.thread = .notifying) (ho : s.owner ≠ .asleep) :
      StepEnds s .notify { s with thread := .looping }
  | loopReturns {l : EventLoop F (Option T)} (ht : s.thread = .looping) (hl : s.loop = some l)
      (hp : l.phase = .returned) : StepEnds s .loopReturns { s with thread := .leaving }
  | resetLoop (ht : s.thread = .resetting) :
      StepEnds s .resetLoop { s with thread := .done, loop := none }
  | loop {a : LoopLabel F (Option T)} {l l' : EventLoop F (Option T)} (hl : s.loop = some l)
      (ha : s.allows a = true) (hs : l.step a = some l') :
      StepEnds s (.loop a) { s with loop := some l' }

theorem onLoop_eq_some {s s' : EventLoopThread F T} {a : LoopLabel F (Option T)} :
    s.onLoop a = some s' ↔
      ∃ l l', s.loop = some l ∧ l.step a = some l' ∧ s' = { s with loop := some l' } := by
  simp only [onLoop, Option.bind_eq_bind, Option.bind_eq_some_iff, Option.pure_def, Option.some.injEq]
  constructor
  · rintro ⟨l, hl, l', hs, rfl⟩
    exact ⟨l, l', hl, hs, rfl⟩
  · rintro ⟨l, l', hl, hs, rfl⟩
    exact ⟨l, hl, l', hs, rfl⟩

theorem step_ends {s s' : EventLoopThread F T} {a : HandshakeStep F T} (h : s.step a = some s') :
    StepEnds s a s' := by
  cases a with
  | startThread | spuriousWakeup | destroy | unlock | createLoop | initReturns | resetLoop =>
    simp only [step] at h
    split at h
    · cases h
      constructor
      assumption
    · cases h
  | lock =>
    simp only [step] at h
    split at h
    · cases h
    · rename_i hfree
      rw [Bool.not_eq_true] at hfree
      split at h
      · cases h
        exact .lock ‹_› hfree
      · cases h
        exact .lockAgain ‹_› hfree
      · cases h
  | threadLock =>
    simp only [step] at h
    split at h
    · cases h
    · rename_i hfree
      rw [Bool.not_eq_true] at hfree
      split at h
      · cases h
        exact .threadLock ‹_› hfree
      · cases h
        exact .threadLockAgain ‹_› hfree
      · cases h
  | check =>
    simp only [step] at h
    split at h
    · rename_i ho
      cases hl : s.loop with
      | none =>
        rw [if_neg (by rw [hl]; simp)] at h
        cases h
        exact .waits ho hl
      | some l =>
        rw [if_pos (by rw [hl]; rfl)] at h
        cases h
        exact .returns ho hl
    · cases h
  | quit =>
    simp only [step] at h
    split at h
    · rename_i ho
      split at h
      · obtain ⟨s₁, hs₁, rfl⟩ := Option.map_eq_some_iff.mp h
        obtain ⟨l, l', hl, hs, rfl⟩ := onLoop_eq_some.mp hs₁
        exact .quit ho hl hs
      · rename_i hnone
        cases h
        exact .gone ho (by simpa using hnone)
    · cases h
  | wakeup =>
    simp only [step] at h
    split at h
    · obtain ⟨s₁, hs₁, rfl⟩ := Option.map_eq_some_iff.mp h
      obtain ⟨l, l', hl, hs, rfl⟩ := onLoop_eq_some.mp hs₁
      exact .wakeup ‹_› hl hs
    · cases h
  | join =>
    simp only [step] at h
    split at h
    · rename_i hcan
      cases h
      exact .join hcan.1 hcan.2
    · cases h
  | notify =>
    simp only [step] at h
    split at h
    · rename_i ht
      cases h
      split
      · exact .notifies ht ‹_›
      · exact .notifiesNobody ht ‹_›
    · cases h
  | loopReturns =>
    simp only [step] at h
    split at h
    · rename_i hcan
      cases h
      obtain ⟨l, hl, hreturned⟩ := (Option.any_eq_true _ _).mp hcan.2
      exact .loopReturns hcan.1 hl (LoopPhase.hasReturned_iff.mp hreturned)
    · cases h
  | loop l =>
    simp only [step] at h
    split at h
    · obtain ⟨l, l', hl, hs, rfl⟩ := onLoop_eq_some.mp h
      exact .loop hl ‹_› hs
    · cases h

end EventLoopThread

end Tudou
