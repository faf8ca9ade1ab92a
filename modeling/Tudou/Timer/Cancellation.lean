import Tudou.Reactor.EventLoop
import Tudou.Timer.TimerIndex

/-!
# Timers added and cancelled from any thread

`add_timer` and `erase_timer` (`run_at`, `run_after`, `run_every` and `cancel` of `EventLoop`) hand
their functors to `run_in_loop`, which runs them at once on the loop thread and queues them
elsewhere.  The model puts the event loop and its timer queue together, with any number of other
threads inside `add_timer`.

* `timerLoop` — the transition system; its log says which timers were cancelled after their
  `add_timer` had returned, and which callbacks started.
* `Gone` — a timer id no step of the queue brings back.
* `cancelled_stays_cancelled` — **no callback of a cancelled timer starts**, if the loop thread
  cancels no timer whose functor is still queued.
* `cancel_overtakes_add` — it does otherwise: `erase_timer` finds nothing and the timer comes later.
-/

namespace Tudou

open Transition

/-- The functors in the loop's queue. -/
inductive TimerFunctor where
  | addTimer (timer : Nat)
  /-- With whether the `add_timer` that gave the id had returned when `erase_timer` was called. -/
  | eraseTimer (timerId : Nat) (afterReturn : Bool)
  | other
  deriving DecidableEq, Repr

/-- Where another thread is in `add_timer`. -/
inductive AddPhase where
  | outside
  /-- The timer is made, its functor not pushed. -/
  | made (timer timerId : Nat)
  | queued (timerId : Nat)
  deriving DecidableEq, Repr

inductive TimerEvent where
  /-- `erase_timer(timerId)`, called after the return of its `add_timer`, has had its effect. -/
  | cancelled (timerId : Nat)
  /-- `timer->run()` begins. -/
  | started (timerId : Nat)
  deriving DecidableEq, Repr

structure TimerLoop (T : Type*) where
  loop : EventLoop TimerFunctor T
  queue : TimerQueue
  adding : T → AddPhase
  /-- What `add_timer` has returned so far. -/
  returned : List Nat
  log : List TimerEvent

inductive TimerLoopLabel (T : Type*) where
  /-- The loop thread outside the timer queue. -/
  | own (a : OwnStep TimerFunctor)
  /-- User code on the loop thread calls `add_timer`. -/
  | addTimer (timer : Nat) (when interval : Int)
  /-- User code on the loop thread calls `erase_timer`. -/
  | eraseTimer (timerId : Nat)
  /-- The callback of the timer channel. -/
  | onTimerfdRead (a : TimerStep)
  /-- Time passes. -/
  | clock (a : TimerStep)
  /-- Thread `t` calls `add_timer`, which gives it an id. -/
  | make (t : T) (timer : Nat) (when interval : Int)
  | queueAdd (t : T)
  | addReturns (t : T)
  /-- Thread `t` calls `erase_timer`. -/
  | queueErase (t : T) (timerId : Nat)
  | queueOther (t : T)
  | wakeup (t : T)
  | quit (t : T)
  | quitWakeup (t : T)

/-- The stages of `on_timerfd_read`. -/
def TimerStep.isStage : TimerStep → Bool
  | .read | .next | .callbackReturns | .sync => true
  | _ => false

/-- What happens to the clock and the timerfd by themselves. -/
def TimerStep.isPassage : TimerStep → Bool
  | .tick _ | .holdUp _ | .expire => true
  | _ => false

/-- Where the loop thread is in the timer queue when it takes a step outside it: in no operation, or
in a callback that queues functors or quits. -/
def OwnStep.allowedIn (phase : QueuePhase) : OwnStep TimerFunctor → Bool
  | .queue f => phase.runsFunctors && f == .other
  | .wakeup | .quit => phase.runsFunctors
  | _ => phase == .idle

namespace LoopPhase

variable {F : Type*}

def isHandling : LoopPhase F → Bool
  | handling _ => true
  | _ => false

end LoopPhase

namespace TimerQueue

/-- The timer whose callback the queue is in. -/
def started (q : TimerQueue) : TimerStep → List TimerEvent
  | .next =>
    match q.phase with
    | .calling timer _ => [.started (q.heap timer).id]
    | _ => []
  | _ => []

end TimerQueue

namespace TimerLoop

variable {T : Type*}

def create (now : Int) : TimerLoop T where
  loop := EventLoop.create
  queue := TimerQueue.construct now
  adding _ := .outside
  returned := []
  log := []

/-- What `erase_timer` leaves in the log once its effect has run. -/
def cancelled (timerId : Nat) (afterReturn : Bool) : List TimerEvent :=
  if afterReturn then [.cancelled timerId] else []

/-- Run a functor. -/
def execute (s : TimerLoop T) : TimerFunctor → Option (TimerLoop T)
  | .addTimer timer => (s.queue.step (.insert timer)).map fun queue => { s with queue := queue }
  | .eraseTimer timerId afterReturn =>
    (s.queue.step (.erase timerId)).map fun queue =>
      { s with queue := queue, log := s.log ++ cancelled timerId afterReturn }
  | .other => some s

variable [DecidableEq T]

/-- A step of the loop thread outside the timer queue; a functor it starts runs. -/
def ownStep (s : TimerLoop T) (a : OwnStep TimerFunctor) : Option (TimerLoop T) :=
  if a.allowedIn s.queue.phase then
    match s.loop.step (.own a), s.loop.starts (.own a) with
    | some loop, [] => some { s with loop := loop }
    | some loop, f :: _ => { s with loop := loop }.execute f
    | none, _ => none
  else none

/-- User code runs on the loop thread and is in no operation of its own. -/
def canCall (s : TimerLoop T) : Bool := s.loop.phase.inUserCode && !s.loop.ownWaking

def step (s : TimerLoop T) (l : TimerLoopLabel T) : Option (TimerLoop T) :=
  match l with
  | .own a => s.ownStep a
  | .addTimer timer expiration interval =>
    -- the insertion touches the loop thread's own data only, so it goes with the `fetch_add`
    if s.canCall then
      (s.queue.step (.create timer expiration interval)).bind fun queue =>
        (queue.step (.insert timer)).map fun queue' =>
          { s with queue := queue', returned := s.queue.nextTimerId :: s.returned }
    else none
  | .eraseTimer timerId =>
    if s.canCall then
      (s.queue.step (.erase timerId)).map fun queue =>
        { s with queue := queue, log := s.log ++ cancelled timerId (timerId ∈ s.returned) }
    else none
  | .onTimerfdRead a =>
    if a.isStage ∧ s.loop.phase.isHandling ∧ s.loop.ownWaking = false then
      (s.queue.step a).map fun queue => { s with queue := queue, log := s.log ++ queue.started a }
    else none
  | .clock a =>
    if a.isPassage then (s.queue.step a).map fun queue => { s with queue := queue } else none
  | .make t timer expiration interval =>
    if s.adding t = .outside ∧ t ∉ s.loop.waking ∧ t ∉ s.loop.quitting then
      (s.queue.step (.create timer expiration interval)).map fun queue =>
        { s with
          queue := queue
          adding := Function.update s.adding t (.made timer s.queue.nextTimerId) }
    else none
  | .queueAdd t =>
    match s.adding t with
    | .made timer timerId =>
      (s.loop.step (.queue t (.addTimer timer))).map fun loop =>
        { s with loop := loop, adding := Function.update s.adding t (.queued timerId) }
    | _ => none
  | .addReturns t =>
    match s.adding t with
    | .queued timerId =>
      if t ∈ s.loop.waking then none
      else some { s with
        adding := Function.update s.adding t .outside, returned := timerId :: s.returned }
    | _ => none
  | .queueErase t timerId =>
    if s.adding t = .outside then
      (s.loop.step (.queue t (.eraseTimer timerId (timerId ∈ s.returned)))).map fun loop =>
        { s with loop := loop }
    else none
  | .queueOther t =>
    if s.adding t = .outside then
      (s.loop.step (.queue t .other)).map fun loop => { s with loop := loop }
    else none
  | .wakeup t => (s.loop.step (.wakeup t)).map fun loop => { s with loop := loop }
  | .quit t =>
    if s.adding t = .outside then
      (s.loop.step (.quit t)).map fun loop => { s with loop := loop }
    else none
  | .quitWakeup t => (s.loop.step (.quitWakeup t)).map fun loop => { s with loop := loop }

end TimerLoop

/-- **The event loop with its timer queue, among any number of threads.** -/
def timerLoop (now : Int) (T : Type*) [DecidableEq T] : System (TimerLoop T) (TimerLoopLabel T) where
  init := TimerLoop.create now
  step := TimerLoop.step

/-! ## Ids that do not come back -/

namespace TimerQueue

/-- A timer with the id is made and in no index yet. -/
def Pending (q : TimerQueue) (timerId timer : Nat) : Prop :=
  timer ∈ q.created ∧ (q.heap timer).id = timerId

/-- The id has been given, and nothing can bring its timer into the indices. -/
structure Gone (q : TimerQueue) (timerId : Nat) : Prop where
  given : timerId < q.nextTimerId
  unlisted : q.timersById timerId = none
  notPending : ∀ timer, ¬q.Pending timerId timer

theorem eraseTimer_frame (q : TimerQueue) (timerId : Nat) :
    (q.eraseTimer timerId).nextTimerId = q.nextTimerId ∧ (q.eraseTimer timerId).heap = q.heap ∧
      (q.eraseTimer timerId).created = q.created := by
  unfold eraseTimer
  split
  · exact ⟨rfl, rfl, rfl⟩
  · exact ⟨rfl, rfl, rfl⟩

theorem afterCallback_frame (q : TimerQueue) (timer : Nat) (expiredTimers : List Nat) :
    (q.afterCallback timer expiredTimers).nextTimerId = q.nextTimerId ∧
      (q.afterCallback timer expiredTimers).created = q.created ∧
      ∀ timer', ((q.afterCallback timer expiredTimers).heap timer').id = (q.heap timer').id := by
  unfold afterCallback
  simp only
  split
  · exact ⟨rfl, rfl, fun _ => rfl⟩
  · split
    · refine ⟨rfl, rfl, fun timer' => ?_⟩
      simp only [Function.update_apply]
      split
      · rename_i heq
        rw [heq]
        rfl
      · rfl
    · exact ⟨rfl, rfl, fun _ => rfl⟩

theorem nextTimerId_le_step {q q' : TimerQueue} {a : TimerStep} (hs : q.step a = some q') :
    q.nextTimerId ≤ q'.nextTimerId := by
  cases step_ends hs with
  | create _ => exact Nat.le_succ _
  | erase _ => exact (q.eraseTimer_frame _).1.ge
  | callbackReturns _ => exact (q.afterCallback_frame _ _).1.ge
  | insert _ _ | read _ | skip _ _ | call _ _ | sync _ | tick | holdUp | expire _ _ => exact le_rfl

/-- A timer pending after a step was pending before it, and not the one inserted, or is new. -/
theorem Indexed.pending_step {q q' : TimerQueue} {a : TimerStep} (h : q.Indexed)
    (hs : q.step a = some q') {timerId timer : Nat} (hp : q'.Pending timerId timer) :
    q.Pending timerId timer ∧ a ≠ .insert timer ∨
      timerId = q.nextTimerId ∧ ∃ expiration interval, a = .create timer expiration interval := by
  obtain ⟨hc, hid⟩ := hp
  cases step_ends hs with
  | @create timer' _ _ hfree =>
    by_cases heq : timer = timer'
    · right
      refine ⟨?_, _, _, by rw [heq]⟩
      rw [← hid, heq]
      show (Function.update q.heap timer' _ timer').id = _
      rw [Function.update_self]
    · left
      have hc' : timer ∈ q.created := List.mem_of_ne_of_mem heq hc
      refine ⟨⟨hc', ?_⟩, by simp⟩
      rw [← hid]
      show _ = (Function.update q.heap timer' _ timer).id
      rw [Function.update_of_ne heq]
  | @insert timer' _ _ =>
    left
    have hc' := (h.createdNodup.mem_erase_iff).mp hc
    refine ⟨⟨hc'.2, hid⟩, ?_⟩
    intro heq
    cases heq
    exact hc'.1 rfl
  | erase _ =>
    obtain ⟨_, hheap, hcreated⟩ := q.eraseTimer_frame _
    rw [hheap] at hid
    rw [hcreated] at hc
    exact .inl ⟨⟨hc, hid⟩, by simp⟩
  | callbackReturns _ =>
    obtain ⟨_, hcreated, hheap⟩ := q.afterCallback_frame _ _
    rw [hheap] at hid
    rw [hcreated] at hc
    exact .inl ⟨⟨hc, hid⟩, by simp⟩
  | read _ | skip _ _ | call _ _ | sync _ | tick | holdUp | expire _ _ => exact .inl ⟨⟨hc, hid⟩, by simp⟩

/-- The id `add_timer` gives is that of the timer it makes, and of no other. -/
theorem Indexed.pending_create {q q' : TimerQueue} (h : q.Indexed) {timer : Nat}
    {expiration interval : Int} (hs : q.step (.create timer expiration interval) = some q') :
    q'.nextTimerId = q.nextTimerId + 1 ∧
      ∀ timer', q'.Pending q.nextTimerId timer' → timer' = timer := by
  constructor
  · cases step_ends hs with
    | create _ => rfl
  · intro timer' hp
    rcases h.pending_step hs hp with ⟨hp, _⟩ | ⟨_, _, _, heq⟩
    · have := h.idBound (.inl hp.1)
      have := hp.2
      omega
    · cases heq
      rfl

/-- Only an insertion puts a timer in the map. -/
theorem unlisted_step {q q' : TimerQueue} {a : TimerStep} (hs : q.step a = some q') {timerId : Nat}
    (hu : q.timersById timerId = none) (hp : ∀ timer, ¬q.Pending timerId timer) :
    q'.timersById timerId = none := by
  have hdrop : ∀ timerId', Function.update q.timersById timerId' none timerId = none := by
    intro timerId'
    rw [Function.update_apply]
    split
    · rfl
    · exact hu
  cases step_ends hs with
  | @insert timer _ hc =>
    have hne : timerId ≠ (q.heap timer).id := fun heq => hp timer ⟨hc, heq.symm⟩
    exact (Function.update_of_ne hne _ _).trans hu
  | erase _ =>
    unfold eraseTimer
    split
    · exact hdrop _
    · exact hu
  | callbackReturns _ =>
    unfold afterCallback
    simp only
    split
    · exact hu
    · split
      · exact hu
      · exact hdrop _
  | create _ | read _ | skip _ _ | call _ _ | sync _ | tick | holdUp | expire _ _ => exact hu

theorem eq_started_of_mem {q : TimerQueue} {a : TimerStep} {e : TimerEvent} (h : e ∈ q.started a) :
    ∃ timerId, e = .started timerId := by
  unfold started at h
  split at h
  · split at h
    · exact ⟨_, List.mem_singleton.mp h⟩
    · cases h
  · cases h

/-- **An id that is gone stays gone**, whatever the queue does. -/
theorem Gone.step {q q' : TimerQueue} {a : TimerStep} {timerId : Nat} (h : q.Gone timerId)
    (hI : q.Indexed) (hs : q.step a = some q') : q'.Gone timerId := by
  refine ⟨?_, unlisted_step hs h.unlisted h.notPending, ?_⟩
  · exact lt_of_lt_of_le h.given (nextTimerId_le_step hs)
  · intro timer hp
    rcases hI.pending_step hs hp with ⟨hp, _⟩ | ⟨heq, _⟩
    · exact h.notPending timer hp
    · have := h.given
      omega

/-- The effect of `erase_timer`, when the timer is not still to be inserted. -/
theorem Gone.erased {q q' : TimerQueue} {timerId : Nat} (hs : q.step (.erase timerId) = some q')
    (hgiven : timerId < q.nextTimerId) (hp : ∀ timer, ¬q.Pending timerId timer) :
    q'.Gone timerId := by
  cases step_ends hs with
  | erase _ =>
    obtain ⟨hnext, hheap, hcreated⟩ := q.eraseTimer_frame timerId
    refine ⟨by rw [hnext]; exact hgiven, ?_, fun timer => ?_⟩
    · unfold eraseTimer
      split
      · exact Function.update_self _ _ _
      · assumption
    · unfold Pending
      rw [hheap, hcreated]
      exact hp timer

/-- No callback of an id that is gone starts. -/
theorem Gone.not_started {q q' : TimerQueue} {a : TimerStep} {timerId : Nat} (h : q.Gone timerId)
    (hs : q.step a = some q') : TimerEvent.started timerId ∉ q'.started a := by
  cases step_ends hs with
  | @call timer _ _ _ hf =>
    intro hm
    simp only [started, List.mem_singleton, TimerEvent.started.injEq] at hm
    have hu := h.unlisted
    rw [hm, hf] at hu
    cases hu
  | create _ | insert _ _ | erase _ | read _ | skip _ _ | callbackReturns _ | sync _ | tick | holdUp
  | expire _ _ => exact List.not_mem_nil

end TimerQueue

namespace TimerLoop

variable {T : Type*}

/-! ## Order of adds and erases -/

/-- The id has been given, and what is still to be inserted under it is among the functors. -/
def Behind (q : TimerQueue) (fs : List TimerFunctor) (timerId : Nat) : Prop :=
  timerId < q.nextTimerId ∧ ∀ timer, q.Pending timerId timer → .addTimer timer ∈ fs

theorem Behind.mono {q : TimerQueue} {fs fs' : List TimerFunctor} {timerId : Nat}
    (h : Behind q fs timerId) (hsub : fs ⊆ fs') : Behind q fs' timerId :=
  ⟨h.1, fun timer hp => hsub (h.2 timer hp)⟩

theorem Behind.step {q q' : TimerQueue} {a : TimerStep} {fs : List TimerFunctor} {timerId : Nat}
    (h : Behind q fs timerId) (hI : q.Indexed) (hs : q.step a = some q') :
    Behind q' fs timerId := by
  refine ⟨lt_of_lt_of_le h.1 (TimerQueue.nextTimerId_le_step hs), fun timer hp => ?_⟩
  rcases hI.pending_step hs hp with ⟨hp, _⟩ | ⟨heq, _⟩
  · exact h.2 timer hp
  · have := h.1
    omega

/-- The functor at the head inserts its timer. -/
theorem Behind.insert {q q' : TimerQueue} {fs : List TimerFunctor} {timerId timer : Nat}
    (h : Behind q (.addTimer timer :: fs) timerId) (hI : q.Indexed)
    (hs : q.step (.insert timer) = some q') : Behind q' fs timerId := by
  refine ⟨lt_of_lt_of_le h.1 (TimerQueue.nextTimerId_le_step hs), fun timer' hp => ?_⟩
  rcases hI.pending_step hs hp with ⟨hp, hne⟩ | ⟨heq, _⟩
  · rcases List.mem_cons.mp (h.2 timer' hp) with heq | hm
    · cases heq
      exact absurd rfl hne
    · exact hm
  · have := h.1
    omega

/-- Another functor at the head inserts nothing. -/
theorem Behind.tail {q : TimerQueue} {f : TimerFunctor} {fs : List TimerFunctor} {timerId : Nat}
    (h : Behind q (f :: fs) timerId) (hf : ∀ timer, f ≠ .addTimer timer) :
    Behind q fs timerId := by
  refine ⟨h.1, fun timer hp => ?_⟩
  rcases List.mem_cons.mp (h.2 timer hp) with heq | hm
  · exact absurd heq.symm (hf timer)
  · exact hm

/-- No callback of a cancelled timer has started after the cancellation. -/
def StaysCancelled (s : TimerLoop T) : Prop :=
  s.log.Pairwise fun e e' => ∀ timerId, e = .cancelled timerId → e' ≠ .started timerId

/-- **The invariant**: an add whose call has returned is in the queue before any erase that follows,
and a cancelled id is gone. -/
structure Ordered (s : TimerLoop T) : Prop where
  indexed : s.queue.Indexed
  fifo : s.loop.Fifo
  making : ∀ {t timer timerId}, s.adding t = .made timer timerId →
    timerId < s.queue.nextTimerId ∧ ∀ timer', s.queue.Pending timerId timer' → timer' = timer
  queued : ∀ {t timerId}, s.adding t = .queued timerId →
    Behind s.queue s.loop.waiting timerId
  returned : ∀ {timerId}, timerId ∈ s.returned → Behind s.queue s.loop.waiting timerId
  erasing : ∀ {fs timerId fs'}, s.loop.waiting = fs ++ .eraseTimer timerId true :: fs' →
    Behind s.queue fs timerId
  gone : ∀ {timerId}, .cancelled timerId ∈ s.log → s.queue.Gone timerId
  safe : s.StaysCancelled

theorem Ordered.create (now : Int) : (create now : TimerLoop T).Ordered where
  indexed := .construct now
  fifo := rfl
  making h := by cases h
  queued h := by cases h
  returned h := by cases h
  erasing h := by
    change [] = _ at h
    simp at h
  gone h := by cases h
  safe := List.Pairwise.nil

/-- The queue takes a step of its own. -/
theorem Ordered.queueStep {s : TimerLoop T} (h : s.Ordered) {a : TimerStep} {q : TimerQueue}
    (hs : s.queue.step a = some q) : { s with queue := q }.Ordered where
  indexed := h.indexed.step hs
  fifo := h.fifo
  making hm := by
    obtain ⟨hgiven, honly⟩ := h.making hm
    refine ⟨lt_of_lt_of_le hgiven (TimerQueue.nextTimerId_le_step hs), fun timer' hp => ?_⟩
    rcases h.indexed.pending_step hs hp with ⟨hp, _⟩ | ⟨heq, _⟩
    · exact honly timer' hp
    · omega
  queued hq := (h.queued hq).step h.indexed hs
  returned hr := (h.returned hr).step h.indexed hs
  erasing he := (h.erasing he).step h.indexed hs
  gone hc := (h.gone hc).step h.indexed hs
  safe := h.safe

/-- A functor is pushed, or none. -/
theorem Ordered.push {s : TimerLoop T} (h : s.Ordered) {loop : EventLoop TimerFunctor T}
    {fs : List TimerFunctor} (hfifo : loop.Fifo) (hw : loop.waiting = s.loop.waiting ++ fs)
    (hlen : fs.length ≤ 1)
    (hnew : ∀ timerId, .eraseTimer timerId true ∈ fs → Behind s.queue s.loop.waiting timerId) :
    { s with loop := loop }.Ordered where
  indexed := h.indexed
  fifo := hfifo
  making hm := h.making hm
  queued hq := (h.queued hq).mono (by rw [hw]; exact List.subset_append_left _ _)
  returned hr := (h.returned hr).mono (by rw [hw]; exact List.subset_append_left _ _)
  erasing {gs timerId gs'} he := by
    change loop.waiting = _ at he
    rw [hw] at he
    rcases List.append_eq_append_iff.mp he with ⟨ms, rfl, htail⟩ | ⟨ms, hhead, htail⟩
    · -- the erase is pushed now: everything else is before it
      have hms : ms = [] := by
        have hlen' := congrArg List.length htail
        simp only [List.length_append, List.length_cons] at hlen'
        exact List.length_eq_zero_iff.mp (by omega)
      subst hms
      rw [List.append_nil]
      exact hnew timerId (by rw [htail]; simp)
    · cases ms with
      | nil =>
        simp only [List.append_nil] at hhead
        subst hhead
        exact hnew timerId (by rw [← List.nil_append fs, ← htail]; simp)
      | cons m ms =>
        rw [List.cons_append] at htail
        cases htail
        exact h.erasing hhead
  gone hc := h.gone hc
  safe := h.safe

/-- The functor at the head is taken, and the queue does what it says. -/
theorem Ordered.pop {s : TimerLoop T} (h : s.Ordered) {loop : EventLoop TimerFunctor T}
    {f : TimerFunctor} {q : TimerQueue} (hfifo : loop.Fifo) (hw : s.loop.waiting = f :: loop.waiting)
    (hq : { s with queue := q }.Ordered)
    (hb : ∀ {fs timerId}, Behind s.queue (f :: fs) timerId → Behind q fs timerId) :
    { s with loop := loop, queue := q }.Ordered where
  indexed := hq.indexed
  fifo := hfifo
  making hm := hq.making hm
  queued hq := hb (hw ▸ h.queued hq)
  returned hr := hb (hw ▸ h.returned hr)
  erasing {fs timerId fs'} he := by
    apply hb
    apply h.erasing
    rw [hw, show loop.waiting = fs ++ _ from he, List.cons_append]
  gone hc := hq.gone hc
  safe := h.safe

/-- The effect of an erase is logged. -/
theorem Ordered.logCancelled {s : TimerLoop T} (h : s.Ordered) {timerId : Nat} {afterReturn : Bool}
    (hg : afterReturn = true → s.queue.Gone timerId) :
    { s with log := s.log ++ cancelled timerId afterReturn }.Ordered where
  indexed := h.indexed
  fifo := h.fifo
  making hm := h.making hm
  queued hq := h.queued hq
  returned hr := h.returned hr
  erasing he := h.erasing he
  gone {timerId'} hc := by
    rcases List.mem_append.mp hc with hc | hc
    · exact h.gone hc
    · cases afterReturn with
      | false => cases hc
      | true =>
        cases List.mem_singleton.mp hc
        exact hg rfl
  safe := by
    cases afterReturn with
    | false => simpa [cancelled, StaysCancelled] using h.safe
    | true =>
      apply List.pairwise_append.mpr
      refine ⟨h.safe, List.pairwise_singleton _ _, ?_⟩
      intro e _ e' he' timerId' _ heq
      cases List.mem_singleton.mp he'
      cases heq

/-- The start of callbacks is logged. -/
theorem Ordered.logStarted {s : TimerLoop T} (h : s.Ordered) {es : List TimerEvent}
    (hes : ∀ e ∈ es, ∃ timerId, e = .started timerId ∧ .cancelled timerId ∉ s.log) :
    { s with log := s.log ++ es }.Ordered where
  indexed := h.indexed
  fifo := h.fifo
  making hm := h.making hm
  queued hq := h.queued hq
  returned hr := h.returned hr
  erasing he := h.erasing he
  gone hc := by
    rcases List.mem_append.mp hc with hc | hc
    · exact h.gone hc
    · obtain ⟨timerId, heq, _⟩ := hes _ hc
      cases heq
  safe := by
    apply List.pairwise_append.mpr
    refine ⟨h.safe, ?_, ?_⟩
    · apply List.pairwise_of_forall_mem_list
      intro e he e' _ timerId heq
      obtain ⟨timerId', heq', _⟩ := hes e he
      rw [heq] at heq'
      cases heq'
    · intro e he e' he' timerId heq heq'
      obtain ⟨timerId', heq'', hc⟩ := hes e' he'
      rw [heq'] at heq''
      cases heq''
      rw [heq] at he
      exact hc he

/-- A thread goes on in `add_timer`. -/
theorem Ordered.setAdding [DecidableEq T] {s : TimerLoop T} (h : s.Ordered) {t : T}
    {phase : AddPhase}
    (hm : ∀ {timer timerId}, phase = .made timer timerId →
      timerId < s.queue.nextTimerId ∧ ∀ timer', s.queue.Pending timerId timer' → timer' = timer)
    (hq : ∀ {timerId}, phase = .queued timerId → Behind s.queue s.loop.waiting timerId) :
    { s with adding := Function.update s.adding t phase }.Ordered where
  indexed := h.indexed
  fifo := h.fifo
  making {t' _ _} hadd := by
    by_cases heq : t' = t
    · subst heq
      exact hm ((Function.update_self _ _ _).symm.trans hadd)
    · exact h.making ((Function.update_of_ne heq _ _).symm.trans hadd)
  queued {t' _} hadd := by
    by_cases heq : t' = t
    · subst heq
      exact hq ((Function.update_self _ _ _).symm.trans hadd)
    · exact h.queued ((Function.update_of_ne heq _ _).symm.trans hadd)
  returned hr := h.returned hr
  erasing he := h.erasing he
  gone hc := h.gone hc
  safe := h.safe

/-- `add_timer` returns an id. -/
theorem Ordered.setReturned {s : TimerLoop T} (h : s.Ordered) {timerId : Nat}
    (hb : Behind s.queue s.loop.waiting timerId) :
    { s with returned := timerId :: s.returned }.Ordered where
  indexed := h.indexed
  fifo := h.fifo
  making hm := h.making hm
  queued hq := h.queued hq
  returned hr := by
    rcases List.mem_cons.mp hr with rfl | hr
    · exact hb
    · exact h.returned hr
  erasing he := h.erasing he
  gone hc := h.gone hc
  safe := h.safe

/-! ## Steps -/

variable [DecidableEq T]

/-- **What a step does.** -/
inductive StepEnds (s : TimerLoop T) : TimerLoopLabel T → TimerLoop T → Prop where
  | move {a : OwnStep TimerFunctor} {loop : EventLoop TimerFunctor T} :
      a.allowedIn s.queue.phase = true → s.loop.step (.own a) = some loop →
      s.loop.starts (.own a) = [] → StepEnds s (.own a) { s with loop := loop }
  | runs {a : OwnStep TimerFunctor} {loop : EventLoop TimerFunctor T} {f : TimerFunctor}
      {fs : List TimerFunctor} {s' : TimerLoop T} : a.allowedIn s.queue.phase = true →
      s.loop.step (.own a) = some loop →
      s.loop.starts (.own a) = f :: fs → { s with loop := loop }.execute f = some s' →
      StepEnds s (.own a) s'
  | addTimer {timer : Nat} {expiration interval : Int} {queue queue' : TimerQueue} :
      s.queue.step (.create timer expiration interval) = some queue →
      queue.step (.insert timer) = some queue' →
      StepEnds s (.addTimer timer expiration interval)
        { s with queue := queue', returned := s.queue.nextTimerId :: s.returned }
  | eraseTimer {timerId : Nat} {queue : TimerQueue} : s.queue.step (.erase timerId) = some queue →
      StepEnds s (.eraseTimer timerId)
        { s with queue := queue, log := s.log ++ cancelled timerId (timerId ∈ s.returned) }
  | onTimerfdRead {a : TimerStep} {queue : TimerQueue} : a.isStage = true →
      s.loop.phase.isHandling = true → s.queue.step a = some queue →
      StepEnds s (.onTimerfdRead a) { s with queue := queue, log := s.log ++ queue.started a }
  | clock {a : TimerStep} {queue : TimerQueue} : a.isPassage = true →
      s.queue.step a = some queue →
      StepEnds s (.clock a) { s with queue := queue }
  | make {t : T} {timer : Nat} {expiration interval : Int} {queue : TimerQueue} :
      s.queue.step (.create timer expiration interval) = some queue →
      StepEnds s (.make t timer expiration interval)
        { s with
          queue := queue
          adding := Function.update s.adding t (.made timer s.queue.nextTimerId) }
  | queueAdd {t : T} {timer timerId : Nat} {loop : EventLoop TimerFunctor T} :
      s.adding t = .made timer timerId → s.loop.step (.queue t (.addTimer timer)) = some loop →
      StepEnds s (.queueAdd t)
        { s with loop := loop, adding := Function.update s.adding t (.queued timerId) }
  | addReturns {t : T} {timerId : Nat} : s.adding t = .queued timerId →
      StepEnds s (.addReturns t)
        { s with
          adding := Function.update s.adding t .outside, returned := timerId :: s.returned }
  | queueErase {t : T} {timerId : Nat} {loop : EventLoop TimerFunctor T} :
      s.loop.step (.queue t (.eraseTimer timerId (timerId ∈ s.returned))) = some loop →
      StepEnds s (.queueErase t timerId) { s with loop := loop }
  | queueOther {t : T} {loop : EventLoop TimerFunctor T} :
      s.loop.step (.queue t .other) = some loop → StepEnds s (.queueOther t) { s with loop := loop }
  | wakeup {t : T} {loop : EventLoop TimerFunctor T} : s.loop.step (.wakeup t) = some loop →
      StepEnds s (.wakeup t) { s with loop := loop }
  | quit {t : T} {loop : EventLoop TimerFunctor T} : s.loop.step (.quit t) = some loop →
      StepEnds s (.quit t) { s with loop := loop }
  | quitWakeup {t : T} {loop : EventLoop TimerFunctor T} :
      s.loop.step (.quitWakeup t) = some loop → StepEnds s (.quitWakeup t) { s with loop := loop }

theorem step_ends {s s' : TimerLoop T} {l : TimerLoopLabel T} (h : s.step l = some s') :
    StepEnds s l s' := by
  unfold step at h
  split at h
  · unfold ownStep at h
    split at h
    · split at h
      · cases h; exact .move ‹_› ‹_› ‹_›
      · exact .runs ‹_› ‹_› ‹_› h
      · cases h
    · cases h
  · split at h
    · obtain ⟨queue, hc, h⟩ := Option.bind_eq_some_iff.mp h
      obtain ⟨queue', hi, rfl⟩ := Option.map_eq_some_iff.mp h
      exact .addTimer hc hi
    · cases h
  · split at h
    · obtain ⟨queue, hs, rfl⟩ := Option.map_eq_some_iff.mp h
      exact .eraseTimer hs
    · cases h
  · split at h
    · rename_i hg
      obtain ⟨queue, hs, rfl⟩ := Option.map_eq_some_iff.mp h
      exact .onTimerfdRead hg.1 hg.2.1 hs
    · cases h
  · split at h
    · obtain ⟨queue, hs, rfl⟩ := Option.map_eq_some_iff.mp h
      exact .clock ‹_› hs
    · cases h
  · split at h
    · obtain ⟨queue, hs, rfl⟩ := Option.map_eq_some_iff.mp h
      exact .make hs
    · cases h
  · split at h
    · obtain ⟨loop, hs, rfl⟩ := Option.map_eq_some_iff.mp h
      exact .queueAdd ‹_› hs
    · cases h
  · split at h
    · split at h
      · cases h
      · cases h; exact .addReturns ‹_›
    · cases h
  · split at h
    · obtain ⟨loop, hs, rfl⟩ := Option.map_eq_some_iff.mp h
      exact .queueErase hs
    · cases h
  · split at h
    · obtain ⟨loop, hs, rfl⟩ := Option.map_eq_some_iff.mp h
      exact .queueOther hs
    · cases h
  · obtain ⟨loop, hs, rfl⟩ := Option.map_eq_some_iff.mp h
    exact .wakeup hs
  · split at h
    · obtain ⟨loop, hs, rfl⟩ := Option.map_eq_some_iff.mp h
      exact .quit hs
    · cases h
  · obtain ⟨loop, hs, rfl⟩ := Option.map_eq_some_iff.mp h
    exact .quitWakeup hs

omit [DecidableEq T] in
/-- A step starts one functor at most, and pushes none then. -/
theorem starts_cons {loop : EventLoop TimerFunctor T} {l : LoopLabel TimerFunctor T}
    {f : TimerFunctor} {fs : List TimerFunctor} (h : loop.starts l = f :: fs) :
    fs = [] ∧ l.pushes = [] := by
  unfold EventLoop.starts at h
  split at h
  · have hlen := congrArg List.length h
    simp only [List.length_take, List.length_cons] at hlen
    exact ⟨List.length_eq_zero_iff.mp (by omega), rfl⟩
  · cases h

omit [DecidableEq T] in
/-- The loop thread itself queues neither an add nor an erase. -/
theorem own_pushes_other {phase : QueuePhase} {a : OwnStep TimerFunctor}
    (h : a.allowedIn phase = true) : a.pushes.length ≤ 1 ∧ ∀ f ∈ a.pushes, f = .other := by
  cases a with
  | queue f =>
    simp only [OwnStep.allowedIn, Bool.and_eq_true, beq_iff_eq] at h
    exact ⟨le_rfl, fun g hg => (List.mem_singleton.mp hg).trans h.2⟩
  | enterLoop | test | pollReturns _ | handle | handlerReturns | beginFunctors | swap | call
  | functorReturns | endFunctors | wakeup | quit =>
    exact ⟨Nat.zero_le _, fun g hg => (by cases hg)⟩

/-- A step of the event loop that starts no functor. -/
theorem Ordered.loopStep {s : TimerLoop T} (h : s.Ordered) {l : LoopLabel TimerFunctor T}
    {loop : EventLoop TimerFunctor T} (hs : s.loop.step l = some loop)
    (hstarts : s.loop.starts l = []) (hlen : l.pushes.length ≤ 1)
    (hnew : ∀ timerId, .eraseTimer timerId true ∈ l.pushes →
      Behind s.queue s.loop.waiting timerId) : { s with loop := loop }.Ordered := by
  have hw := h.fifo.waiting_step hs
  rw [hstarts, List.nil_append] at hw
  exact h.push (h.fifo.step hs) hw hlen hnew

/-- **A functor runs.** -/
theorem Ordered.runs {s s' : TimerLoop T} (h : s.Ordered) {a : OwnStep TimerFunctor}
    {loop : EventLoop TimerFunctor T} {f : TimerFunctor} {fs : List TimerFunctor}
    (hs : s.loop.step (.own a) = some loop) (hstarts : s.loop.starts (.own a) = f :: fs)
    (hex : { s with loop := loop }.execute f = some s') : s'.Ordered := by
  obtain ⟨rfl, hpushes⟩ := starts_cons hstarts
  have hfifo := h.fifo.step hs
  have hw := h.fifo.waiting_step hs
  rw [hstarts, hpushes, List.append_nil] at hw
  cases f with
  | addTimer timer =>
    obtain ⟨queue, hi, rfl⟩ := Option.map_eq_some_iff.mp hex
    exact h.pop hfifo hw.symm (h.queueStep hi) fun hb => hb.insert h.indexed hi
  | eraseTimer timerId afterReturn =>
    obtain ⟨queue, he, rfl⟩ := Option.map_eq_some_iff.mp hex
    have hpop := h.pop hfifo hw.symm (h.queueStep he) fun hb =>
      (hb.tail fun _ heq => (by cases heq)).step h.indexed he
    refine hpop.logCancelled fun hafter => ?_
    -- nothing is before the erase any more
    subst hafter
    have hbehind : Behind s.queue [] timerId :=
      h.erasing (show s.loop.waiting = [] ++ .eraseTimer timerId true :: loop.waiting from hw.symm)
    exact .erased he hbehind.1 fun timer hp => List.not_mem_nil (hbehind.2 timer hp)
  | other =>
    cases hex
    exact h.pop hfifo hw.symm (q := s.queue) h fun hb => hb.tail fun _ heq => (by cases heq)

/-- The functor of an add with this id is still waiting. -/
def addWaits (s : TimerLoop T) (timerId : Nat) : Bool :=
  s.loop.waiting.any fun
    | .addTimer timer => (s.queue.heap timer).id == timerId
    | _ => false

/-- The loop thread does not call `erase_timer` for a timer whose functor is still waiting. -/
def cancelsInserted (s : TimerLoop T) : TimerLoopLabel T → Bool
  | .eraseTimer timerId => !(timerId ∈ s.returned && s.addWaits timerId)
  | _ => true

omit [DecidableEq T] in
/-- User code on the loop thread calls `erase_timer`. -/
theorem Ordered.eraseTimer {s : TimerLoop T} (h : s.Ordered) {timerId : Nat} {queue : TimerQueue}
    (hg : s.cancelsInserted (.eraseTimer timerId) = true)
    (hs : s.queue.step (.erase timerId) = some queue) :
    { s with queue := queue, log := s.log ++ cancelled timerId (timerId ∈ s.returned) }.Ordered := by
  refine (h.queueStep hs).logCancelled fun hafter => ?_
  have hreturned : timerId ∈ s.returned := of_decide_eq_true hafter
  have hbehind := h.returned hreturned
  refine .erased hs hbehind.1 fun timer hp => ?_
  have hwaits : s.addWaits timerId = true :=
    List.any_eq_true.mpr ⟨_, hbehind.2 timer hp, by simp [hp.2]⟩
  simp [cancelsInserted, hreturned, hwaits] at hg

/-- **Step lemma** for the order of adds and erases. -/
theorem Ordered.step {s s' : TimerLoop T} {l : TimerLoopLabel T} (h : s.Ordered)
    (hg : s.cancelsInserted l = true) (hstep : s.step l = some s') : s'.Ordered := by
  cases step_ends hstep with
  | move hallowed hs hstarts =>
    obtain ⟨hlen, hother⟩ := own_pushes_other hallowed
    refine h.loopStep hs hstarts hlen fun timerId hm => ?_
    cases hother _ hm
  | runs _ hs hstarts hex => exact h.runs hs hstarts hex
  | @addTimer timer _ _ queue queue' hc hi =>
    obtain ⟨hnext, honly⟩ := h.indexed.pending_create hc
    refine ((h.queueStep hc).queueStep hi).setReturned ⟨?_, fun timer' hp => ?_⟩
    · have := TimerQueue.nextTimerId_le_step hi
      show s.queue.nextTimerId < queue'.nextTimerId
      omega
    · rcases (h.indexed.step hc).pending_step hi hp with ⟨hp, hne⟩ | ⟨heq, _⟩
      · cases honly timer' hp
        exact absurd rfl hne
      · omega
  | eraseTimer hs => exact h.eraseTimer hg hs
  | onTimerfdRead _ _ hs =>
    refine (h.queueStep hs).logStarted fun e he => ?_
    obtain ⟨timerId, rfl⟩ := TimerQueue.eq_started_of_mem he
    exact ⟨timerId, rfl, fun hc => (h.gone hc).not_started hs he⟩
  | clock _ hs => exact h.queueStep hs
  | @make t timer _ _ queue hc =>
    obtain ⟨hnext, honly⟩ := h.indexed.pending_create hc
    refine (h.queueStep hc).setAdding (fun heq => ?_) (fun heq => by cases heq)
    cases heq
    refine ⟨?_, honly⟩
    show s.queue.nextTimerId < queue.nextTimerId
    omega
  | @queueAdd t timer timerId loop hadd hs =>
    obtain ⟨hgiven, honly⟩ := h.making hadd
    have hw := h.fifo.waiting_step hs
    have hpush : { s with loop := loop }.Ordered :=
      h.loopStep hs rfl le_rfl fun timerId hm => (by cases List.mem_singleton.mp hm)
    refine hpush.setAdding (fun heq => by cases heq) (fun heq => ?_)
    cases heq
    refine ⟨hgiven, fun timer' hp => ?_⟩
    rw [honly timer' hp, show loop.waiting = s.loop.waiting ++ [.addTimer timer] from hw]
    exact List.mem_append_right _ (List.mem_singleton.mpr rfl)
  | addReturns hadd =>
    exact (h.setReturned (h.queued hadd)).setAdding (fun heq => by cases heq) (fun heq => by cases heq)
  | queueErase hs =>
    refine h.loopStep hs rfl le_rfl fun timerId hm => ?_
    have heq := List.mem_singleton.mp hm
    injection heq with hid hafter
    rw [hid]
    exact h.returned (of_decide_eq_true hafter.symm)
  | queueOther hs => exact h.loopStep hs rfl le_rfl fun _ hm => (by cases List.mem_singleton.mp hm)
  | wakeup hs | quit hs | quitWakeup hs =>
    exact h.loopStep hs rfl (Nat.zero_le _) fun _ hm => (by cases hm)

/-- **A cancelled timer stays cancelled**: in every run whose cancellations on the loop thread are
of timers that are not still to be inserted, no callback of a timer starts once the effect of an
`erase_timer` called after its `add_timer` had returned has run. -/
theorem cancelled_stays_cancelled {now : Int} {s : TimerLoop T}
    (h : (timerLoop now T).Reaches (fun s l => s.cancelsInserted l = true) s) : s.StaysCancelled := by
  have hinit : (timerLoop now T).init.Ordered := .create now
  have hinv : s.Ordered := h.invariant hinit fun s l s' hI hg hs => hI.step hg hs
  exact hinv.safe

/-- One thread adds a timer and another cancels it, all before the loop runs; a third thread's timer
fires. -/
def cancelElsewhere : List (TimerLoopLabel Nat) :=
  [.make 1 1 5000000 10, .queueAdd 1, .wakeup 1, .addReturns 1, .make 3 2 5000000 0, .queueErase 2 1,
    .wakeup 2, .queueAdd 3, .wakeup 3, .addReturns 3, .own .enterLoop, .own .test,
    .own (.pollReturns [.wakeup]), .own .handle, .own .beginFunctors, .own .swap, .own .call,
    .own .functorReturns, .own .call, .own .functorReturns, .own .call, .own .functorReturns,
    .own .endFunctors, .own .test, .clock (.tick 6000000), .clock .expire,
    .own (.pollReturns [.other]), .own .handle, .onTimerfdRead .read, .onTimerfdRead .next,
    .onTimerfdRead .callbackReturns, .onTimerfdRead .sync]

theorem cancelled_stays_cancelled_cancelElsewhere :
    ∃ s ∈ (timerLoop 0 Nat).run (timerLoop 0 Nat).init cancelElsewhere,
      s.log = [.cancelled 1, .started 2] ∧ s.StaysCancelled := by
  have hg : (timerLoop 0 Nat).Admits (fun s l => s.cancelsInserted l = true)
      (timerLoop 0 Nat).init cancelElsewhere := by
    decide +kernel
  obtain ⟨s, hs, hlog⟩ : ∃ s ∈ (timerLoop 0 Nat).run (timerLoop 0 Nat).init cancelElsewhere,
      s.log = [.cancelled 1, .started 2] := by
    decide +kernel
  exact ⟨s, hs, hlog, cancelled_stays_cancelled (.of_run _ hs hg)⟩

/-- **A cancellation can overtake its add**: a thread's `add_timer` has returned and its functor
waits, `erase_timer` on the loop thread finds nothing, and the timer fires afterwards. -/
theorem cancel_overtakes_add :
    ¬∀ s : TimerLoop Nat, (timerLoop 0 Nat).Reachable s → s.StaysCancelled := by
  intro h
  obtain ⟨s, hs, hlog⟩ :
      ∃ s ∈ (timerLoop 0 Nat).run (timerLoop 0 Nat).init
          [.own .enterLoop, .own .test, .own (.pollReturns [.other]), .own .handle,
            .make 1 1 5000000 0, .queueAdd 1, .wakeup 1, .addReturns 1, .eraseTimer 1,
            .own .handlerReturns, .own .beginFunctors, .own .swap, .own .call, .own .functorReturns,
            .own .endFunctors, .own .test, .clock (.tick 6000000), .clock .expire,
            .own (.pollReturns [.wakeup, .other]), .own .handle, .own .handle,
            .onTimerfdRead .read, .onTimerfdRead .next],
        s.log = [.cancelled 1, .started 1] := by
    decide +kernel
  have hsafe := h s (.of_run _ hs)
  unfold StaysCancelled at hsafe
  rw [hlog] at hsafe
  exact List.rel_of_pairwise_cons hsafe (List.mem_singleton.mpr rfl) 1 rfl rfl

end TimerLoop

end Tudou
