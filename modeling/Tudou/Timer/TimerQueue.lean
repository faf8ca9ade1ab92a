import Mathlib.Data.Finset.Max
import Mathlib.Data.Prod.Lex
import Tudou.Foundation.Run

/-!
# `TimerQueue`: two indices and one timerfd

Model of `src/tudou/timer/{Timer,TimerQueue}.cpp`.  Timers are objects at addresses: the map
`timersById_` and the ordered set `expireSet_` refer to them, the set under a key that
`reschedule` changes.  The steps are the functors of `add_timer` and `erase_timer`, the stages of
`on_timerfd_read`, and what the clock and the kernel do between them.

* `toTimespec` — the clamp to one millisecond; `toTimespec_ns`, `toTimespec_valid`.
* `collectExpired` — the collecting loop; `collectExpired_spec`.
* `timerQueue` — the transition system.

Timestamps are integers that do not overflow and timer ids a counter that does not wrap.  The loop
thread can be held up between reading the clock and what it does with the reading: the timerfd is
relative, so its expiry counts from `timerfd_settime` and not from the reading.
-/

namespace Tudou

open Transition

/-- One millisecond, in the nanoseconds of `steady_clock`. -/
def millisecond : Int := 1000000

/-- One second. -/
def second : Int := 1000000000

structure Timespec where
  sec : Int
  nsec : Int
  deriving DecidableEq, Repr

namespace Timespec

/-- The duration it stands for. -/
def ns (value : Timespec) : Int := value.sec * second + value.nsec

/-- What `timerfd_settime` accepts. -/
def Valid (value : Timespec) : Prop := 0 ≤ value.sec ∧ 0 ≤ value.nsec ∧ value.nsec < second

end Timespec

/-- `to_timespec`: `duration_cast` truncates, and a timerfd would take a delay of zero for a disarm. -/
def toTimespec (duration : Int) : Timespec :=
  let duration := if duration < millisecond then millisecond else duration
  let sec := duration.tdiv second
  ⟨sec, duration - sec * second⟩

theorem toTimespec_ns (duration : Int) : (toTimespec duration).ns = max duration millisecond := by
  simp only [toTimespec, Timespec.ns]
  split
  · omega
  · omega

theorem toTimespec_valid (duration : Int) : (toTimespec duration).Valid := by
  simp only [toTimespec]
  generalize hd : (if duration < millisecond then millisecond else duration) = d
  have hpos : 0 ≤ d := by
    unfold millisecond at hd
    split at hd
    · omega
    · omega
  have hdiv : d.tdiv second = d / second := Int.tdiv_eq_ediv_of_nonneg hpos
  have hmod := Int.emod_nonneg d (b := second) (by decide)
  have hlt := Int.emod_lt_of_pos d (b := second) (by decide)
  have hsplit := Int.mul_ediv_add_emod d second
  simp only [Timespec.Valid, hdiv]
  unfold second at *
  omega

/-- `Timer`; the callback is what the loop thread does while it runs. -/
structure Timer where
  id : Nat
  expiration : Int
  interval : Int
  deriving DecidableEq, Repr

namespace Timer

def isRepeat (timer : Timer) : Bool := 0 < timer.interval

def reschedule (timer : Timer) (now : Int) : Timer :=
  { timer with expiration := now + timer.interval * millisecond }

end Timer

/-- `TimerEntry`: an expiration and the address of a timer, ordered as `std::pair` orders them. -/
abbrev TimerEntry := Int ×ₗ Nat

namespace TimerEntry

def expiration (entry : TimerEntry) : Int := (ofLex entry).1

def timer (entry : TimerEntry) : Nat := (ofLex entry).2

theorem expiration_mono {entry entry' : TimerEntry} (h : entry ≤ entry') :
    entry.expiration ≤ entry'.expiration := by
  rcases Prod.Lex.le_iff.mp h with hlt | ⟨heq, _⟩
  · exact le_of_lt hlt
  · exact le_of_eq heq

end TimerEntry

/-- The timerfd: a one-shot timer that becomes readable when it expires. -/
inductive TimerFd where
  | disarmed
  | armed (value : Timespec) (expiry : Int)
  /-- Expired, and not read since. -/
  | expired (value : Timespec) (expiry : Int)
  deriving DecidableEq, Repr

namespace TimerFd

/-- What an armed or expired timerfd was set to, and when that is. -/
def setting : TimerFd → Option (Timespec × Int)
  | disarmed => none
  | armed value expiry | expired value expiry => some (value, expiry)

end TimerFd

/-- Where the loop thread is: in no operation of the queue, between two callbacks of
`on_timerfd_read`, or in one. -/
inductive QueuePhase where
  | idle
  | running (expiredTimers : List Nat)
  | calling (timer : Nat) (expiredTimers : List Nat)
  deriving DecidableEq, Repr

namespace QueuePhase

/-- The timers `on_timerfd_read` has yet to put back or drop. -/
def inHand : QueuePhase → List Nat
  | idle => []
  | running expiredTimers => expiredTimers
  | calling timer expiredTimers => timer :: expiredTimers

/-- Functors run between the operations and in callbacks. -/
def runsFunctors : QueuePhase → Bool
  | idle | calling _ _ => true
  | running _ => false

end QueuePhase

structure TimerQueue where
  nextTimerId : Nat
  /-- The `Timer` objects, by address. -/
  heap : Nat → Timer
  /-- Timers made by `add_timer` whose functor has not run. -/
  created : List Nat
  expireSet : Finset TimerEntry
  timersById : Nat → Option Nat
  timerFd : TimerFd
  phase : QueuePhase
  /-- `steady_clock::now()`. -/
  clock : Int
  /-- How long the loop thread is held up after a reading of the clock. -/
  lag : Nat
  /-- When `sync_timerfd` last read the clock. -/
  lastSync : Int
  /-- When it last called `timerfd_settime`. -/
  lastSettime : Int

/-- What happens to the queue. -/
inductive TimerStep where
  /-- `add_timer` on any thread, up to its functor; the timer gets a free address. -/
  | create (timer : Nat) (when interval : Int)
  /-- The functor of `add_timer`. -/
  | insert (timer : Nat)
  /-- The functor of `erase_timer`. -/
  | erase (timerId : Nat)
  /-- `on_timerfd_read`, up to the collected timers. -/
  | read
  /-- The next timer is looked up, and its callback entered if it is still there. -/
  | next
  | callbackReturns
  /-- `on_timerfd_read` ends. -/
  | sync
  | tick (elapsed : Nat)
  /-- The scheduler decides how long it holds the loop thread up from now on. -/
  | holdUp (lag : Nat)
  | expire
  deriving DecidableEq, Repr

/-- `while (!expireSet_.empty())` of `on_timerfd_read`, for at most so many entries: the timers
collected and the set they leave. -/
def collectExpired (now : Int) : Nat → Finset TimerEntry → List Nat × Finset TimerEntry
  | 0, expireSet => ([], expireSet)
  | n + 1, expireSet =>
    if h : expireSet.Nonempty then
      let it := expireSet.min' h
      if now < it.expiration then ([], expireSet)
      else
        let rest := collectExpired now n (expireSet.erase it)
        (it.timer :: rest.1, rest.2)
    else ([], expireSet)

/-- What the collecting loop is to do: what is due leaves the set, each timer once. -/
structure Collected (now : Int) (expireSet : Finset TimerEntry) (r : List Nat × Finset TimerEntry) :
    Prop where
  rest : ∀ entry, entry ∈ r.2 ↔ entry ∈ expireSet ∧ now < entry.expiration
  timers : ∀ timer, timer ∈ r.1 ↔
    ∃ entry ∈ expireSet, entry.expiration ≤ now ∧ entry.timer = timer
  nodup : (∀ entry ∈ expireSet, ∀ entry' ∈ expireSet, entry.timer = entry'.timer → entry = entry') →
    r.1.Nodup

/-- Nothing is due: the loop stops at the first entry that is not. -/
theorem Collected.nothing_due {now : Int} {expireSet : Finset TimerEntry}
    (hlater : ∀ entry ∈ expireSet, now < entry.expiration) :
    Collected now expireSet ([], expireSet) := by
  refine ⟨fun entry => ?_, fun timer => ?_, fun _ => List.nodup_nil⟩
  · constructor
    · intro he
      exact ⟨he, hlater entry he⟩
    · exact And.left
  · constructor
    · intro h
      cases h
    · rintro ⟨entry, he, hdue, _⟩
      have := hlater entry he
      omega

/-- An entry that is due is taken out, and the rest collected. -/
theorem Collected.cons_due {now : Int} {expireSet : Finset TimerEntry} {it : TimerEntry}
    {r : List Nat × Finset TimerEntry} (h : Collected now (expireSet.erase it) r)
    (hmem : it ∈ expireSet) (hdue : it.expiration ≤ now) :
    Collected now expireSet (it.timer :: r.1, r.2) := by
  refine ⟨fun entry => ?_, fun timer => ?_, fun hinj => ?_⟩
  · rw [h.rest, Finset.mem_erase]
    constructor
    · rintro ⟨⟨_, he⟩, hlater⟩
      exact ⟨he, hlater⟩
    · rintro ⟨he, hlater⟩
      refine ⟨⟨?_, he⟩, hlater⟩
      rintro rfl
      omega
  · rw [List.mem_cons, h.timers]
    constructor
    · rintro (rfl | ⟨entry, he, hle, rfl⟩)
      · exact ⟨it, hmem, hdue, rfl⟩
      · exact ⟨entry, Finset.mem_of_mem_erase he, hle, rfl⟩
    · rintro ⟨entry, he, hle, rfl⟩
      by_cases heq : entry = it
      · exact .inl (by rw [heq])
      · exact .inr ⟨entry, Finset.mem_erase.mpr ⟨heq, he⟩, hle, rfl⟩
  · refine List.nodup_cons.mpr ⟨?_, ?_⟩
    · rw [h.timers]
      rintro ⟨entry, he, _, heq⟩
      rw [Finset.mem_erase] at he
      exact he.1 (hinj entry he.2 it hmem heq)
    · apply h.nodup
      intro entry he entry' he'
      exact hinj entry (Finset.mem_of_mem_erase he) entry' (Finset.mem_of_mem_erase he')

/-- **As many rounds as there are entries are enough** for the collecting loop. -/
theorem collectExpired_spec (now : Int) (n : Nat) (expireSet : Finset TimerEntry)
    (hn : expireSet.card ≤ n) : Collected now expireSet (collectExpired now n expireSet) := by
  induction n generalizing expireSet with
  | zero =>
    have hempty : expireSet = ∅ := Finset.card_eq_zero.mp (by omega)
    subst hempty
    exact .nothing_due fun _ he => absurd he (Finset.notMem_empty _)
  | succ n ih =>
    simp only [collectExpired]
    split
    · rename_i hne
      have hmem := expireSet.min'_mem hne
      have hmin : ∀ entry ∈ expireSet, (expireSet.min' hne).expiration ≤ entry.expiration :=
        fun entry he => TimerEntry.expiration_mono (expireSet.min'_le entry he)
      generalize expireSet.min' hne = it at hmem hmin
      split
      · -- the first entry is not due, so none is
        rename_i hlater
        apply Collected.nothing_due
        intro entry he
        have := hmin entry he
        omega
      · have hcard : (expireSet.erase it).card ≤ n := by
          rw [Finset.card_erase_of_mem hmem]
          omega
        exact (ih (expireSet.erase it) hcard).cons_due hmem (by omega)
    · rename_i hempty
      rw [Finset.not_nonempty_iff_eq_empty] at hempty
      subst hempty
      exact .nothing_due fun _ he => absurd he (Finset.notMem_empty _)

namespace TimerQueue

/-- `TimerQueue::TimerQueue(loop)`. -/
def construct (now : Int) : TimerQueue where
  nextTimerId := 1
  heap _ := ⟨0, 0, 0⟩
  created := []
  expireSet := ∅
  timersById _ := none
  timerFd := .disarmed
  phase := .idle
  clock := now
  lag := 0
  lastSync := now
  lastSettime := now

/-- The set's key for a timer. -/
def entry (q : TimerQueue) (timer : Nat) : TimerEntry := toLex ((q.heap timer).expiration, timer)

/-- `timersById_` holds the timer under its id. -/
def Listed (q : TimerQueue) (timer : Nat) : Prop :=
  q.timersById (q.heap timer).id = some timer

instance (q : TimerQueue) (timer : Nat) : Decidable (q.Listed timer) :=
  inferInstanceAs (Decidable (_ = _))

/-- Something refers to the timer: its functor, `on_timerfd_read`, or an index. -/
def Live (q : TimerQueue) (timer : Nat) : Prop :=
  timer ∈ q.created ∨ timer ∈ q.phase.inHand ∨ q.Listed timer

instance (q : TimerQueue) (timer : Nat) : Decidable (q.Live timer) :=
  inferInstanceAs (Decidable (_ ∨ _ ∨ _))

/-- What passes between a reading of the clock and the next thing the loop thread does. -/
def wait (q : TimerQueue) : TimerQueue := { q with clock := q.clock + q.lag }

/-- `reset_timerfd`: the duration is taken at `now`, and the kernel counts it from `settime` on. -/
def resetTimerfd (now settime expiration : Int) : TimerFd :=
  let value := toTimespec (expiration - now)
  .armed value (settime + value.ns)

/-- `disarm_timerfd`. -/
def disarmTimerfd : TimerFd := .disarmed

/-- `sync_timerfd`; `timerfd_settime` drops an expiration that was not read. -/
def syncTimerfd (q : TimerQueue) : TimerQueue :=
  { q.wait with
    timerFd :=
      if h : q.expireSet.Nonempty then
        resetTimerfd q.clock q.wait.clock (q.expireSet.min' h).expiration
      else disarmTimerfd
    lastSync := q.clock
    lastSettime := q.wait.clock }

theorem clock_le_syncTimerfd (q : TimerQueue) : q.clock ≤ q.syncTimerfd.clock := by
  show q.clock ≤ q.clock + q.lag
  omega

/-- `read_timerfd`: an expired timer is disarmed once it is read, otherwise the read fails. -/
def readTimerfd : TimerFd → TimerFd
  | .expired _ _ => .disarmed
  | timerFd => timerFd

/-- `add_timer`, up to `run_in_loop`. -/
def createTimer (q : TimerQueue) (timer : Nat) (expiration interval : Int) : TimerQueue :=
  { q with
    nextTimerId := q.nextTimerId + 1
    heap := Function.update q.heap timer ⟨q.nextTimerId, expiration, interval⟩
    created := timer :: q.created }

/-- The functor of `add_timer`. -/
def insertTimer (q : TimerQueue) (timer : Nat) : TimerQueue :=
  { q with
    created := q.created.erase timer
    expireSet := insert (q.entry timer) q.expireSet
    timersById := Function.update q.timersById (q.heap timer).id (some timer) }.syncTimerfd

/-- The functor of `erase_timer`. -/
def eraseTimer (q : TimerQueue) (timerId : Nat) : TimerQueue :=
  match q.timersById timerId with
  | some timer =>
    { q with
      expireSet := q.expireSet.erase (q.entry timer)
      timersById := Function.update q.timersById timerId none }.syncTimerfd
  | none => q.syncTimerfd

/-- `on_timerfd_read`, up to the collected timers. -/
def readAndCollect (q : TimerQueue) : TimerQueue :=
  let collected := collectExpired q.clock q.expireSet.card q.expireSet
  { q with
    timerFd := readTimerfd q.timerFd
    expireSet := collected.2
    phase := .running collected.1 }

/-- What follows a callback: a timer that is not listed any more stays out of the set, one that
does not repeat leaves the map, and another is put back under its next expiration. -/
def afterCallback (q : TimerQueue) (timer : Nat) (expiredTimers : List Nat) : TimerQueue :=
  let q := { q with phase := .running expiredTimers }
  match q.timersById (q.heap timer).id with
  | none => q
  | some _ =>
    if (q.heap timer).isRepeat then
      let q := { q with heap := Function.update q.heap timer ((q.heap timer).reschedule q.clock) }
      { q with expireSet := insert (q.entry timer) q.expireSet }
    else { q with timersById := Function.update q.timersById (q.heap timer).id none }

def step (q : TimerQueue) (a : TimerStep) : Option TimerQueue :=
  match a, q.phase with
  | .create timer expiration interval, _ =>
    if q.Live timer then none else some (q.createTimer timer expiration interval)
  | .insert timer, phase =>
    if phase.runsFunctors ∧ timer ∈ q.created then some (q.insertTimer timer) else none
  | .erase timerId, phase => if phase.runsFunctors then some (q.eraseTimer timerId) else none
  | .read, .idle => some q.readAndCollect
  | .next, .running (timer :: expiredTimers) =>
    match q.timersById (q.heap timer).id with
    | none => some { q with phase := .running expiredTimers }
    | some _ => some { q with phase := .calling timer expiredTimers }
  | .callbackReturns, .calling timer expiredTimers => some (q.afterCallback timer expiredTimers)
  | .sync, .running [] => some { q with phase := .idle }.syncTimerfd
  | .tick elapsed, _ => some { q with clock := q.clock + elapsed }
  | .holdUp lag, _ => some { q with lag := lag }
  | .expire, _ =>
    match q.timerFd with
    | .armed value expiry =>
      if expiry ≤ q.clock then some { q with timerFd := .expired value expiry } else none
    | _ => none
  | _, _ => none

end TimerQueue

/-- **The timer queue on its loop thread**, from any reading of the clock on. -/
def timerQueue (now : Int) : System TimerQueue TimerStep where
  init := TimerQueue.construct now
  step := TimerQueue.step

namespace TimerQueue

/-- **What a step does.** -/
inductive StepEnds (q : TimerQueue) : TimerStep → TimerQueue → Prop where
  | create {timer : Nat} {expiration interval : Int} : ¬q.Live timer →
      StepEnds q (.create timer expiration interval) (q.createTimer timer expiration interval)
  | insert {timer : Nat} : q.phase.runsFunctors = true → timer ∈ q.created →
      StepEnds q (.insert timer) (q.insertTimer timer)
  | erase {timerId : Nat} : q.phase.runsFunctors = true →
      StepEnds q (.erase timerId) (q.eraseTimer timerId)
  | read : q.phase = .idle → StepEnds q .read q.readAndCollect
  | skip {timer : Nat} {expiredTimers : List Nat} : q.phase = .running (timer :: expiredTimers) →
      q.timersById (q.heap timer).id = none →
      StepEnds q .next { q with phase := .running expiredTimers }
  | call {timer timer' : Nat} {expiredTimers : List Nat} :
      q.phase = .running (timer :: expiredTimers) →
      q.timersById (q.heap timer).id = some timer' →
      StepEnds q .next { q with phase := .calling timer expiredTimers }
  | callbackReturns {timer : Nat} {expiredTimers : List Nat} :
      q.phase = .calling timer expiredTimers →
      StepEnds q .callbackReturns (q.afterCallback timer expiredTimers)
  | sync : q.phase = .running [] → StepEnds q .sync { q with phase := .idle }.syncTimerfd
  | tick {elapsed : Nat} : StepEnds q (.tick elapsed) { q with clock := q.clock + elapsed }
  | holdUp {lag : Nat} : StepEnds q (.holdUp lag) { q with lag := lag }
  | expire {value : Timespec} {expiry : Int} : q.timerFd = .armed value expiry →
      expiry ≤ q.clock → StepEnds q .expire { q with timerFd := .expired value expiry }

theorem step_ends {q q' : TimerQueue} {a : TimerStep} (h : q.step a = some q') :
    StepEnds q a q' := by
  unfold step at h
  split at h
  · split at h
    · cases h
    · cases h; exact .create ‹_›
  · split at h
    · rename_i hg
      cases h; exact .insert hg.1 hg.2
    · cases h
  · split at h
    · cases h; exact .erase ‹_›
    · cases h
  · cases h; exact .read ‹_›
  · split at h
    · cases h; exact .skip ‹_› ‹_›
    · cases h; exact .call ‹_› ‹_›
  · cases h; exact .callbackReturns ‹_›
  · cases h; exact .sync ‹_›
  · cases h; exact .tick
  · cases h; exact .holdUp
  · split at h
    · split at h
      · cases h; exact .expire ‹_› ‹_›
      · cases h
    · cases h
  · cases h

end TimerQueue

end Tudou
