import Tudou.Tcp.Shutdown

/-!
# `TcpServer`: `start()` and the calls of `stop()`

Model of `start` and `stop` in `src/tudou/tcp/TcpServer.cpp` with the quit flag of the main loop
(`loop` and `quit` of `src/tudou/reactor/EventLoop.cpp`): one thread in `start()`, any number of
threads in `stop()`, every access to the state, to the pool and to the flag a step of its own.

* `serverRun` — the transition system, from the invocation of `start()` on.
* `LostStop` — a call of `stop()` that has returned without effect; `WillStop`, the opposite.
* `Kept`, `reaches_kept` — **no stop is lost** that reads the state after `start()` has stored
  `Running`; a quit before `loop()` is kept by the flag.
* `lost_of_early_stop` — one that reads it before is lost.
-/

namespace Tudou

open Transition

/-- Where the thread of `start()` is. -/
inductive StartPhase where
  | invoked
  /-- The pool and the main loop are there, the tables are being made. -/
  | poolMade
  /-- `Running` is stored, the acceptor is being made. -/
  | runningStored
  /-- At `while (!isQuit_)` of the main loop. -/
  | testing
  /-- In `epoll_wait`, in handlers or in functors of the main loop. -/
  | polling
  | loopLeft
  /-- `shutdown_connections` has stored `Draining`. -/
  | shuttingDown
  | poolReset
  | stopped
  deriving DecidableEq, Repr

namespace StartPhase

/-- `Running` is not stored yet. -/
def early : StartPhase → Bool
  | invoked | poolMade => true
  | _ => false

/-- In `mainLoop.loop()`. -/
def inMainLoop : StartPhase → Bool
  | testing | polling => true
  | _ => false

/-- `mainLoop.loop()` has returned. -/
def leftLoop : StartPhase → Bool
  | loopLeft | shuttingDown | poolReset | stopped => true
  | _ => false

theorem of_inMainLoop {phase : StartPhase} (h : phase.inMainLoop = true) :
    phase.early = false ∧ phase.leftLoop = false := by
  cases phase with
  | testing | polling => exact ⟨rfl, rfl⟩
  | invoked | poolMade | runningStored | loopLeft | shuttingDown | poolReset | stopped => cases h

end StartPhase

/-- Where a thread is in `stop()`. -/
inductive StopPhase where
  | outside
  | called
  /-- It has exchanged `Running` for `Draining`. -/
  | exchanged
  /-- It has found the main loop. -/
  | quitting
  /-- It has set the flag. -/
  | waking
  deriving DecidableEq, Repr

namespace StopPhase

/-- The quit flag will be set. -/
def onItsWay : StopPhase → Bool
  | exchanged | quitting => true
  | _ => false

end StopPhase

structure ServerRun (T : Type*) where
  state : ServerState
  phase : StartPhase
  /-- `loopThreadPool_ != nullptr`. -/
  hasPool : Bool
  /-- `isQuit_` of the main loop. -/
  isQuit : Bool
  stop : T → StopPhase
  /-- A call of `stop()` has returned. -/
  returned : Bool

inductive StartStep where
  | makePool
  | storeRunning
  | enterLoop
  | test
  | pollReturns
  | drain
  | resetPool
  | finish
  deriving DecidableEq, Repr

inductive RunLabel (T : Type*) where
  | start (a : StartStep)
  | call (t : T)
  | exchange (t : T)
  | findLoop (t : T)
  | quit (t : T)
  | wakeup (t : T)
  deriving DecidableEq

namespace ServerRun

variable {T : Type*}

/-- `start()` is invoked. -/
def invoked : ServerRun T where
  state := .created
  phase := .invoked
  hasPool := false
  isQuit := false
  stop _ := .outside
  returned := false

/-- A step of `start()`. -/
def startStep (s : ServerRun T) (a : StartStep) : Option (ServerRun T) :=
  match a, s.phase with
  | .makePool, .invoked => some { s with hasPool := true, isQuit := false, phase := .poolMade }
  | .storeRunning, .poolMade => some { s with state := .running, phase := .runningStored }
  | .enterLoop, .runningStored => some { s with phase := .testing }
  | .test, .testing => some { s with phase := if s.isQuit then .loopLeft else .polling }
  | .pollReturns, .polling => some { s with phase := .testing }
  | .drain, .loopLeft => some { s with state := .draining, phase := .shuttingDown }
  | .resetPool, .shuttingDown => some { s with hasPool := false, phase := .poolReset }
  | .finish, .poolReset => some { s with state := .stopped, phase := .stopped }
  | _, _ => none

variable [DecidableEq T]

def setStop (s : ServerRun T) (t : T) (phase : StopPhase) : ServerRun T :=
  { s with stop := Function.update s.stop t phase }

/-- `return` from `stop()`. -/
def stopReturns (s : ServerRun T) (t : T) : ServerRun T :=
  { s.setStop t .outside with returned := true }

def step (s : ServerRun T) (l : RunLabel T) : Option (ServerRun T) :=
  match l with
  | .start a => s.startStep a
  | .call t => if s.stop t = .outside then some (s.setStop t .called) else none
  | .exchange t =>
    if s.stop t = .called then
      if s.state = .running then some { s.setStop t .exchanged with state := .draining }
      else some (s.stopReturns t)
    else none
  | .findLoop t =>
    if s.stop t = .exchanged then
      if s.hasPool then some (s.setStop t .quitting) else some (s.stopReturns t)
    else none
  | .quit t => if s.stop t = .quitting then some { s.setStop t .waking with isQuit := true } else none
  | .wakeup t => if s.stop t = .waking then some (s.stopReturns t) else none

end ServerRun

/-- **A server between the invocation of `start()` and its return, among callers of `stop()`.** -/
def serverRun (T : Type*) [DecidableEq T] : System (ServerRun T) (RunLabel T) where
  init := ServerRun.invoked
  step := ServerRun.step

namespace ServerRun

variable {T : Type*}

/-- A call of `stop()` has returned, and the server runs in its main loop with the quit flag unset. -/
def LostStop (s : ServerRun T) : Prop :=
  s.returned = true ∧ s.state = .running ∧ s.phase.inMainLoop = true ∧ s.isQuit = false

instance (s : ServerRun T) : Decidable s.LostStop :=
  inferInstanceAs (Decidable (_ ∧ _ ∧ _ ∧ _))

/-- The main loop has been left or is told to quit, or a thread is on its way to tell it. -/
def WillStop (s : ServerRun T) : Prop :=
  s.phase.leftLoop = true ∨ s.isQuit = true ∨ ∃ t, (s.stop t).onItsWay = true

instance [Fintype T] (s : ServerRun T) : Decidable s.WillStop :=
  inferInstanceAs (Decidable (_ ∨ _ ∨ _))

/-! ## Steps -/

/-- **What a step does.** -/
inductive StepEnds [DecidableEq T] (s : ServerRun T) : RunLabel T → ServerRun T → Prop where
  | makePool : s.phase = .invoked →
      StepEnds s (.start .makePool) { s with hasPool := true, isQuit := false, phase := .poolMade }
  | storeRunning : s.phase = .poolMade →
      StepEnds s (.start .storeRunning) { s with state := .running, phase := .runningStored }
  | enterLoop : s.phase = .runningStored →
      StepEnds s (.start .enterLoop) { s with phase := .testing }
  | leaveLoop : s.phase = .testing → s.isQuit = true →
      StepEnds s (.start .test) { s with phase := .loopLeft }
  | poll : s.phase = .testing → StepEnds s (.start .test) { s with phase := .polling }
  | pollReturns : s.phase = .polling → StepEnds s (.start .pollReturns) { s with phase := .testing }
  | drain : s.phase = .loopLeft →
      StepEnds s (.start .drain) { s with state := .draining, phase := .shuttingDown }
  | resetPool : s.phase = .shuttingDown →
      StepEnds s (.start .resetPool) { s with hasPool := false, phase := .poolReset }
  | finish : s.phase = .poolReset →
      StepEnds s (.start .finish) { s with state := .stopped, phase := .stopped }
  | call {t : T} : s.stop t = .outside → StepEnds s (.call t) (s.setStop t .called)
  | exchange {t : T} : s.stop t = .called → s.state = .running →
      StepEnds s (.exchange t) { s.setStop t .exchanged with state := .draining }
  | notRunning {t : T} : s.stop t = .called → s.state ≠ .running →
      StepEnds s (.exchange t) (s.stopReturns t)
  | findLoop {t : T} : s.stop t = .exchanged → s.hasPool = true →
      StepEnds s (.findLoop t) (s.setStop t .quitting)
  | noLoop {t : T} : s.stop t = .exchanged → s.hasPool = false →
      StepEnds s (.findLoop t) (s.stopReturns t)
  | quit {t : T} : s.stop t = .quitting →
      StepEnds s (.quit t) { s.setStop t .waking with isQuit := true }
  | wakeup {t : T} : s.stop t = .waking → StepEnds s (.wakeup t) (s.stopReturns t)

variable [DecidableEq T]

theorem step_ends {s s' : ServerRun T} {l : RunLabel T} (h : s.step l = some s') :
    StepEnds s l s' := by
  unfold step at h
  split at h
  · unfold startStep at h
    split at h
    · cases h; exact .makePool ‹_›
    · cases h; exact .storeRunning ‹_›
    · cases h; exact .enterLoop ‹_›
    · cases h
      split
      · exact .leaveLoop ‹_› ‹_›
      · exact .poll ‹_›
    · cases h; exact .pollReturns ‹_›
    · cases h; exact .drain ‹_›
    · cases h; exact .resetPool ‹_›
    · cases h; exact .finish ‹_›
    · cases h
  · split at h
    · cases h; exact .call ‹_›
    · cases h
  · split at h
    · split at h
      · cases h; exact .exchange ‹_› ‹_›
      · cases h; exact .notRunning ‹_› ‹_›
    · cases h
  · split at h
    · split at h
      · cases h; exact .findLoop ‹_› ‹_›
      · cases h; exact .noLoop ‹_› (Bool.eq_false_iff.mpr ‹_›)
    · cases h
  · split at h
    · cases h; exact .quit ‹_›
    · cases h
  · split at h
    · cases h; exact .wakeup ‹_›
    · cases h

/-! ## Stops that count -/

/-- No stop has had any effect yet. -/
structure Untouched (s : ServerRun T) : Prop where
  returned : s.returned = false
  isQuit : s.isQuit = false
  callers : ∀ t, s.stop t = .outside ∨ s.stop t = .called

/-- **The invariant**: before `Running` and in it no stop has had an effect, and a server that drains
in its main loop is going to quit it. -/
structure Kept (s : ServerRun T) : Prop where
  early : s.phase.early = true → s.state = .created ∧ s.Untouched
  pool : s.phase ≠ .invoked → s.phase.leftLoop = false → s.hasPool = true
  inLoop : s.phase.early = false → s.phase.leftLoop = false →
    s.state = .running ∧ s.Untouched ∨ s.state = .draining ∧ s.WillStop

/-- `stop()` reads the state after `start()` has stored `Running`. -/
def readsAfterRunning (s : ServerRun T) : RunLabel T → Bool
  | .exchange _ => decide (s.state ≠ .created)
  | _ => true

omit [DecidableEq T] in
theorem Untouched.invoked : (invoked : ServerRun T).Untouched := ⟨rfl, rfl, fun _ => .inl rfl⟩

omit [DecidableEq T] in
theorem Kept.invoked : (invoked : ServerRun T).Kept where
  early _ := ⟨rfl, .invoked⟩
  pool h := absurd rfl h
  inLoop h := by cases h

/-- A thread moves in `stop()`, and is on its way still if it was. -/
theorem WillStop.setStop {s : ServerRun T} (h : s.WillStop) {t : T} {phase : StopPhase}
    (hon : (s.stop t).onItsWay = true → phase.onItsWay = true) : (s.setStop t phase).WillStop := by
  rcases h with h | h | ⟨t', h⟩
  · exact .inl h
  · exact .inr (.inl h)
  · refine .inr (.inr ⟨t', ?_⟩)
    show (Function.update s.stop t phase t').onItsWay = true
    by_cases heq : t' = t
    · subst heq
      rw [Function.update_self]
      exact hon h
    · rw [Function.update_of_ne heq]
      exact h

theorem Untouched.setStop {s : ServerRun T} (h : s.Untouched) {t : T} {phase : StopPhase}
    (hphase : phase = .outside ∨ phase = .called) : (s.setStop t phase).Untouched := by
  refine ⟨h.returned, h.isQuit, fun t' => ?_⟩
  show Function.update s.stop t phase t' = .outside ∨ Function.update s.stop t phase t' = .called
  by_cases heq : t' = t
  · subst heq
    rw [Function.update_self]
    exact hphase
  · rw [Function.update_of_ne heq]
    exact h.callers t'

omit [DecidableEq T] in
/-- A thread that has had an effect: the server is out of its main loop or drains in it. -/
theorem Kept.draining {s : ServerRun T} (h : s.Kept) {t : T}
    (ht : s.stop t ≠ .outside ∧ s.stop t ≠ .called) :
    s.phase.early = false ∧ (s.phase.leftLoop = false → s.state = .draining ∧ s.WillStop) := by
  have hnot : ¬s.Untouched := by
    intro hu
    rcases hu.callers t with hout | hcalled
    · exact ht.1 hout
    · exact ht.2 hcalled
  have hearly : s.phase.early = false := by
    by_contra hne
    exact hnot (h.early (Bool.eq_true_of_not_eq_false hne)).2
  refine ⟨hearly, fun hleft => ?_⟩
  rcases h.inLoop hearly hleft with ⟨_, hu⟩ | hd
  · exact absurd hu hnot
  · exact hd

omit [DecidableEq T] in
/-- The thread of a call that has had an effect moves on. -/
theorem Kept.goesOn {s s' : ServerRun T} (h : s.Kept) {t : T}
    (ht : s.stop t ≠ .outside ∧ s.stop t ≠ .called) (hphase : s'.phase = s.phase)
    (hpool : s'.hasPool = s.hasPool) (hstate : s'.state = s.state)
    (hwill : s.phase.leftLoop = false → s.WillStop → s'.WillStop) : s'.Kept := by
  obtain ⟨hearly, hdraining⟩ := h.draining ht
  refine ⟨?_, ?_, ?_⟩
  · intro he
    rw [hphase, hearly] at he
    cases he
  · rw [hphase, hpool]
    exact h.pool
  · rw [hphase, hstate]
    intro _ hleft
    obtain ⟨hd, hw⟩ := hdraining hleft
    exact .inr ⟨hd, hwill hleft hw⟩

/-- **Step lemma.** -/
theorem Kept.step {s s' : ServerRun T} {l : RunLabel T} (h : s.Kept)
    (hg : s.readsAfterRunning l = true) (hs : s.step l = some s') : s'.Kept := by
  cases step_ends hs with
  | makePool hph =>
    obtain ⟨hcreated, hu⟩ := h.early (by rw [hph]; rfl)
    exact ⟨fun _ => ⟨hcreated, hu.returned, rfl, hu.callers⟩, fun _ _ => rfl, fun he => (by cases he)⟩
  | storeRunning hph =>
    obtain ⟨_, hu⟩ := h.early (by rw [hph]; rfl)
    have hpool := h.pool (by rw [hph]; decide) (by rw [hph]; rfl)
    exact ⟨fun he => (by cases he), fun _ _ => hpool,
      fun _ _ => .inl ⟨rfl, hu.returned, hu.isQuit, hu.callers⟩⟩
  | enterLoop hph | poll hph | pollReturns hph =>
    have hpool := h.pool (by rw [hph]; decide) (by rw [hph]; rfl)
    refine ⟨fun he => (by cases he), fun _ _ => hpool, fun _ _ => ?_⟩
    rcases h.inLoop (by rw [hph]; rfl) (by rw [hph]; rfl) with ⟨hr, hu⟩ | ⟨hd, hw⟩
    · exact .inl ⟨hr, hu.returned, hu.isQuit, hu.callers⟩
    · refine .inr ⟨hd, ?_⟩
      rcases hw with hleft | hw
      · rw [hph] at hleft
        cases hleft
      · exact .inr hw
  | leaveLoop hph _ | drain hph | resetPool hph | finish hph =>
    exact ⟨fun he => (by cases he), fun _ hl => (by cases hl), fun _ hl => (by cases hl)⟩
  | @call t hout =>
    refine ⟨fun he => ?_, h.pool, fun he hl => ?_⟩
    · obtain ⟨hcreated, hu⟩ := h.early he
      exact ⟨hcreated, hu.setStop (.inr rfl)⟩
    · rcases h.inLoop he hl with ⟨hr, hu⟩ | ⟨hd, hw⟩
      · exact .inl ⟨hr, hu.setStop (.inr rfl)⟩
      · exact .inr ⟨hd, hw.setStop fun hon => by rw [hout] at hon; cases hon⟩
  | @exchange t hcalled hrunning =>
    refine ⟨fun he => ?_, h.pool, fun _ _ => .inr ⟨rfl, .inr (.inr ⟨t, ?_⟩)⟩⟩
    · have hcreated := (h.early he).1
      rw [hrunning] at hcreated
      cases hcreated
    · show (Function.update s.stop t .exchanged t).onItsWay = true
      rw [Function.update_self]
      rfl
  | @notRunning t hcalled hnot =>
    have hcreated : s.state ≠ .created := of_decide_eq_true hg
    refine ⟨fun he => absurd (h.early he).1 hcreated, h.pool, fun he hl => ?_⟩
    rcases h.inLoop he hl with ⟨hr, _⟩ | ⟨hd, hw⟩
    · exact absurd hr hnot
    · exact .inr ⟨hd, hw.setStop fun hon => by rw [hcalled] at hon; cases hon⟩
  | findLoop hex _ =>
    exact h.goesOn (by rw [hex]; decide) rfl rfl rfl fun _ hw => hw.setStop fun _ => rfl
  | noLoop hex hnone =>
    refine h.goesOn (by rw [hex]; decide) rfl rfl rfl fun hl _ => ?_
    -- the pool outlives the main loop
    have hearly := (h.draining (by rw [hex]; decide)).1
    have hpool := h.pool (fun hph => by rw [hph] at hearly; cases hearly) hl
    rw [hnone] at hpool
    cases hpool
  | quit hq => exact h.goesOn (by rw [hq]; decide) rfl rfl rfl fun _ _ => .inr (.inl rfl)
  | wakeup hwaking =>
    exact h.goesOn (by rw [hwaking]; decide) rfl rfl rfl
      fun _ hw => hw.setStop fun hon => by rw [hwaking] at hon; cases hon

omit [DecidableEq T] in
theorem Kept.not_lost {s : ServerRun T} (h : s.Kept) : ¬s.LostStop := by
  rintro ⟨hreturned, hrunning, hin, _⟩
  obtain ⟨hearly, hleft⟩ := StartPhase.of_inMainLoop hin
  rcases h.inLoop hearly hleft with ⟨_, hu⟩ | ⟨hd, _⟩
  · rw [hu.returned] at hreturned
    cases hreturned
  · rw [hrunning] at hd
    cases hd

omit [DecidableEq T] in
/-- **A stop that has returned will be obeyed.** -/
theorem Kept.willStop {s : ServerRun T} (h : s.Kept) (hr : s.returned = true) : s.WillStop := by
  have hnot : ¬s.Untouched := fun hu => by rw [hu.returned] at hr; cases hr
  by_cases hleft : s.phase.leftLoop = true
  · exact .inl hleft
  · by_cases hearly : s.phase.early = true
    · exact absurd (h.early hearly).2 hnot
    · rcases h.inLoop (Bool.eq_false_iff.mpr hearly) (Bool.eq_false_iff.mpr hleft) with
        ⟨_, hu⟩ | ⟨_, hw⟩
      · exact absurd hu hnot
      · exact hw

/-- **No stop is lost**: in every run in which `stop()` reads the state only after `start()` has stored
`Running`, a server that has been asked to stop drains, and its main loop is told to quit. -/
theorem reaches_kept {s : ServerRun T}
    (h : (serverRun T).Reaches (fun s l => s.readsAfterRunning l = true) s) : s.Kept := by
  have hinit : (serverRun T).init.Kept := .invoked
  exact h.invariant hinit fun s l s' hI hg hs => hI.step hg hs

/-- From the pool on, the server gets into its main loop. -/
theorem run_into_loop {s : ServerRun T} (hph : s.phase = .poolMade) (hquit : s.isQuit = false) :
    (serverRun T).run s [.start .storeRunning, .start .enterLoop, .start .test] =
      some { s with state := .running, phase := .polling } := by
  simp [System.run, serverRun, ServerRun.step, startStep, hph, hquit]

/-- **A stop that reads the state too early is lost**: without another one the server gets into its
main loop and stays there. -/
theorem lost_of_early_stop {s s' : ServerRun T} (h : s.Kept) (he : s.phase.early = true) {t : T}
    (hs : s.step (.exchange t) = some s') :
    ∃ as u, (serverRun T).run s' as = some u ∧ u.LostStop := by
  obtain ⟨hcreated, hu⟩ := h.early he
  have hreturns : s' = s.stopReturns t := by
    cases step_ends hs with
    | exchange _ hrunning =>
      rw [hcreated] at hrunning
      cases hrunning
    | notRunning _ _ => rfl
  subst hreturns
  have hquit : (s.stopReturns t).isQuit = false := hu.isQuit
  cases hph : s.phase with
  | invoked =>
    have hmake : (serverRun T).step (s.stopReturns t) (.start .makePool) =
        some { s.stopReturns t with hasPool := true, isQuit := false, phase := .poolMade } := by
      simp [serverRun, ServerRun.step, startStep, stopReturns, setStop, hph]
    have hrun : (serverRun T).run (s.stopReturns t)
        [.start .makePool, .start .storeRunning, .start .enterLoop, .start .test] =
        some { s.stopReturns t with
          state := .running, hasPool := true, isQuit := false, phase := .polling } := by
      rw [System.run, hmake]
      exact run_into_loop rfl rfl
    exact ⟨_, _, hrun, rfl, rfl, rfl, rfl⟩
  | poolMade => exact ⟨_, _, run_into_loop hph hquit, rfl, rfl, rfl, hquit⟩
  | runningStored | testing | polling | loopLeft | shuttingDown | poolReset | stopped =>
    rw [hph] at he
    cases he

end ServerRun

end Tudou
