import Tudou.Reactor.EventLoop

/-!
# `EventLoop::quit` and the way out of `loop()`

`quit()` stores `isQuit_` and, on another thread than the loop's, wakes the loop up; `loop()` tests the
flag between two polls.

* `QuitLost` — the flag is set, the loop waits in `epoll_wait`, and nothing will end the wait.
* `quit_not_lost` — **no reachable state is such**, wherever the loop is when a `quit()` comes.
* `rank_step` — with the flag set, every step but a new call brings the end of `loop()` nearer.
* `leaves_loop` — **a loop that is to quit leaves `loop()`**, without any help but the wakeups that
  are on their way.
-/

namespace Tudou

open Transition

/-- A call of `quit()`. -/
def LoopLabel.quits {F T : Type*} : LoopLabel F T → Bool
  | .own .quit | .quit _ => true
  | _ => false

/-- The other thread that makes a step. -/
def LoopLabel.caller {F T : Type*} : LoopLabel F T → Option T
  | .own _ => none
  | .queue t _ | .wakeup t | .quit t | .quitWakeup t => some t

/-- A call into the loop that begins, as opposed to the wakeup that ends it. -/
def LoopLabel.isCall {F T : Type*} : LoopLabel F T → Bool
  | .own (.queue _) | .own .quit | .queue _ _ | .quit _ => true
  | _ => false

/-- A step of `loop()` itself, not of the user code it calls. -/
def OwnStep.advances {F : Type*} : OwnStep F → Bool
  | .queue _ | .wakeup | .quit => false
  | _ => true

/-- How far the loop thread is from the end of `loop()`, if it is to quit: the part of the round, and
what is left to do in it. -/
def LoopPhase.remaining {F : Type*} : LoopPhase F → Nat × Nat
  | .constructed => (6, 0)
  | .polling => (5, 0)
  | .dispatching ready => (4, 2 * ready.length)
  | .handling ready => (4, 2 * ready.length + 1)
  | .swapping => (3, 0)
  | .running functors => (2, 2 * functors.length)
  | .calling functors => (2, 2 * functors.length + 1)
  | .testing => (1, 0)
  | .returned => (0, 0)

namespace EventLoop

variable {F T : Type*}

/-- The loop is to quit, waits in `epoll_wait`, and neither the eventfd nor a thread on its way to
`wakeup()` will end the wait. -/
def QuitLost (s : EventLoop F T) : Prop :=
  s.isQuit = true ∧ s.phase = .polling ∧ s.wakeupCounter = 0 ∧ s.quitting = []

/-- What keeps a quit from being lost. -/
structure HeedsQuit (s : EventLoop F T) : Prop where
  woken : s.isQuit = true → s.phase = .polling → 0 < s.wakeupCounter ∨ s.quitting ≠ []
  returned : s.phase = .returned → s.isQuit = true

theorem heedsQuit_create : (create : EventLoop F T).HeedsQuit where
  woken h := by cases h
  returned h := by cases h

theorem HeedsQuit.not_lost {s : EventLoop F T} (h : s.HeedsQuit) : ¬s.QuitLost := by
  rintro ⟨hquit, hphase, hcounter, hquitting⟩
  rcases h.woken hquit hphase with hpos | hne
  · omega
  · exact hne hquitting

/-- The test of `while (!isQuit_)`. -/
theorem test_ends {s s' : EventLoop F T} (h : s.ownStep .test = some s') :
    s.phase = .testing ∧ s' = { s with phase := if s.isQuit then .returned else .polling } := by
  unfold ownStep at h
  split at h <;> try contradiction
  cases h
  exact ⟨‹_›, rfl⟩

theorem HeedsQuit.own {s s' : EventLoop F T} {a : OwnStep F} (h : s.HeedsQuit)
    (hs : s.ownStep a = some s') : s'.HeedsQuit := by
  by_cases ha : a = .test
  · subst ha
    obtain ⟨-, rfl⟩ := test_ends hs
    cases hquit : s.isQuit with
    | true => exact ⟨fun _ hp => (by cases hp), fun _ => rfl⟩
    | false => exact ⟨fun hq => (by cases hq), fun hp => (by cases hp)⟩
  · cases ownStep_ends hs with
    | leaveLoop _ | poll _ => exact absurd rfl ha
    | enterLoop _ | pollReturns _ | readWakeup _ | handle _ | handlerReturns _ | beginFunctors _
    | swap _ | call _ | functorReturns _ | endFunctors _ =>
      exact ⟨fun _ hp => (by cases hp), fun hp => (by cases hp)⟩
    | queue _ => exact ⟨h.woken, h.returned⟩
    | quit hu =>
      -- the loop thread tests the flag before it polls again
      refine ⟨fun _ hp => ?_, fun _ => rfl⟩
      rw [show s.phase = .polling from hp] at hu
      cases hu

variable [DecidableEq T]

theorem own_ends {s s' : EventLoop F T} {a : OwnStep F} (hs : s.step (.own a) = some s')
    (ha : a ≠ .wakeup) : s.ownWaking = false ∧ s.ownStep a = some s' := by
  unfold step at hs
  split at hs
  · rename_i heq
    cases heq
    exact absurd rfl ha
  · rename_i heq
    cases heq
    split at hs
    · cases hs
    · exact ⟨Bool.not_eq_true _ ▸ ‹_›, hs⟩
  all_goals rename_i heq; cases heq

/-- **Step lemma** for quits. -/
theorem HeedsQuit.step {s s' : EventLoop F T} {l : LoopLabel F T} (h : s.HeedsQuit)
    (hs : s.step l = some s') : s'.HeedsQuit := by
  by_cases hl : ∃ a, l = .own a ∧ a ≠ .wakeup
  · obtain ⟨a, rfl, ha⟩ := hl
    exact h.own (own_ends hs ha).2
  · cases step_ends hs with
    | @own a _ _ hs' =>
      refine absurd ⟨a, rfl, ?_⟩ hl
      rintro rfl
      cases hs'
    | ownWakeup _ | wakeup _ | quitWakeup _ =>
      exact ⟨fun _ _ => .inl (wakeupCounter_wakeup_pos s), h.returned⟩
    | queue => exact ⟨h.woken, h.returned⟩
    | quit => exact ⟨fun _ _ => .inr (List.cons_ne_nil _ _), fun _ => rfl⟩

/-- **No quit is lost**, whichever thread it comes from and wherever the loop is. -/
theorem quit_not_lost {s : EventLoop F T} (h : (eventLoop F T).Reachable s) : ¬s.QuitLost :=
  HeedsQuit.not_lost (h.invariant (I := HeedsQuit) heedsQuit_create fun _ _ _ hI _ hs => hI.step hs)

/-! ## The way out -/

omit [DecidableEq T] in
theorem OwnEnds.isQuit {s s' : EventLoop F T} {a : OwnStep F} (h : OwnEnds s a s')
    (hquit : s.isQuit = true) : s'.isQuit = true := by
  cases h with
  | quit _ => rfl
  | enterLoop _ | leaveLoop _ | poll _ | pollReturns _ | readWakeup _ | handle _ | handlerReturns _
  | beginFunctors _ | swap _ | call _ | functorReturns _ | endFunctors _ | queue _ => exact hquit

/-- `isQuit_` is never cleared, -/
theorem isQuit_step {s s' : EventLoop F T} {l : LoopLabel F T} (hs : s.step l = some s')
    (hquit : s.isQuit = true) : s'.isQuit = true := by
  cases step_ends hs with
  | own _ h => exact h.isQuit hquit
  | quit => rfl
  | ownWakeup _ | queue | wakeup _ | quitWakeup _ => exact hquit

/-- and set by `quit()` only. -/
theorem isQuit_of_step {s s' : EventLoop F T} {l : LoopLabel F T} (hs : s.step l = some s')
    (hl : l.quits = false) : s'.isQuit = s.isQuit := by
  cases step_ends hs with
  | own _ h =>
    cases h with
    | quit _ => cases hl
    | enterLoop _ | leaveLoop _ | poll _ | pollReturns _ | readWakeup _ | handle _ | handlerReturns _
    | beginFunctors _ | swap _ | call _ | functorReturns _ | endFunctors _ | queue _ => rfl
  | quit => cases hl
  | ownWakeup _ | queue | wakeup _ | quitWakeup _ => rfl

/-- How often a thread is between the push and the wakeup of `queue_in_loop`, -/
def queueCalls (s : EventLoop F T) (t : T) : Nat := s.waking.count t

/-- and between the store and the wakeup of `quit`. -/
def quitCalls (s : EventLoop F T) (t : T) : Nat := s.quitting.count t

/-- A step leaves the calls of the other threads where they are. -/
theorem calls_step {s s' : EventLoop F T} {l : LoopLabel F T} (hs : s.step l = some s') {t : T}
    (ht : l.caller ≠ some t) : s'.queueCalls t = s.queueCalls t ∧ s'.quitCalls t = s.quitCalls t := by
  cases step_ends hs with
  | own _ h =>
    cases h with
    | enterLoop _ | leaveLoop _ | poll _ | pollReturns _ | readWakeup _ | handle _ | handlerReturns _
    | beginFunctors _ | swap _ | call _ | functorReturns _ | endFunctors _ | queue _ | quit _ =>
      exact ⟨rfl, rfl⟩
  | ownWakeup _ => exact ⟨rfl, rfl⟩
  | queue => exact ⟨List.count_cons_of_ne (fun h => ht (congrArg some h)), rfl⟩
  | quit => exact ⟨rfl, List.count_cons_of_ne (fun h => ht (congrArg some h))⟩
  | wakeup _ => exact ⟨List.count_erase_of_ne (fun h => ht (congrArg some h.symm)), rfl⟩
  | quitWakeup _ => exact ⟨rfl, List.count_erase_of_ne (fun h => ht (congrArg some h.symm))⟩

/-- `quit()` of a thread, up to its wakeup -/
theorem quit_calls {s s' : EventLoop F T} {t : T} (hs : s.step (.quit t) = some s') :
    s'.isQuit = true ∧ s'.queueCalls t = s.queueCalls t ∧ s'.quitCalls t = s.quitCalls t + 1 := by
  cases step_ends hs
  exact ⟨rfl, rfl, List.count_cons_self⟩

/-- and after it. -/
theorem quitWakeup_calls {s s' : EventLoop F T} {t : T} (hs : s.step (.quitWakeup t) = some s') :
    s'.queueCalls t = s.queueCalls t ∧ s'.quitCalls t = s.quitCalls t - 1 := by
  cases step_ends hs
  exact ⟨rfl, List.count_erase_self⟩

theorem quitCalls_eq_zero {s : EventLoop F T} {t : T} : s.quitCalls t = 0 ↔ t ∉ s.quitting :=
  List.count_eq_zero

theorem queueCalls_eq_zero {s : EventLoop F T} {t : T} : s.queueCalls t = 0 ↔ t ∉ s.waking :=
  List.count_eq_zero

/-- A thread outside its calls can call `quit()`, -/
theorem exists_quit {s : EventLoop F T} {t : T} (hqueue : s.queueCalls t = 0)
    (hquit : s.quitCalls t = 0) : ∃ s', s.step (.quit t) = some s' := by
  refine ⟨_, if_neg ?_⟩
  rintro (ht | ht)
  · exact queueCalls_eq_zero.mp hqueue ht
  · exact quitCalls_eq_zero.mp hquit ht

/-- and go on in it. -/
theorem exists_quitWakeup {s : EventLoop F T} {t : T} (hquit : s.quitCalls t ≠ 0) :
    ∃ s', s.step (.quitWakeup t) = some s' :=
  ⟨_, if_pos (not_not.mp fun ht => hquit (quitCalls_eq_zero.mpr ht))⟩

omit [DecidableEq T] in
/-- **With `isQuit_` set every step of `loop()` brings its end nearer**: the round is finished, and no
other is begun. -/
theorem advance_remaining {s s' : EventLoop F T} {a : OwnStep F} (hquit : s.isQuit = true)
    (ha : a.advances = true) (hs : s.ownStep a = some s') :
    Prod.Lex (· < ·) (· < ·) s'.phase.remaining s.phase.remaining := by
  by_cases htest : a = .test
  · subst htest
    obtain ⟨hphase, rfl⟩ := test_ends hs
    rw [hphase, hquit]
    exact .left _ _ (by omega)
  · cases ownStep_ends hs with
    | leaveLoop _ | poll _ => exact absurd rfl htest
    | queue _ | quit _ => cases ha
    | enterLoop hphase | pollReturns hphase | beginFunctors hphase | swap hphase
    | endFunctors hphase =>
      rw [hphase]
      exact .left _ _ (by omega)
    | readWakeup hphase | handle hphase | call hphase =>
      rw [hphase]
      exact .right _ (by simp only [List.length_cons]; omega)
    | handlerReturns hphase | functorReturns hphase =>
      rw [hphase]
      exact .right _ (Nat.lt_succ_self _)

omit [DecidableEq T] in
theorem exists_advances {s : EventLoop F T} (hphase : s.phase ≠ .returned) :
    ∃ a, a.advances = true ∧ (s.ownStep a).isSome = true := by
  cases hp : s.phase with
  | constructed => exact ⟨.enterLoop, rfl, by simp only [ownStep, hp, Option.isSome_some]⟩
  | testing => exact ⟨.test, rfl, by simp only [ownStep, hp, Option.isSome_some]⟩
  | polling => exact ⟨.pollReturns [.wakeup], rfl, by simp only [ownStep, hp, Option.isSome_some]⟩
  | dispatching ready =>
    cases ready with
    | nil => exact ⟨.beginFunctors, rfl, by simp only [ownStep, hp, Option.isSome_some]⟩
    | cons channel ready =>
      refine ⟨.handle, rfl, ?_⟩
      cases channel with
      | wakeup | other => simp only [ownStep, hp, Option.isSome_some]
  | handling ready => exact ⟨.handlerReturns, rfl, by simp only [ownStep, hp, Option.isSome_some]⟩
  | swapping => exact ⟨.swap, rfl, by simp only [ownStep, hp, Option.isSome_some]⟩
  | running functors =>
    cases functors with
    | nil => exact ⟨.endFunctors, rfl, by simp only [ownStep, hp, Option.isSome_some]⟩
    | cons f functors => exact ⟨.call, rfl, by simp only [ownStep, hp, Option.isSome_some]⟩
  | calling functors => exact ⟨.functorReturns, rfl, by simp only [ownStep, hp, Option.isSome_some]⟩
  | returned => exact absurd hp hphase

/-- The loop thread can go on, unless it has left `loop()` or has a wakeup of its own to make. -/
theorem exists_advance {s : EventLoop F T} (hown : s.ownWaking = false) (hphase : s.phase ≠ .returned) :
    ∃ a s', a.advances = true ∧ s.ownStep a = some s' ∧ s.step (.own a) = some s' := by
  obtain ⟨a, ha, hsome⟩ := exists_advances hphase
  obtain ⟨s', hs⟩ := Option.isSome_iff_exists.mp hsome
  refine ⟨a, s', ha, hs, ?_⟩
  cases a with
  | queue _ | wakeup | quit => cases ha
  | enterLoop | test | pollReturns _ | handle | handlerReturns | beginFunctors | swap | call
  | functorReturns | endFunctors =>
    simp only [step, hown, Bool.false_eq_true, if_false]
    exact hs

/-- The wakeups on their way. -/
def pendingWakeups (s : EventLoop F T) : Nat :=
  s.waking.length + s.quitting.length + if s.ownWaking then 1 else 0

/-- How far the loop is from the end of `loop()`, with the wakeups that may come between. -/
def rank (s : EventLoop F T) : (Nat × Nat) × Nat := (s.phase.remaining, s.pendingWakeups)

/-- The order of ranks. -/
def RankLt : (Nat × Nat) × Nat → (Nat × Nat) × Nat → Prop :=
  Prod.Lex (Prod.Lex (· < ·) (· < ·)) (· < ·)

theorem wellFounded_rankLt : WellFounded RankLt :=
  (Prod.lex (Prod.lex Nat.lt_wfRel Nat.lt_wfRel) Nat.lt_wfRel).wf

omit [DecidableEq T] in
/-- A wakeup ends a call and moves nobody. -/
theorem rankLt_of_pending {s s' : EventLoop F T} (hphase : s'.phase = s.phase)
    (h : s'.pendingWakeups < s.pendingWakeups) : RankLt s'.rank s.rank := by
  unfold rank
  rw [hphase]
  exact .right _ h

/-- **With `isQuit_` set every step but a new call brings the end of `loop()` nearer.** -/
theorem rank_step {s s' : EventLoop F T} {l : LoopLabel F T} (hquit : s.isQuit = true)
    (hl : l.isCall = false) (hs : s.step l = some s') : RankLt s'.rank s.rank := by
  cases l with
  | own a =>
    by_cases ha : a = .wakeup
    · subst ha
      cases step_ends hs with
      | own _ h => cases h
      | ownWakeup hown =>
        refine rankLt_of_pending rfl ?_
        unfold pendingWakeups
        rw [hown]
        exact Nat.lt_succ_self _
    · have hadvances : a.advances = true := by
        cases a with
        | queue _ | quit => cases hl
        | wakeup => exact absurd rfl ha
        | enterLoop | test | pollReturns _ | handle | handlerReturns | beginFunctors | swap | call
        | functorReturns | endFunctors => rfl
      exact .left _ _ (advance_remaining hquit hadvances (own_ends hs ha).2)
  | queue _ _ | quit _ => cases hl
  | wakeup t =>
    cases step_ends hs with
    | wakeup ht =>
      refine rankLt_of_pending rfl ?_
      have hlength := List.length_erase_of_mem ht
      have hpos := List.length_pos_of_mem ht
      show (s.waking.erase t).length + s.quitting.length + (if s.ownWaking then 1 else 0) <
        s.waking.length + s.quitting.length + (if s.ownWaking then 1 else 0)
      omega
  | quitWakeup t =>
    cases step_ends hs with
    | quitWakeup ht =>
      refine rankLt_of_pending rfl ?_
      have hlength := List.length_erase_of_mem ht
      have hpos := List.length_pos_of_mem ht
      show s.waking.length + (s.quitting.erase t).length + (if s.ownWaking then 1 else 0) <
        s.waking.length + s.quitting.length + (if s.ownWaking then 1 else 0)
      omega

/-- Steps for which nobody else is needed: calls end, none begins, and `epoll_wait` returns for the
eventfd. -/
def Unaided (s : EventLoop F T) : LoopLabel F T → Prop
  | .own (.pollReturns _) => 0 < s.wakeupCounter
  | l => l.isCall = false

omit [DecidableEq T] in
theorem Unaided.not_call {s : EventLoop F T} {l : LoopLabel F T} (h : s.Unaided l) :
    l.isCall = false := by
  cases l with
  | own a =>
    cases a with
    | pollReturns _ => rfl
    | enterLoop | test | handle | handlerReturns | beginFunctors | swap | call | functorReturns
    | endFunctors | queue _ | wakeup | quit => exact h
  | queue _ _ | wakeup _ | quit _ | quitWakeup _ => exact h

omit [DecidableEq T] in
theorem unaided_of_advances {s s' : EventLoop F T} {a : OwnStep F} (ha : a.advances = true)
    (hs : s.ownStep a = some s') (hreadable : s.phase = .polling → 0 < s.wakeupCounter) :
    s.Unaided (.own a) := by
  cases a with
  | pollReturns ready =>
    cases ownStep_ends hs with
    | pollReturns hphase => exact hreadable hphase
  | queue _ | quit | wakeup => cases ha
  | enterLoop | test | handle | handlerReturns | beginFunctors | swap | call | functorReturns
  | endFunctors => rfl

/-- A loop that is to quit and has not left `loop()` has such a step open, by its own thread or by one
inside `quit()`. -/
theorem HeedsQuit.exists_unaided {s : EventLoop F T} (h : s.HeedsQuit) (hquit : s.isQuit = true)
    (hphase : s.phase ≠ .returned) :
    ∃ l s', s.Unaided l ∧ s.step l = some s' ∧ ∀ t, l.caller = some t → t ∈ s.quitting := by
  cases hown : s.ownWaking with
  | true => exact ⟨.own .wakeup, _, rfl, if_pos hown, fun t ht => (by cases ht)⟩
  | false =>
    by_cases hstuck : s.phase = .polling ∧ s.wakeupCounter = 0
    · -- a thread inside `quit()` ends the wait
      have hne : s.quitting ≠ [] := (h.woken hquit hstuck.1).resolve_left (by omega)
      obtain ⟨t, ht⟩ := List.exists_mem_of_ne_nil _ hne
      refine ⟨.quitWakeup t, _, rfl, if_pos ht, fun t' ht' => ?_⟩
      cases ht'
      exact ht
    · obtain ⟨a, s', ha, hs, hstep⟩ := exists_advance hown hphase
      refine ⟨.own a, s', unaided_of_advances ha hs fun hpoll => ?_, hstep, fun t ht => (by cases ht)⟩
      exact Nat.pos_of_ne_zero fun hcounter => hstuck ⟨hpoll, hcounter⟩

/-- **A loop that is to quit leaves `loop()`**, wherever it is and whoever called `quit()`: nobody but
the threads inside their calls is needed for it. -/
theorem leaves_loop {s : EventLoop F T} (h : (eventLoop F T).Reachable s) (hquit : s.isQuit = true) :
    (eventLoop F T).Inevitable Unaided (fun s => s.phase = .returned) s := by
  have hheeds : s.HeedsQuit :=
    h.invariant (I := HeedsQuit) heedsQuit_create fun _ _ _ hI _ hs => hI.step hs
  refine System.Inevitable.of_decreasing (I := fun s => s.HeedsQuit ∧ s.isQuit = true)
    wellFounded_rankLt rank ?_ ?_ ⟨hheeds, hquit⟩
  · rintro s ⟨hheeds, hquit⟩ hphase
    obtain ⟨l, s', hl, hs, -⟩ := hheeds.exists_unaided hquit hphase
    exact ⟨l, s', hl, hs⟩
  · rintro s l s' ⟨hheeds, hquit⟩ - hl hs
    exact .inr ⟨⟨hheeds.step hs, isQuit_step hs hquit⟩, rank_step hquit hl.not_call hs⟩

/-- Another thread calls `quit()` while the loop waits, and has not come to its `wakeup()`. -/
theorem leaves_loop_quitWhilePolling :
    ∃ s ∈ (eventLoop Nat Nat).run (eventLoop Nat Nat).init [.own .enterLoop, .own .test, .quit 3],
      s.phase = .polling ∧ (eventLoop Nat Nat).Inevitable Unaided (fun s => s.phase = .returned) s := by
  obtain ⟨s, hs, hphase, hquit⟩ :
      ∃ s ∈ (eventLoop Nat Nat).run (eventLoop Nat Nat).init [.own .enterLoop, .own .test, .quit 3],
        s.phase = .polling ∧ s.isQuit = true := by
    decide
  exact ⟨s, hs, hphase, leaves_loop (.of_run _ hs) hquit⟩

end EventLoop

end Tudou
