import Tudou.Timer.Cancellation

/-!
# The functors of `add_timer` and `erase_timer` can run

A functor of `add_timer` inserts a timer that waits to be inserted, and does so once, so the loop
thread is never stuck with one.

* `Insertable` — the timers whose functors wait, and those still with the threads that make them.
* `functor_runs` — **whenever the loop thread starts a functor, the functor runs**.
-/

namespace Tudou

open Transition

/-- The timer a functor inserts. -/
def TimerFunctor.adds : TimerFunctor → Option Nat
  | .addTimer timer => some timer
  | _ => none

namespace TimerQueue

/-- What waits to be inserted waits until its own insertion. -/
theorem created_step {q q' : TimerQueue} {a : TimerStep} (hs : q.step a = some q') {timer : Nat}
    (hc : timer ∈ q.created) (hne : a ≠ .insert timer) : timer ∈ q'.created := by
  cases step_ends hs with
  | create _ => exact List.mem_cons_of_mem _ hc
  | @insert timer' _ _ =>
    have hneq : timer ≠ timer' := fun heq => hne (by rw [heq])
    exact (List.mem_erase_of_ne hneq).mpr hc
  | erase _ =>
    rw [(q.eraseTimer_frame _).2.2]
    exact hc
  | callbackReturns _ =>
    rw [(q.afterCallback_frame _ _).2.1]
    exact hc
  | read _ | skip _ _ | call _ _ | sync _ | tick | holdUp | expire _ _ => exact hc

end TimerQueue

namespace TimerLoop

variable {T : Type*}

/-- The timers whose functors wait. -/
def waitingAdds (s : TimerLoop T) : List Nat := s.loop.waiting.filterMap TimerFunctor.adds

/-- Every waiting functor has its own timer to insert, and so will those on their way to the queue. -/
structure Insertable (q : TimerQueue) (adds : List Nat) (adding : T → AddPhase) : Prop where
  created : ∀ timer ∈ adds, timer ∈ q.created
  once : adds.Nodup
  made : ∀ {t timer timerId}, adding t = .made timer timerId → timer ∈ q.created ∧ timer ∉ adds
  apart : ∀ {t t' timer timerId timerId'}, adding t = .made timer timerId →
    adding t' = .made timer timerId' → t = t'

/-- Only a waiting timer's own insertion changes what waits. -/
theorem Insertable.queueStep {q q' : TimerQueue} {adds : List Nat} {adding : T → AddPhase}
    (h : Insertable q adds adding)
    (hkeep : ∀ timer ∈ q.created, timer ∈ q'.created) : Insertable q' adds adding where
  created timer ht := hkeep timer (h.created timer ht)
  once := h.once
  made hadd := ⟨hkeep _ (h.made hadd).1, (h.made hadd).2⟩
  apart := h.apart

/-- The functor at the head inserts its timer. -/
theorem Insertable.insert {q q' : TimerQueue} {timer : Nat} {adds : List Nat} {adding : T → AddPhase}
    (h : Insertable q (timer :: adds) adding) (hs : q.step (.insert timer) = some q') :
    Insertable q' adds adding := by
  obtain ⟨hnot, hnodup⟩ := List.nodup_cons.mp h.once
  have hkeep : ∀ {timer'}, timer' ∈ q.created → timer' ≠ timer → timer' ∈ q'.created :=
    fun hc hne => TimerQueue.created_step hs hc fun heq => hne (by cases heq; rfl)
  refine ⟨fun timer' ht => ?_, hnodup, fun hadd => ?_, h.apart⟩
  · apply hkeep (h.created timer' (List.mem_cons_of_mem _ ht))
    rintro rfl
    exact hnot ht
  · obtain ⟨hc, hm⟩ := h.made hadd
    rw [List.mem_cons, not_or] at hm
    exact ⟨hkeep hc hm.1, hm.2⟩

variable [DecidableEq T]

/-- A thread leaves the stage before the push. -/
theorem Insertable.setAdding {q : TimerQueue} {adds : List Nat} {adding : T → AddPhase}
    (h : Insertable q adds adding) (t : T) {phase : AddPhase}
    (hphase : ∀ timer timerId, phase ≠ .made timer timerId) :
    Insertable q adds (Function.update adding t phase) := by
  have hold : ∀ {t' timer timerId}, Function.update adding t phase t' = .made timer timerId →
      adding t' = .made timer timerId := by
    intro t' timer timerId hadd
    rw [Function.update_apply] at hadd
    split at hadd
    · exact absurd hadd (hphase _ _)
    · exact hadd
  exact ⟨h.created, h.once, fun hadd => h.made (hold hadd),
    fun hadd hadd' => h.apart (hold hadd) (hold hadd')⟩

/-- A thread makes a timer at an address nothing refers to. -/
theorem Insertable.make {q q' : TimerQueue} {adds : List Nat} {adding : T → AddPhase}
    (h : Insertable q adds adding) {timer : Nat} {expiration interval : Int}
    (hs : q.step (.create timer expiration interval) = some q') (t : T) (timerId : Nat) :
    Insertable q' adds (Function.update adding t (.made timer timerId)) := by
  have hkeep : ∀ timer' ∈ q.created, timer' ∈ q'.created :=
    fun timer' hc => TimerQueue.created_step hs hc (by simp)
  obtain ⟨hfree, hnew⟩ : ¬q.Live timer ∧ timer ∈ q'.created := by
    cases TimerQueue.step_ends hs with
    | create hfree => exact ⟨hfree, List.mem_cons_self⟩
  have hnot : ∀ {t' timer'' timerId'}, adding t' = .made timer'' timerId' → timer'' ≠ timer := by
    intro t' timer'' timerId' hadd heq
    exact hfree (.inl (heq ▸ (h.made hadd).1))
  have hstay := h.queueStep hkeep
  refine ⟨hstay.created, h.once, fun {t' timer' timerId'} hadd => ?_,
    fun {t' t'' timer' id' id''} hadd hadd' => ?_⟩
  · by_cases heq : t' = t
    · subst heq
      rw [Function.update_self] at hadd
      cases hadd
      exact ⟨hnew, fun hm => hfree (.inl (h.created _ hm))⟩
    · rw [Function.update_of_ne heq] at hadd
      exact hstay.made hadd
  · by_cases heq : t' = t <;> by_cases heq' : t'' = t
    · rw [heq, heq']
    · rw [heq, Function.update_self] at hadd
      cases hadd
      rw [Function.update_of_ne heq'] at hadd'
      exact absurd rfl (hnot hadd')
    · rw [heq', Function.update_self] at hadd'
      cases hadd'
      rw [Function.update_of_ne heq] at hadd
      exact absurd rfl (hnot hadd)
    · rw [Function.update_of_ne heq] at hadd
      rw [Function.update_of_ne heq'] at hadd'
      exact h.apart hadd hadd'

/-- A thread pushes its functor. -/
theorem Insertable.push {q : TimerQueue} {adds : List Nat} {adding : T → AddPhase}
    (h : Insertable q adds adding) {t : T} {timer timerId : Nat}
    (hadd : adding t = .made timer timerId) :
    Insertable q (adds ++ [timer]) (Function.update adding t (.queued timerId)) := by
  obtain ⟨hc, hnot⟩ := h.made hadd
  have hold : ∀ {t' timer' timerId'},
      Function.update adding t (.queued timerId) t' = .made timer' timerId' →
        t' ≠ t ∧ adding t' = .made timer' timerId' := by
    intro t' timer' timerId' hadd'
    by_cases heq : t' = t
    · rw [heq, Function.update_self] at hadd'
      cases hadd'
    · rw [Function.update_of_ne heq] at hadd'
      exact ⟨heq, hadd'⟩
  refine ⟨fun timer' ht => ?_, ?_, fun hadd' => ?_, fun hadd' hadd'' => ?_⟩
  · rcases List.mem_append.mp ht with ht | ht
    · exact h.created timer' ht
    · cases List.mem_singleton.mp ht
      exact hc
  · apply h.once.append (List.nodup_singleton _)
    intro timer' ht ht'
    cases List.mem_singleton.mp ht'
    exact hnot ht
  · obtain ⟨hne, hadd'⟩ := hold hadd'
    refine ⟨(h.made hadd').1, fun ht => ?_⟩
    rcases List.mem_append.mp ht with ht | ht
    · exact (h.made hadd').2 ht
    · rw [List.mem_singleton.mp ht] at hadd'
      exact hne (h.apart hadd' hadd)
  · exact h.apart (hold hadd').2 (hold hadd'').2

/-! ## Where the loop thread is -/

omit [DecidableEq T] in
/-- Only the stages of `on_timerfd_read` move the queue's phase. -/
theorem queue_phase_step {q q' : TimerQueue} {a : TimerStep} (hs : q.step a = some q')
    (ha : a.isStage = false) : q'.phase = q.phase := by
  cases TimerQueue.step_ends hs with
  | erase _ =>
    unfold TimerQueue.eraseTimer
    split
    · rfl
    · rfl
  | create _ | insert _ _ | tick | holdUp | expire _ _ => rfl
  | read _ | skip _ _ | call _ _ | callbackReturns _ | sync _ => cases ha

/-- The steps of other threads leave the loop's phase alone. -/
theorem loop_phase_step {loop loop' : EventLoop TimerFunctor T} {l : LoopLabel TimerFunctor T}
    (hs : loop.step l = some loop') (hl : ∀ a, l ≠ .own a) : loop'.phase = loop.phase := by
  cases EventLoop.step_ends hs with
  | own _ _ | ownWakeup _ => exact absurd rfl (hl _)
  | queue | wakeup _ | quit | quitWakeup _ => rfl

/-- While the queue is in an operation, the loop thread leaves its phase alone. -/
theorem own_phase_step {loop loop' : EventLoop TimerFunctor T} {a : OwnStep TimerFunctor}
    {phase : QueuePhase} (hs : loop.step (.own a) = some loop') (ha : a.allowedIn phase = true) :
    phase = .idle ∨ loop'.phase = loop.phase := by
  have hidle : (phase == .idle) = true → phase = .idle := eq_of_beq
  cases EventLoop.step_ends hs with
  | ownWakeup _ => exact .inr rfl
  | own _ h =>
    cases h with
    | queue _ | quit _ => exact .inr rfl
    | enterLoop _ | leaveLoop _ | poll _ | pollReturns _ | readWakeup _ | handle _
    | handlerReturns _ | beginFunctors _ | swap _ | call _ | functorReturns _ | endFunctors _ =>
      exact .inl (hidle ha)

/-- **The invariant**: what waits can be inserted, and `on_timerfd_read` runs in a handler. -/
structure Ready (s : TimerLoop T) : Prop where
  fifo : s.loop.Fifo
  insertable : Insertable s.queue s.waitingAdds s.adding
  inHandler : s.queue.phase = .idle ∨ s.loop.phase.isHandling = true

/-- What a step of the event loop does to the timers whose functors wait. -/
theorem Ready.waitingAdds_step {s : TimerLoop T} (h : s.Ready) {l : LoopLabel TimerFunctor T}
    {loop : EventLoop TimerFunctor T} (hs : s.loop.step l = some loop) :
    (s.loop.starts l).filterMap TimerFunctor.adds ++ loop.waiting.filterMap TimerFunctor.adds =
      s.waitingAdds ++ l.pushes.filterMap TimerFunctor.adds := by
  have hw := congrArg (List.filterMap TimerFunctor.adds) (h.fifo.waiting_step hs)
  rw [List.filterMap_append, List.filterMap_append] at hw
  exact hw

/-- A step of the event loop that starts no functor and pushes none of an add. -/
theorem Ready.loopStep {s : TimerLoop T} (h : s.Ready) {l : LoopLabel TimerFunctor T}
    {loop : EventLoop TimerFunctor T} (hs : s.loop.step l = some loop)
    (hstarts : s.loop.starts l = []) (hpushes : l.pushes.filterMap TimerFunctor.adds = [])
    (hphase : s.queue.phase = .idle ∨ loop.phase = s.loop.phase) : { s with loop := loop }.Ready := by
  have hw := h.waitingAdds_step hs
  rw [hstarts, hpushes, List.filterMap_nil, List.nil_append, List.append_nil] at hw
  refine ⟨h.fifo.step hs, ?_, ?_⟩
  · show Insertable s.queue (loop.waiting.filterMap TimerFunctor.adds) s.adding
    rw [hw]
    exact h.insertable
  · show s.queue.phase = .idle ∨ loop.phase.isHandling = true
    rcases hphase with hidle | hsame
    · exact .inl hidle
    · rw [hsame]
      exact h.inHandler

omit [DecidableEq T] in
/-- A step of the queue that inserts nothing. -/
theorem Ready.queueStep {s : TimerLoop T} (h : s.Ready) {a : TimerStep} {q : TimerQueue}
    (hs : s.queue.step a = some q) (hne : ∀ timer, a ≠ .insert timer)
    (hphase : q.phase = s.queue.phase ∨ s.loop.phase.isHandling = true) :
    { s with queue := q }.Ready := by
  refine ⟨h.fifo, ?_, ?_⟩
  · exact h.insertable.queueStep fun timer hc => TimerQueue.created_step hs hc (hne timer)
  · show q.phase = .idle ∨ s.loop.phase.isHandling = true
    rcases hphase with hsame | hin
    · rw [hsame]
      exact h.inHandler
    · exact .inr hin

/-- A functor runs, on a loop thread that is in no operation of the queue. -/
theorem Ready.runs {s s' : TimerLoop T} (h : s.Ready) {a : OwnStep TimerFunctor}
    {loop : EventLoop TimerFunctor T} {f : TimerFunctor} {fs : List TimerFunctor}
    (hidle : s.queue.phase = .idle) (hs : s.loop.step (.own a) = some loop)
    (hstarts : s.loop.starts (.own a) = f :: fs)
    (hex : { s with loop := loop }.execute f = some s') : s'.Ready := by
  obtain ⟨rfl, hpushes⟩ := starts_cons hstarts
  have hfifo := h.fifo.step hs
  have hw := h.waitingAdds_step hs
  rw [hstarts, hpushes, List.filterMap_nil, List.append_nil] at hw
  cases f with
  | addTimer timer =>
    obtain ⟨queue, hi, rfl⟩ := Option.map_eq_some_iff.mp hex
    have hins := h.insertable
    rw [← hw] at hins
    exact ⟨hfifo, hins.insert hi, .inl ((queue_phase_step hi rfl).trans hidle)⟩
  | eraseTimer timerId afterReturn =>
    obtain ⟨queue, he, rfl⟩ := Option.map_eq_some_iff.mp hex
    have hins := h.insertable.queueStep fun timer hc => TimerQueue.created_step he hc (by simp)
    rw [← hw] at hins
    exact ⟨hfifo, hins, .inl ((queue_phase_step he rfl).trans hidle)⟩
  | other =>
    cases hex
    have hins := h.insertable
    rw [← hw] at hins
    exact ⟨hfifo, hins, .inl hidle⟩

/-- **Step lemma.** -/
theorem Ready.step {s s' : TimerLoop T} {l : TimerLoopLabel T} (h : s.Ready)
    (hstep : s.step l = some s') : s'.Ready := by
  have hother : ∀ {l : LoopLabel TimerFunctor T}, (∀ a, l ≠ .own a) → s.loop.starts l = [] := by
    intro l hl
    unfold EventLoop.starts
    split
    · exact absurd rfl (hl _)
    · rfl
  cases step_ends hstep with
  | @move a loop hallowed hs hstarts =>
    refine h.loopStep hs hstarts ?_ (own_phase_step hs hallowed)
    apply List.filterMap_eq_nil_iff.mpr
    intro f hf
    rw [(own_pushes_other hallowed).2 f hf]
    rfl
  | @runs a loop f fs s' hallowed hs hstarts hex =>
    have hidle : s.queue.phase = .idle := by
      rcases own_phase_step hs hallowed with hidle | hsame
      · exact hidle
      · cases EventLoop.step_ends hs with
        | ownWakeup _ => cases hstarts
        | own _ hown =>
          cases hown with
          | call hph =>
            rw [hph] at hsame
            cases hsame
          | enterLoop _ | leaveLoop _ | poll _ | pollReturns _ | readWakeup _ | handle _
          | handlerReturns _ | beginFunctors _ | swap _ | functorReturns _ | endFunctors _
          | queue _ | quit _ => cases hstarts
    exact h.runs hidle hs hstarts hex
  | @addTimer timer _ _ queue queue' hc hi =>
    have hfree : ¬s.queue.Live timer := by
      cases TimerQueue.step_ends hc with
      | create hfree => exact hfree
    refine ⟨h.fifo, h.insertable.queueStep fun timer' hc' => ?_, ?_⟩
    · apply TimerQueue.created_step hi (TimerQueue.created_step hc hc' (by simp))
      intro heq
      cases heq
      exact hfree (.inl hc')
    · show queue'.phase = .idle ∨ s.loop.phase.isHandling = true
      rw [queue_phase_step hi rfl, queue_phase_step hc rfl]
      exact h.inHandler
  | eraseTimer hs =>
    have hq := h.queueStep hs (by simp) (.inl (queue_phase_step hs rfl))
    exact ⟨hq.fifo, hq.insertable, hq.inHandler⟩
  | @onTimerfdRead a queue hstage hin hs =>
    have hq := h.queueStep hs (by rintro timer rfl; cases hstage) (.inr hin)
    exact ⟨hq.fifo, hq.insertable, hq.inHandler⟩
  | @clock a queue hpassage hs =>
    refine h.queueStep hs (by rintro timer rfl; cases hpassage) (.inl (queue_phase_step hs ?_))
    cases a with
    | tick _ | holdUp _ | expire => rfl
    | create _ _ _ | insert _ | erase _ | read | next | callbackReturns | sync => cases hpassage
  | make hc =>
    have hq := h.queueStep hc (by simp) (.inl (queue_phase_step hc rfl))
    exact ⟨hq.fifo, h.insertable.make hc _ _, hq.inHandler⟩
  | @queueAdd t timer timerId loop hadd hs =>
    have hw := h.waitingAdds_step hs
    rw [hother (by simp), List.filterMap_nil, List.nil_append] at hw
    refine ⟨h.fifo.step hs, ?_, ?_⟩
    · show Insertable s.queue (loop.waiting.filterMap TimerFunctor.adds) _
      rw [hw]
      exact h.insertable.push hadd
    · show s.queue.phase = .idle ∨ loop.phase.isHandling = true
      rw [loop_phase_step hs (by simp)]
      exact h.inHandler
  | addReturns _ => exact ⟨h.fifo, h.insertable.setAdding _ (by simp), h.inHandler⟩
  | queueErase hs | queueOther hs | wakeup hs | quit hs | quitWakeup hs =>
    exact h.loopStep hs (hother (by simp)) rfl (.inr (loop_phase_step hs (by simp)))

/-- **Whenever the loop thread starts a functor, the functor runs.** -/
theorem functor_runs {now : Int} {s : TimerLoop T} (h : (timerLoop now T).Reachable s)
    {loop : EventLoop TimerFunctor T} (hs : s.loop.step (.own .call) = some loop) :
    ∃ s', s.step (.own .call) = some s' := by
  have hinit : (timerLoop now T).init.Ready :=
    ⟨rfl, ⟨fun _ ht => (by cases ht), List.nodup_nil, fun hadd => (by cases hadd),
      fun hadd => (by cases hadd)⟩, .inl rfl⟩
  have hready : s.Ready := h.invariant hinit fun s l s' hI _ hs => hI.step hs
  obtain ⟨f, functors, hph⟩ : ∃ f functors, s.loop.phase = .running (f :: functors) := by
    cases EventLoop.step_ends hs with
    | own _ hown =>
      cases hown with
      | call hph => exact ⟨_, _, hph⟩
  have hidle : s.queue.phase = .idle := by
    rcases hready.inHandler with hidle | hin
    · exact hidle
    · rw [hph] at hin
      cases hin
  have hstarts : s.loop.starts (.own .call) = [f] := by
    simp [EventLoop.starts, hph, LoopPhase.batch]
  have hstep : s.step (.own .call) = { s with loop := loop }.execute f := by
    simp [TimerLoop.step, ownStep, OwnStep.allowedIn, hidle, hs, hstarts]
  rw [hstep]
  cases f with
  | addTimer timer =>
    have hc : timer ∈ s.queue.created := by
      apply hready.insertable.created
      simp [waitingAdds, EventLoop.waiting, hph, LoopPhase.batch, TimerFunctor.adds]
    simp [execute, TimerQueue.step, hidle, QueuePhase.runsFunctors, hc]
  | eraseTimer timerId afterReturn =>
    simp [execute, TimerQueue.step, hidle, QueuePhase.runsFunctors]
  | other => exact ⟨_, rfl⟩

end TimerLoop

end Tudou
