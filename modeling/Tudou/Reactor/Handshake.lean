import Tudou.Reactor.EventLoopThread

/-!
# The handshake of `EventLoopThread`

Whatever the constructing thread, `thread_func` and the callers of the loop do and in whatever order,
if nobody calls `quit()` before the constructor has returned.

* `Sound` — the invariant: who holds `loopMutex_`, when `loop_` is set, and what the loop knows of
  `quit()`.
* `Sound.gets_through` — the constructor returns, and the destructor gets to `join()`.
* `Sound.joins` — and from there it returns.
* `handshake` — **the constructor does not wait for a notification it has missed and returns with a
  live loop, and no quit is lost**.
-/

namespace Tudou

open Transition

namespace EventLoopThread

variable {F T : Type*} [DecidableEq T]

/-! ## The state of the handshake -/

/-- Nobody calls `quit()` before the constructor has returned, the init callback included. -/
def QuitsAfterConstruction (s : EventLoopThread F T) : HandshakeStep F T → Prop
  | .loop l => l.quits = true → s.owner.isConstructed = true
  | _ => True

instance (s : EventLoopThread F T) (a : HandshakeStep F T) : Decidable (s.QuitsAfterConstruction a) := by
  unfold QuitsAfterConstruction
  cases a with
  | loop l => exact inferInstanceAs (Decidable (_ → _))
  | _ => exact inferInstanceAs (Decidable True)

/-- Where the two threads can be, and what the loop knows of `quit()`. -/
structure Sound (s : EventLoopThread F T) : Prop where
  mutex : s.owner.holdsMutex = true → s.thread.holdsMutex = false
  started : s.owner = .starting ↔ s.thread = .unstarted
  loop : s.loop.isSome = s.thread.hasLoop
  asleep : s.owner = .asleep → s.thread.willNotify = true
  fresh : s.owner.isConstructed = false →
    s.thread.hasLeft = false ∧ ∀ l, s.loop = some l → l.isQuit = false
  constructed : s.owner.isConstructed = true → s.thread.isInitialized = true
  heeds : ∀ l, s.loop = some l → l.HeedsQuit
  waking : s.owner = .waking → s.loop.isSome = true
  asked : s.owner.hasQuit = true → ∀ l, s.loop = some l → l.isQuit = true
  callers : ∀ l, s.loop = some l →
    l.queueCalls none = 0 ∧ l.quitCalls none = if s.owner = .waking then 1 else 0

theorem sound_create : (create : EventLoopThread F T).Sound where
  mutex h := by cases h
  started := iff_of_true rfl rfl
  loop := rfl
  asleep h := by cases h
  fresh _ := ⟨rfl, fun _ h => by cases h⟩
  constructed h := by cases h
  heeds _ h := by cases h
  waking h := by cases h
  asked h := by cases h
  callers _ h := by cases h

theorem Sound.hasStarted {s : EventLoopThread F T} (h : s.Sound) {owner : OwnerPhase}
    (ho : s.owner = owner) (hne : owner ≠ .starting) : s.thread ≠ .unstarted :=
  fun ht => hne (ho.symm.trans (h.started.mpr ht))

/-- A step of the owner that leaves the loop alone. -/
theorem Sound.moveOwner {s : EventLoopThread F T} (h : s.Sound) {owner : OwnerPhase}
    (hmutex : owner.holdsMutex = true → s.thread.holdsMutex = false)
    (hstarted : owner ≠ .starting) (hunstarted : s.thread ≠ .unstarted)
    (hasleep : owner = .asleep → s.thread.willNotify = true)
    (hfresh : owner.isConstructed = false → s.owner.isConstructed = false)
    (hconstructed : owner.isConstructed = true → s.thread.isInitialized = true)
    (hwaking : owner ≠ .waking) (hawake : s.owner ≠ .waking)
    (hasked : owner.hasQuit = true → ∀ l, s.loop = some l → l.isQuit = true) :
    ({ s with owner := owner } : EventLoopThread F T).Sound where
  mutex := hmutex
  started := iff_of_false hstarted hunstarted
  loop := h.loop
  asleep := hasleep
  fresh ho := h.fresh (hfresh ho)
  constructed := hconstructed
  heeds := h.heeds
  waking ho := absurd ho hwaking
  asked := hasked
  callers l hl := by
    obtain ⟨hcalls, hquits⟩ := h.callers l hl
    rw [if_neg hawake] at hquits
    exact ⟨hcalls, hquits.trans (if_neg hwaking).symm⟩

theorem Sound.goOn {s : EventLoopThread F T} (h : s.Sound) {owner owner' : OwnerPhase}
    (ho : s.owner = owner) (hgo : owner.GoesOn owner')
    (hmutex : owner'.holdsMutex = true → s.thread.holdsMutex = false) :
    ({ s with owner := owner' } : EventLoopThread F T).Sound := by
  subst ho
  obtain ⟨hne, hne', hawake, hawake', hasleep, hconstructed, hquit⟩ := hgo
  exact h.moveOwner hmutex hne' (h.hasStarted rfl hne) (fun hw => absurd hw hasleep)
    (fun hc => hconstructed ▸ hc) (fun hc => h.constructed (hconstructed ▸ hc)) hawake' hawake
    (fun hq => h.asked (hquit hq))

/-- A step of `thread_func` that leaves the loop alone. -/
theorem Sound.moveThread {s : EventLoopThread F T} (h : s.Sound) {thread thread' : ThreadPhase}
    (ht : s.thread = thread) (hgo : thread.GoesOn thread')
    (hmutex : s.owner.holdsMutex = true → thread'.holdsMutex = false)
    (hasleep : s.owner = .asleep → thread'.willNotify = true)
    (hfresh : s.owner.isConstructed = false → thread'.hasLeft = false) :
    ({ s with thread := thread' } : EventLoopThread F T).Sound := by
  subst ht
  obtain ⟨hunstarted, hstarted, hloop, hinitialized⟩ := hgo
  exact {
    mutex := hmutex
    started := iff_of_false (fun ho => hunstarted (h.started.mp ho)) hstarted
    loop := h.loop.trans hloop
    asleep := hasleep
    fresh := fun ho => ⟨hfresh ho, (h.fresh ho).2⟩
    constructed := fun ho => hinitialized (h.constructed ho)
    heeds := h.heeds
    waking := h.waking
    asked := h.asked
    callers := h.callers }

/-- The constructor has returned, so `thread_func` is past its first block. -/
theorem Sound.initialized {s : EventLoopThread F T} (h : s.Sound) {owner : OwnerPhase}
    (ho : s.owner = owner) (hc : owner.isConstructed = true) : s.thread.isInitialized = true :=
  h.constructed (ho ▸ hc)

omit [DecidableEq T] in
theorem allows_caller {s : EventLoopThread F T} {a : LoopLabel F (Option T)}
    (h : s.allows a = true) : a.caller ≠ some none := by
  cases a with
  | own _ => exact fun ht => (by cases ht)
  | queue t _ | wakeup t | quit t | quitWakeup t =>
    intro ht
    cases ht
    cases h

/-- A call into the loop by another thread than the destructor's. -/
theorem Sound.onLoop {s : EventLoopThread F T} (h : s.Sound) {a : LoopLabel F (Option T)}
    {l l' : EventLoop F (Option T)} (hl : s.loop = some l) (hg : s.QuitsAfterConstruction (.loop a))
    (ha : s.allows a = true) (hs : l.step a = some l') :
    ({ s with loop := some l' } : EventLoopThread F T).Sound where
  mutex := h.mutex
  started := h.started
  loop := by rw [← h.loop, hl]; rfl
  asleep := h.asleep
  fresh ho := by
    refine ⟨(h.fresh ho).1, fun _ h' => ?_⟩
    cases h'
    have hquits : a.quits = false := by
      cases hq : a.quits with
      | false => rfl
      | true => exact absurd (hg hq) (by rw [ho]; exact Bool.false_ne_true)
    rw [EventLoop.isQuit_of_step hs hquits]
    exact (h.fresh ho).2 l hl
  constructed := h.constructed
  heeds _ h' := by cases h'; exact (h.heeds l hl).step hs
  waking _ := rfl
  asked hq _ h' := by cases h'; exact EventLoop.isQuit_step hs (h.asked hq l hl)
  callers _ h' := by
    cases h'
    obtain ⟨hcalls, hquits⟩ := EventLoop.calls_step hs (allows_caller ha)
    rw [hcalls, hquits]
    exact h.callers l hl

/-- A call into the loop by the destructor, which has the mutex. -/
theorem Sound.callLoop {s : EventLoopThread F T} (h : s.Sound) {a : LoopLabel F (Option T)}
    {l l' : EventLoop F (Option T)} {owner : OwnerPhase} (hmutex : s.owner.holdsMutex = true)
    (hc : s.owner.isConstructed = true) (hc' : owner.isConstructed = true) (hl : s.loop = some l)
    (hs : l.step a = some l') (hquit : l'.isQuit = true)
    (hcalls : l'.queueCalls none = 0 ∧ l'.quitCalls none = if owner = .waking then 1 else 0) :
    ({ s with owner := owner, loop := some l' } : EventLoopThread F T).Sound where
  mutex _ := h.mutex hmutex
  started := by
    refine iff_of_false ?_ fun ht => ?_
    · rintro rfl
      cases hc'
    · rw [h.started.mpr ht] at hc
      cases hc
  loop := by rw [← h.loop, hl]; rfl
  asleep := by
    rintro rfl
    cases hc'
  fresh hf := by
    rw [hc'] at hf
    cases hf
  constructed _ := h.constructed hc
  heeds _ h' := by cases h'; exact (h.heeds l hl).step hs
  waking _ := rfl
  asked _ _ h' := by cases h'; exact hquit
  callers _ h' := by cases h'; exact hcalls

/-- The store of `quit()` in the destructor, -/
theorem Sound.quit {s : EventLoopThread F T} (h : s.Sound) {l l' : EventLoop F (Option T)}
    (ho : s.owner = .quitting) (hl : s.loop = some l) (hs : l.step (.quit none) = some l') :
    ({ s with owner := .waking, loop := some l' } : EventLoopThread F T).Sound := by
  obtain ⟨hquit, hqueue, hquits'⟩ := EventLoop.quit_calls hs
  obtain ⟨hcalls, hquits⟩ := h.callers l hl
  rw [if_neg (by rw [ho]; decide)] at hquits
  refine h.callLoop (by rw [ho]; rfl) (by rw [ho]; rfl) rfl hl hs hquit ⟨hqueue.trans hcalls, ?_⟩
  rw [hquits', hquits]
  rfl

/-- and its wakeup. -/
theorem Sound.wakeup {s : EventLoopThread F T} (h : s.Sound) {l l' : EventLoop F (Option T)}
    (ho : s.owner = .waking) (hl : s.loop = some l) (hs : l.step (.quitWakeup none) = some l') :
    ({ s with owner := .unlocking, loop := some l' } : EventLoopThread F T).Sound := by
  obtain ⟨hqueue, hquits'⟩ := EventLoop.quitWakeup_calls hs
  obtain ⟨hcalls, hquits⟩ := h.callers l hl
  have hquit := EventLoop.isQuit_step hs (h.asked (by rw [ho]; rfl) l hl)
  rw [if_pos ho] at hquits
  refine h.callLoop (by rw [ho]; rfl) (by rw [ho]; rfl) rfl hl hs hquit ⟨hqueue.trans hcalls, ?_⟩
  rw [hquits', hquits]
  rfl

/-- `loop_` is set. -/
theorem Sound.createLoop {s : EventLoopThread F T} (h : s.Sound) (ht : s.thread = .creating) :
    ({ s with thread := .initializing, loop := some .create } : EventLoopThread F T).Sound := by
  have hearly : s.owner.isConstructed ≠ true := by
    intro hc
    have hinitialized := h.constructed hc
    rw [ht] at hinitialized
    cases hinitialized
  refine ⟨fun hm => ?_, iff_of_false (fun ho => ?_) (fun hn => (by cases hn)), rfl, fun _ => rfl,
    fun _ => ⟨rfl, fun _ h' => (by cases h'; rfl)⟩, fun hc => absurd hc hearly,
    fun _ h' => (by cases h'; exact EventLoop.heedsQuit_create), fun _ => rfl,
    fun hq => absurd (OwnerPhase.isConstructed_of_hasQuit hq) hearly, fun _ h' => ?_⟩
  · have hmutex := h.mutex hm
    rw [ht] at hmutex
    cases hmutex
  · have hunstarted := h.started.mp ho
    rw [ht] at hunstarted
    cases hunstarted
  · cases h'
    have hawake : s.owner ≠ .waking := fun ho => hearly (by rw [ho]; rfl)
    exact ⟨rfl, (if_neg hawake).symm⟩

/-- `loop_` is reset. -/
theorem Sound.resetLoop {s : EventLoopThread F T} (h : s.Sound) (ht : s.thread = .resetting) :
    ({ s with thread := .done, loop := none } : EventLoopThread F T).Sound := by
  refine ⟨fun _ => rfl, iff_of_false (fun ho => ?_) (fun hn => (by cases hn)), rfl, fun hw => ?_, fun hc => ?_,
    fun _ => rfl, fun _ h' => (by cases h'), fun hw => ?_, fun _ _ h' => (by cases h'),
    fun _ h' => (by cases h')⟩
  · have hunstarted := h.started.mp ho
    rw [ht] at hunstarted
    cases hunstarted
  · have hnotify := h.asleep hw
    rw [ht] at hnotify
    cases hnotify
  · have hleft := (h.fresh hc).1
    rw [ht] at hleft
    cases hleft
  · -- the destructor has the mutex in `quit()`
    have hmutex := h.mutex (by rw [show s.owner = .waking from hw]; rfl)
    rw [ht] at hmutex
    cases hmutex

/-- The thread is started. -/
theorem Sound.startThread {s : EventLoopThread F T} (h : s.Sound) (ho : s.owner = .starting) :
    ({ s with owner := .locking, thread := .starting } : EventLoopThread F T).Sound := by
  have ht : s.thread = .unstarted := h.started.mp ho
  refine ⟨fun hm => (by cases hm), by simp, ?_, fun hw => (by cases hw), fun _ => ⟨rfl, ?_⟩,
    fun hc => (by cases hc), h.heeds, fun hw => (by cases hw), fun hq => (by cases hq), ?_⟩
  · rw [h.loop, ht]
    rfl
  · exact (h.fresh (by rw [ho]; rfl)).2
  · intro l hl
    obtain ⟨hcalls, hquits⟩ := h.callers l hl
    rw [ho] at hquits
    exact ⟨hcalls, hquits⟩

/-- Where the constructor finds `loop_` set, the thread that set it has given the mutex back, -/
theorem Sound.initialized_of_loop {s : EventLoopThread F T} (h : s.Sound) (ho : s.owner = .checking)
    {l : EventLoop F (Option T)} (hl : s.loop = some l) : s.thread.isInitialized = true := by
  have hloop := h.loop
  have hmutex := h.mutex (by rw [ho]; rfl)
  rw [hl] at hloop
  cases ht : s.thread with
  | initializing => rw [ht] at hmutex; cases hmutex
  | notifying | looping | leaving | resetting | done => rfl
  | unstarted | starting | creating => rw [ht] at hloop; cases hloop

/-- and where it does not, `loop_` has not been set before. -/
theorem Sound.willNotify_of_none {s : EventLoopThread F T} (h : s.Sound) (ho : s.owner = .checking)
    (hl : s.loop = none) : s.thread.willNotify = true := by
  have hloop := h.loop
  have hleft := (h.fresh (by rw [ho]; rfl)).1
  rw [hl] at hloop
  cases ht : s.thread with
  | starting | creating | initializing | notifying => rfl
  | unstarted => exact absurd ht (h.hasStarted ho (by decide))
  | looping => rw [ht] at hloop; cases hloop
  | leaving | resetting | done => rw [ht] at hleft; cases hleft

/-- The loop has returned: it was told to quit, so the constructor has returned. -/
theorem Sound.constructed_of_returned {s : EventLoopThread F T} (h : s.Sound)
    {l : EventLoop F (Option T)} (hl : s.loop = some l) (hphase : l.phase = .returned) :
    s.owner.isConstructed = true := by
  have hquit := (h.heeds l hl).returned hphase
  cases hc : s.owner.isConstructed with
  | true => rfl
  | false =>
    rw [(h.fresh hc).2 l hl] at hquit
    cases hquit

/-- **Step lemma.** -/
theorem Sound.step {s s' : EventLoopThread F T} {a : HandshakeStep F T} (h : s.Sound)
    (hg : s.QuitsAfterConstruction a) (hs : StepEnds s a s') : s'.Sound := by
  cases hs with
  | startThread ho => exact h.startThread ho
  | lock ho hfree => exact h.goOn ho (by decide) fun _ => (Bool.or_eq_false_iff.mp hfree).2
  | lockAgain ho hfree => exact h.goOn ho (by decide) fun _ => (Bool.or_eq_false_iff.mp hfree).2
  | returns ho hl =>
    exact h.moveOwner (fun hm => (by cases hm)) (by decide) (h.hasStarted ho (by decide))
      (fun hw => (by cases hw)) (fun hc => (by cases hc)) (fun _ => h.initialized_of_loop ho hl)
      (by decide) (by rw [ho]; decide) (fun hq => (by cases hq))
  | waits ho hl =>
    exact h.moveOwner (fun hm => (by cases hm)) (by decide) (h.hasStarted ho (by decide))
      (fun _ => h.willNotify_of_none ho hl) (fun _ => by rw [ho]; rfl) (fun hc => (by cases hc))
      (by decide) (by rw [ho]; decide) (fun hq => (by cases hq))
  | spuriousWakeup ho | destroy ho | unlock ho | join ho _ =>
    exact h.goOn ho (by decide) fun hm => (by cases hm)
  | quit ho hl hs => exact h.quit ho hl hs
  | gone ho hl =>
    exact h.moveOwner (fun _ => h.mutex (by rw [ho]; rfl)) (by decide) (h.hasStarted ho (by decide))
      (fun hw => (by cases hw)) (fun hc => (by cases hc)) (fun _ => h.initialized ho rfl)
      (by decide) (by rw [ho]; decide) (fun _ l hl' => by rw [hl] at hl'; cases hl')
  | wakeup ho hl hs => exact h.wakeup ho hl hs
  | threadLock ht hfree =>
    refine h.moveThread ht (by decide) (fun hm => ?_) (fun _ => rfl) fun _ => rfl
    rw [(Bool.or_eq_false_iff.mp hfree).1] at hm
    cases hm
  | threadLockAgain ht hfree =>
    refine h.moveThread ht (by decide) (fun hm => ?_) (fun hw => ?_) fun hc => ?_
    · rw [(Bool.or_eq_false_iff.mp hfree).1] at hm
      cases hm
    · have hnotify := h.asleep hw
      rw [ht] at hnotify
      cases hnotify
    · have hleft := (h.fresh hc).1
      rw [ht] at hleft
      cases hleft
  | createLoop ht => exact h.createLoop ht
  | initReturns ht => exact h.moveThread ht (by decide) (fun _ => rfl) (fun _ => rfl) fun _ => rfl
  | notifies ht ho =>
    have hawake : ({ s with owner := .locking } : EventLoopThread F T).Sound :=
      h.goOn ho (by decide) fun hm => (by cases hm)
    exact hawake.moveThread ht (by decide) (fun _ => rfl) (fun hw => (by cases hw)) fun _ => rfl
  | notifiesNobody ht ho =>
    exact h.moveThread ht (by decide) (fun _ => rfl) (fun hw => absurd hw ho) fun _ => rfl
  | loopReturns ht hl hphase =>
    have hconstructed := h.constructed_of_returned hl hphase
    refine h.moveThread ht (by decide) (fun _ => rfl) (fun hw => ?_) fun hc => ?_
    · rw [hw] at hconstructed
      cases hconstructed
    · rw [hconstructed] at hc
      cases hc
  | resetLoop ht => exact h.resetLoop ht
  | loop hl ha hs => exact h.onLoop hl hg ha hs

omit [DecidableEq T] in
theorem quitsAfterConstruction_of_isConstructed {s : EventLoopThread F T}
    (h : s.owner.isConstructed = true) (a : HandshakeStep F T) : s.QuitsAfterConstruction a := by
  cases a with
  | loop l => exact fun _ => h
  | startThread | lock | check | spuriousWakeup | destroy | quit | wakeup | unlock | join | threadLock
  | createLoop | initReturns | notify | loopReturns | resetLoop => trivial

omit [DecidableEq T] in
theorem quitsAfterConstruction_of_isHandshake {s : EventLoopThread F T} {a : HandshakeStep F T}
    (h : a.isHandshake = true) : s.QuitsAfterConstruction a := by
  cases a with
  | loop _ => cases h
  | startThread | lock | check | spuriousWakeup | destroy | quit | wakeup | unlock | join | threadLock
  | createLoop | initReturns | notify | loopReturns | resetLoop => trivial

/-! ## The waits -/

/-- The order of the handshake: first what `thread_func` has left to do. -/
def handshakeRank (s : EventLoopThread F T) : Nat × Nat := (s.thread.remaining, s.owner.remaining)

/-- Who holds the mutex in `thread_func` can go on. -/
theorem exists_unlocks {s : EventLoopThread F T} (h : s.thread.holdsMutex = true) :
    ∃ a s', a.isHandshake = true ∧ s.step a = some s' := by
  cases ht : s.thread with
  | creating => exact ⟨.createLoop, _, rfl, if_pos ht⟩
  | initializing => exact ⟨.initReturns, _, rfl, if_pos ht⟩
  | resetting => exact ⟨.resetLoop, _, rfl, if_pos ht⟩
  | unstarted | starting | notifying | looping | leaving | done => rw [ht] at h; cases h

/-- A wait for the mutex. -/
theorem exists_locks {s : EventLoopThread F T} (ho : s.owner = .locking ∨ s.owner = .destroying) :
    ∃ a s', a.isHandshake = true ∧ s.step a = some s' := by
  cases hmutex : s.thread.holdsMutex with
  | true => exact exists_unlocks hmutex
  | false =>
    rcases ho with ho | ho
    · have hfree : s.isLocked = false := by rw [isLocked, ho, hmutex]; rfl
      exact ⟨.lock, { s with owner := .checking }, rfl, by simp [step, hfree, ho]⟩
    · have hfree : s.isLocked = false := by rw [isLocked, ho, hmutex]; rfl
      exact ⟨.lock, { s with owner := .quitting }, rfl, by simp [step, hfree, ho]⟩

/-- The wait for the notification. -/
theorem Sound.exists_notifies {s : EventLoopThread F T} (h : s.Sound) (ho : s.owner = .asleep) :
    ∃ a s', a.isHandshake = true ∧ s.step a = some s' := by
  have hnotify := h.asleep ho
  cases ht : s.thread with
  | starting =>
    have hfree : s.isLocked = false := by rw [isLocked, ho, ht]; rfl
    exact ⟨.threadLock, { s with thread := .creating }, rfl, by simp [EventLoopThread.step, hfree, ht]⟩
  | creating => exact ⟨.createLoop, _, rfl, if_pos ht⟩
  | initializing => exact ⟨.initReturns, _, rfl, if_pos ht⟩
  | notifying => exact ⟨.notify, _, rfl, if_pos ht⟩
  | unstarted | looping | leaving | resetting | done => rw [ht] at hnotify; cases hnotify

/-- The call of `quit()` in the destructor, -/
theorem Sound.exists_quits {s : EventLoopThread F T} (h : s.Sound) (ho : s.owner = .quitting) :
    ∃ s', s.step .quit = some s' := by
  cases hl : s.loop with
  | none => exact ⟨{ s with owner := .unlocking }, by simp [EventLoopThread.step, ho, hl]⟩
  | some l =>
    obtain ⟨hcalls, hquits⟩ := h.callers l hl
    rw [if_neg (by rw [ho]; decide)] at hquits
    obtain ⟨l', hs⟩ := EventLoop.exists_quit hcalls hquits
    refine ⟨{ s with owner := .waking, loop := some l' }, ?_⟩
    simp [EventLoopThread.step, EventLoopThread.onLoop, ho, hl, hs]

/-- and the rest of it. -/
theorem Sound.exists_wakes {s : EventLoopThread F T} (h : s.Sound) (ho : s.owner = .waking) :
    ∃ s', s.step .wakeup = some s' := by
  obtain ⟨l, hl⟩ := Option.isSome_iff_exists.mp (h.waking ho)
  have hquits := (h.callers l hl).2
  rw [if_pos ho] at hquits
  obtain ⟨l', hs⟩ := EventLoop.exists_quitWakeup (by rw [hquits]; exact Nat.one_ne_zero)
  refine ⟨{ s with owner := .unlocking, loop := some l' }, ?_⟩
  simp [EventLoopThread.step, EventLoopThread.onLoop, ho, hl, hs]

/-- **Neither the constructor nor the destructor is stuck** before `join()`. -/
theorem Sound.exists_handshake {s : EventLoopThread F T} (h : s.Sound) (ho : s.owner.isBusy = true) :
    ∃ a s', a.isHandshake = true ∧ s.step a = some s' := by
  cases howner : s.owner with
  | starting => exact ⟨.startThread, _, rfl, if_pos howner⟩
  | locking => exact exists_locks (.inl howner)
  | checking => exact ⟨.check, _, rfl, if_pos howner⟩
  | asleep => exact h.exists_notifies howner
  | destroying => exact exists_locks (.inr howner)
  | quitting =>
    obtain ⟨s', hs⟩ := h.exists_quits howner
    exact ⟨.quit, s', rfl, hs⟩
  | waking =>
    obtain ⟨s', hs⟩ := h.exists_wakes howner
    exact ⟨.wakeup, s', rfl, hs⟩
  | unlocking => exact ⟨.unlock, _, rfl, if_pos howner⟩
  | constructed | joining | destroyed => rw [howner] at ho; cases ho

/-- Each step of the handshake is the last of the owner's, or leaves less to do. -/
theorem Sound.handshakeRank_step {s s' : EventLoopThread F T} {a : HandshakeStep F T} (h : s.Sound)
    (ho : s.owner.isBusy = true) (ha : a.isHandshake = true) (hs : StepEnds s a s') :
    s'.owner.isBusy = false ∨
      Prod.Lex (· < ·) (· < ·) s'.handshakeRank s.handshakeRank := by
  cases hs with
  | startThread howner =>
    have ht := h.started.mp howner
    exact .inr (.left _ _ (by rw [ht]; simp [ThreadPhase.remaining]))
  | lock howner _ | lockAgain howner _ | waits howner _ | quit howner _ _ | gone howner _
  | wakeup howner _ _ => exact .inr (.right _ (by rw [howner]; simp [OwnerPhase.remaining]))
  | returns _ _ | unlock _ | join _ _ => exact .inl rfl
  | destroy howner => rw [howner] at ho; cases ho
  | threadLock ht _ | threadLockAgain ht _ | createLoop ht | initReturns ht | notifies ht _
  | notifiesNobody ht _ | loopReturns ht _ _ | resetLoop ht =>
    exact .inr (.left _ _ (by rw [ht]; simp [ThreadPhase.remaining]))
  | spuriousWakeup _ | loop _ _ _ => cases ha

/-- **The constructor returns, and the destructor gets to `join()`**: every run of handshake steps ends
there. -/
theorem Sound.gets_through {s : EventLoopThread F T} (h : s.Sound) :
    (eventLoopThread F T).Inevitable (fun _ a => a.isHandshake = true)
      (fun s => s.owner.isBusy = false) s := by
  refine System.Inevitable.of_decreasing (I := Sound) (Prod.lex Nat.lt_wfRel Nat.lt_wfRel).wf
    handshakeRank (fun s h ho => ?_) (fun s a s' h ho ha hs => ?_) h
  · exact h.exists_handshake (Bool.not_eq_false _ ▸ ho)
  · have hends := step_ends hs
    have hsound := h.step (quitsAfterConstruction_of_isHandshake ha) hends
    rcases h.handshakeRank_step (Bool.not_eq_false _ ▸ ho) ha hends with hthrough | hlt
    · exact .inl hthrough
    · exact .inr ⟨hsound, hlt⟩

/-! ## The join -/

/-- Steps for which nobody else is needed. -/
def Unaided (s : EventLoopThread F T) : HandshakeStep F T → Prop
  | .loop a => ∀ l, s.loop = some l → l.Unaided a
  | .spuriousWakeup => False
  | _ => True

/-- What `thread_func` has left to do, with the steps of `loop()`. -/
def joinRank (s : EventLoopThread F T) : Nat × (Nat × Nat) × Nat :=
  (s.thread.remaining, (s.loop.map EventLoop.rank).getD ((0, 0), 0))

/-- A caller of `quit()` that is not the destructor can go on. -/
theorem Sound.allows_quitting {s : EventLoopThread F T} (h : s.Sound) (ho : s.owner = .joining)
    (ht : s.thread = .looping) {l : EventLoop F (Option T)} (hl : s.loop = some l)
    {a : LoopLabel F (Option T)} (hcaller : ∀ t, a.caller = some t → t ∈ l.quitting) :
    s.allows a = true := by
  have hquits := (h.callers l hl).2
  rw [if_neg (by rw [ho]; decide), EventLoop.quitCalls_eq_zero] at hquits
  cases a with
  | own _ =>
    unfold allows
    rw [ht]
  | queue t _ | wakeup t | quit t | quitWakeup t =>
    cases t with
    | none => exact absurd (hcaller none rfl) hquits
    | some _ => rfl

/-- **The loop thread is not stuck** while the destructor joins it. -/
theorem Sound.exists_unaided {s : EventLoopThread F T} (h : s.Sound) (ho : s.owner = .joining) :
    ∃ a s', s.Unaided a ∧ s.step a = some s' := by
  have hinitialized := h.initialized ho rfl
  cases ht : s.thread with
  | unstarted | starting | creating | initializing => rw [ht] at hinitialized; cases hinitialized
  | notifying => exact ⟨.notify, _, trivial, if_pos ht⟩
  | looping =>
    obtain ⟨l, hl⟩ := Option.isSome_iff_exists.mp (h.loop.trans (by rw [ht]; rfl))
    by_cases hphase : l.phase = .returned
    · have hreturned : s.loop.any (·.phase.hasReturned) = true := by
        rw [hl]
        exact LoopPhase.hasReturned_iff.mpr hphase
      exact ⟨.loopReturns, _, trivial, if_pos ⟨ht, hreturned⟩⟩
    · obtain ⟨a, l', ha, hs, hcaller⟩ :=
        (h.heeds l hl).exists_unaided (h.asked (by rw [ho]; rfl) l hl) hphase
      have hallows := h.allows_quitting ho ht hl hcaller
      refine ⟨.loop a, { s with loop := some l' }, fun l₁ hl₁ => ?_, ?_⟩
      · cases hl.symm.trans hl₁
        exact ha
      · exact (if_pos hallows).trans (onLoop_eq_some.mpr ⟨l, l', hl, hs, rfl⟩)
  | leaving =>
    have hfree : s.isLocked = false := by rw [isLocked, ho, ht]; rfl
    exact ⟨.threadLock, { s with thread := .resetting }, trivial,
      by simp [EventLoopThread.step, hfree, ht]⟩
  | resetting => exact ⟨.resetLoop, _, trivial, if_pos ht⟩
  | done => exact ⟨.join, _, trivial, if_pos ⟨ho, ht⟩⟩

/-- Each step is the join, or leaves less to do. -/
theorem Sound.joinRank_step {s s' : EventLoopThread F T} {a : HandshakeStep F T} (h : s.Sound)
    (ho : s.owner = .joining) (ha : s.Unaided a) (hs : StepEnds s a s') :
    s'.owner = .destroyed ∨
      s'.owner = .joining ∧ Prod.Lex (· < ·) EventLoop.RankLt s'.joinRank s.joinRank := by
  cases hs with
  | startThread howner | lock howner _ | lockAgain howner _ | returns howner _ | waits howner _
  | spuriousWakeup howner | destroy howner | quit howner _ _ | gone howner _ | wakeup howner _ _
  | unlock howner | notifies _ howner => rw [ho] at howner; cases howner
  | join _ _ => exact .inl rfl
  | threadLock ht _ | threadLockAgain ht _ | createLoop ht | initReturns ht | notifiesNobody ht _
  | loopReturns ht _ _ | resetLoop ht =>
    exact .inr ⟨ho, .left _ _ (by rw [ht]; simp [ThreadPhase.remaining])⟩
  | @loop a l l' hl hallows hs =>
    refine .inr ⟨ho, ?_⟩
    have hlt := EventLoop.rank_step (h.asked (by rw [ho]; rfl) l hl) (ha l hl).not_call hs
    simp only [joinRank, hl, Option.map_some, Option.getD_some]
    exact .right _ hlt

/-- **The destructor returns from `join()`.** -/
theorem Sound.joins {s : EventLoopThread F T} (h : s.Sound) (ho : s.owner = .joining) :
    (eventLoopThread F T).Inevitable Unaided (fun s => s.owner = .destroyed) s := by
  refine System.Inevitable.of_decreasing (I := fun s => s.Sound ∧ s.owner = .joining)
    (Prod.lex Nat.lt_wfRel ⟨_, EventLoop.wellFounded_rankLt⟩).wf joinRank ?_ ?_ ⟨h, ho⟩
  · rintro s ⟨h, ho⟩ -
    exact h.exists_unaided ho
  · rintro s a s' ⟨h, ho⟩ - ha hs
    have hends := step_ends hs
    have hconstructed : s.owner.isConstructed = true := by rw [ho]; rfl
    rcases h.joinRank_step ho ha hends with hdone | ⟨ho', hlt⟩
    · exact .inl hdone
    · exact .inr ⟨⟨h.step (quitsAfterConstruction_of_isConstructed hconstructed a) hends, ho'⟩, hlt⟩

/-! ## The handshake -/

/-- `thread_func` has not left the loop, and the loop is not to quit. -/
def IsLive (s : EventLoopThread F T) : Prop :=
  s.thread.hasLeft = false ∧ ∃ l, s.loop = some l ∧ l.isQuit = false ∧ l.phase ≠ .returned

theorem Sound.isLive {s : EventLoopThread F T} (h : s.Sound) (ho : s.owner = .checking)
    {l : EventLoop F (Option T)} (hl : s.loop = some l) : s.IsLive := by
  obtain ⟨hleft, hfresh⟩ := h.fresh (by rw [ho]; rfl)
  refine ⟨hleft, l, hl, hfresh l hl, fun hphase => ?_⟩
  have hconstructed := h.constructed_of_returned hl hphase
  rw [ho] at hconstructed
  cases hconstructed

/-- What holds in every state of the handshake. -/
structure Handshake (s : EventLoopThread F T) : Prop where
  /-- The constructor does not begin to wait once the loop has been created, -/
  waits : ∀ a s', s.step a = some s' → s.owner ≠ .asleep → s'.owner = .asleep → s.loop = none
  /-- and where it waits the notification is still to come. -/
  notified : s.owner = .asleep → s.thread.willNotify = true
  /-- It returns with a live loop. -/
  returns : ∀ a s', s.step a = some s' → s.owner ≠ .constructed → s'.owner = .constructed → s'.IsLive
  /-- No quit is lost. -/
  heeds : ∀ l, s.loop = some l → ¬l.QuitLost
  /-- The constructor and the locked block of the destructor come to an end, -/
  ends : (eventLoopThread F T).Inevitable (fun _ a => a.isHandshake = true)
    (fun s => s.owner.isBusy = false) s
  /-- and so does the join. -/
  joins : s.owner = .joining →
    (eventLoopThread F T).Inevitable Unaided (fun s => s.owner = .destroyed) s

/-- **The handshake neither hangs nor loses a quit**, whatever the threads do and in whatever order. -/
theorem handshake {s : EventLoopThread F T}
    (h : (eventLoopThread F T).Reaches QuitsAfterConstruction s) : s.Handshake := by
  have hsound : s.Sound :=
    h.invariant sound_create fun _ _ _ hI hg hs => hI.step hg (step_ends hs)
  refine ⟨fun a s' hs hne ho => ?_, hsound.asleep, fun a s' hs hne ho => ?_,
    fun l hl => (hsound.heeds l hl).not_lost, hsound.gets_through, hsound.joins⟩
  · cases step_ends hs with
    | waits _ hl => exact hl
    | startThread _ | lock _ _ | lockAgain _ _ | returns _ _ | spuriousWakeup _ | destroy _
    | quit _ _ _ | gone _ _ | wakeup _ _ _ | unlock _ | join _ _ | notifies _ _ => cases ho
    | threadLock _ _ | threadLockAgain _ _ | createLoop _ | initReturns _ | notifiesNobody _ _
    | loopReturns _ _ _ | resetLoop _ | loop _ _ _ => exact absurd ho hne
  · cases step_ends hs with
    | returns howner hl => exact hsound.isLive howner hl
    | startThread _ | lock _ _ | lockAgain _ _ | waits _ _ | spuriousWakeup _ | destroy _
    | quit _ _ _ | gone _ _ | wakeup _ _ _ | unlock _ | join _ _ | notifies _ _ => cases ho
    | threadLock _ _ | threadLockAgain _ _ | createLoop _ | initReturns _ | notifiesNobody _ _
    | loopReturns _ _ _ | resetLoop _ | loop _ _ _ => exact absurd ho hne

/-- The constructor waits; the loop polls when another thread calls `quit()`, and its wakeup is still to
come when the destructor joins. -/
def quitBeforeDestruction : List (HandshakeStep Nat Nat) :=
  [.startThread, .lock, .check, .threadLock, .createLoop, .initReturns, .notify, .lock, .check,
    .loop (.own .enterLoop), .loop (.own .test), .loop (.quit (some 1)), .destroy, .lock, .quit,
    .wakeup, .unlock]

theorem handshake_quitBeforeDestruction :
    ∃ s ∈ (eventLoopThread Nat Nat).run (eventLoopThread Nat Nat).init quitBeforeDestruction,
      s.owner = .joining ∧ s.thread = .looping ∧ s.Handshake := by
  have hg : (eventLoopThread Nat Nat).Admits QuitsAfterConstruction (eventLoopThread Nat Nat).init
      quitBeforeDestruction := by
    decide
  obtain ⟨s, hs, ho, ht⟩ :
      ∃ s ∈ (eventLoopThread Nat Nat).run (eventLoopThread Nat Nat).init quitBeforeDestruction,
        s.owner = .joining ∧ s.thread = .looping := by
    decide
  exact ⟨s, hs, ho, ht, handshake (.of_run _ hs hg)⟩

end EventLoopThread

end Tudou
