import Tudou.Timer.Cancellation

/-!
# When timer callbacks start

The histories of a `TimerQueue` on its loop thread: adds and erases in any order, also from
callbacks, `on_timerfd_read` in its stages, and a clock that does not go back.

* `firingHistory` — the queue with the log of what was erased, started and finished.
* `FiringLaw` — what the log of a run says: no callback starts early, a one-shot timer fires once, a
  batch runs in the order of its expirations and each timer once, what is erased does not start, and a
  repeating timer waits its interval from the end of its callback.
* `firing_law` — **every history obeys the firing law, and every batch ends.**
-/

namespace Tudou

open Transition

/-- A callback that started: in which call of `on_timerfd_read`, when, and what its timer said. -/
structure Firing where
  timerId : Nat
  batch : Nat
  start : Int
  expiration : Int
  interval : Int
  deriving DecidableEq, Repr

inductive FiringEvent where
  /-- `erase_timer` had its effect, after that of the `add_timer` that gave the id. -/
  | erased (timerId : Nat)
  | started (f : Firing)
  | finished (timerId : Nat) (time : Int)
  deriving DecidableEq, Repr

/-- A queue, the calls of `on_timerfd_read` so far, and what happened, oldest first. -/
structure FiringHistory where
  queue : TimerQueue
  batches : Nat
  log : List FiringEvent

namespace TimerQueue

/-- What a step adds to the log. -/
def firingEvents (q q' : TimerQueue) (batches : Nat) : TimerStep → List FiringEvent
  | .erase timerId =>
    if timerId < q.nextTimerId ∧ ∀ timer ∈ q.created, (q.heap timer).id ≠ timerId then
      [.erased timerId]
    else []
  | .next =>
    match q'.phase with
    | .calling timer _ =>
      let t := q.heap timer
      [.started ⟨t.id, batches, q.clock, t.expiration, t.interval⟩]
    | _ => []
  | .callbackReturns =>
    match q.phase with
    | .calling timer _ => [.finished (q.heap timer).id q.clock]
    | _ => []
  | _ => []

end TimerQueue

namespace FiringHistory

def step (h : FiringHistory) (a : TimerStep) : Option FiringHistory :=
  (h.queue.step a).map fun q =>
    { queue := q
      batches := if a = .read then h.batches + 1 else h.batches
      log := h.log ++ h.queue.firingEvents q h.batches a }

end FiringHistory

/-- What an event allows of a later one. -/
def FiringEvent.Permits : FiringEvent → FiringEvent → Prop
  | .erased timerId, .started g => g.timerId ≠ timerId
  | .started f, .started g =>
    (g.timerId = f.timerId → 0 < f.interval) ∧
      (g.batch = f.batch → f.expiration ≤ g.expiration ∧ g.timerId ≠ f.timerId)
  | .finished timerId time, .started g =>
    g.timerId = timerId → time + g.interval * millisecond ≤ g.start
  | _, _ => True

/-- **The firing law.** -/
structure FiringLaw (log : List FiringEvent) : Prop where
  notEarly : ∀ f, .started f ∈ log → f.expiration ≤ f.start
  permitted : log.Pairwise FiringEvent.Permits

namespace QueuePhase

/-- The timers whose turn in the batch is still to come. -/
def upcoming : QueuePhase → List Nat
  | idle => []
  | running expiredTimers | calling _ expiredTimers => expiredTimers

theorem inHand_of_upcoming {phase : QueuePhase} {timer : Nat} (h : timer ∈ phase.upcoming) :
    timer ∈ phase.inHand := by
  cases phase with
  | idle => cases h
  | running _ => exact h
  | calling _ _ => exact List.mem_cons_of_mem _ h

end QueuePhase

namespace TimerQueue

/-! ## Batches end -/

theorem phase_eraseTimer (q : TimerQueue) (timerId : Nat) :
    (q.eraseTimer timerId).phase = q.phase := by
  unfold eraseTimer
  split
  · rfl
  · rfl

theorem phase_afterCallback (q : TimerQueue) (timer : Nat) (expiredTimers : List Nat) :
    (q.afterCallback timer expiredTimers).phase = .running expiredTimers := by
  unfold afterCallback
  simp only
  split
  · rfl
  · split
    · rfl
    · rfl

/-- Where a timer that is live after a step comes from. -/
inductive Survives (q q' : TimerQueue) (a : TimerStep) (timer : Nat) : Prop where
  | kept : q.Live timer → q'.heap timer = q.heap timer → Survives q q' a timer
  | rescheduled {expiredTimers : List Nat} : a = .callbackReturns →
      q.phase = .calling timer expiredTimers → q.Live timer →
      q'.heap timer = (q.heap timer).reschedule q.clock → Survives q q' a timer
  | fresh : ¬q.Live timer → (q'.heap timer).id = q.nextTimerId → timer ∉ q'.phase.inHand →
      Survives q q' a timer

theorem heap_createTimer_of_ne (q : TimerQueue) {timer timer' : Nat} (hne : timer ≠ timer')
    (expiration interval : Int) :
    (q.createTimer timer' expiration interval).heap timer = q.heap timer :=
  Function.update_of_ne hne _ _

theorem listed_of_afterCallback {q : TimerQueue} {timer timer' : Nat} {expiredTimers : List Nat}
    (hl : (q.afterCallback timer' expiredTimers).Listed timer) : q.Listed timer := by
  have hid := (q.afterCallback_frame timer' expiredTimers).2.2 timer
  unfold Listed at hl ⊢
  rw [hid] at hl
  unfold afterCallback at hl
  simp only at hl
  split at hl
  · exact hl
  · split at hl
    · exact hl
    · simp only [Function.update_apply] at hl
      split at hl
      · cases hl
      · exact hl

/-- **What lives after a step lived before it, or is new.** -/
theorem Indexed.survives {q q' : TimerQueue} {a : TimerStep} (h : q.Indexed)
    (hs : q.step a = some q') {timer : Nat} (hl : q'.Live timer) : Survives q q' a timer := by
  cases step_ends hs with
  | @create timer' _ _ hfree =>
    by_cases heq : timer = timer'
    · subst heq
      refine .fresh hfree ?_ fun hm => hfree (.inr (.inl hm))
      unfold TimerQueue.createTimer
      simp only [Function.update_self]
    · have hheap := q.heap_createTimer_of_ne heq
      refine .kept ?_ (hheap _ _)
      rcases hl with hl | hl | hl
      · exact .inl (List.mem_of_ne_of_mem heq hl)
      · exact .inr (.inl hl)
      · refine .inr (.inr ?_)
        unfold Listed at hl ⊢
        rwa [hheap] at hl
  | @insert timer' _ hc =>
    refine .kept ?_ rfl
    rcases hl with hl | hl | hl
    · exact .inl (List.mem_of_mem_erase hl)
    · exact .inr (.inl hl)
    · rcases (h.list_iff (.inl hc) timer).mp hl with rfl | hl
      · exact .inl hc
      · exact .inr (.inr hl)
  | @erase timerId _ =>
    obtain ⟨_, hheap, hcreated⟩ := q.eraseTimer_frame timerId
    refine .kept ?_ (by rw [hheap])
    unfold Live at hl
    rw [hcreated, phase_eraseTimer] at hl
    refine hl.imp_right (Or.imp_right fun hl => ?_)
    unfold Listed at hl ⊢
    rw [hheap] at hl
    unfold TimerQueue.eraseTimer at hl
    split at hl
    · exact ((h.drop_iff ‹_› timer).mp hl).2
    · exact hl
  | read hph =>
    refine .kept ?_ rfl
    rcases hl with hl | hl | hl
    · exact .inl hl
    · obtain ⟨entry, he, _, rfl⟩ :=
        ((collectExpired_spec q.clock q.expireSet.card q.expireSet le_rfl).timers timer).mp hl
      exact .inr (.inr ((h.keys entry).mp he).1)
    · exact .inr (.inr hl)
  | skip hph _ =>
    refine .kept (hl.imp_right (Or.imp_left fun hm => ?_)) rfl
    rw [hph]
    exact List.mem_cons_of_mem _ hm
  | call hph _ =>
    refine .kept (hl.imp_right (Or.imp_left fun hm => ?_)) rfl
    rw [hph]
    exact hm
  | @callbackReturns timer' ts hph =>
    obtain ⟨_, hcreated, _⟩ := q.afterCallback_frame timer' ts
    have hlive : q.Live timer := by
      unfold Live at hl
      rw [hcreated, phase_afterCallback] at hl
      refine hl.imp_right (Or.imp (fun hm => ?_) listed_of_afterCallback)
      rw [hph]
      exact List.mem_cons_of_mem _ hm
    by_cases hheap : (q.afterCallback timer' ts).heap timer = q.heap timer
    · exact .kept hlive hheap
    · -- only the timer whose callback returns changes
      unfold TimerQueue.afterCallback at hheap ⊢
      simp only at hheap ⊢
      split at hheap
      · exact absurd rfl hheap
      · split at hheap
        · rename_i hrepeat
          by_cases heq : timer = timer'
          · subst heq
            simp only [hrepeat, if_true]
            exact .rescheduled rfl hph hlive (Function.update_self _ _ _)
          · exact absurd (Function.update_of_ne heq _ _) hheap
        · exact absurd rfl hheap
  | sync hph =>
    refine .kept (hl.imp_right (Or.imp_left fun hm => ?_)) rfl
    cases hm
  | tick | holdUp => exact .kept hl rfl
  | expire _ _ => exact .kept hl rfl

/-- No step but a new batch adds to what is still to run, or changes its order. -/
theorem upcoming_sublist_step {q q' : TimerQueue} {a : TimerStep} (hs : q.step a = some q')
    (hread : a ≠ .read) : q'.phase.upcoming.Sublist q.phase.upcoming := by
  cases step_ends hs with
  | read _ => exact absurd rfl hread
  | erase _ => rw [phase_eraseTimer]
  | skip hph _ | call hph _ =>
    rw [hph]
    exact List.sublist_cons_self _ _
  | callbackReturns hph =>
    rw [phase_afterCallback, hph]
    exact List.Sublist.refl _
  | sync _ => exact List.nil_sublist _
  | create _ | insert _ _ | tick | holdUp | expire _ _ => exact List.Sublist.refl _

/-- The timers whose turn is still to come stay as they are. -/
theorem Indexed.upcoming_step {q q' : TimerQueue} {a : TimerStep} (h : q.Indexed)
    (hs : q.step a = some q') (hread : a ≠ .read) {timer : Nat} (ht : timer ∈ q'.phase.upcoming) :
    timer ∈ q.phase.upcoming ∧ q'.heap timer = q.heap timer := by
  have hmem := (upcoming_sublist_step hs hread).subset ht
  refine ⟨hmem, ?_⟩
  have hhand' := QueuePhase.inHand_of_upcoming ht
  cases h.survives hs (.inr (.inl hhand')) with
  | kept _ hheap => exact hheap
  | rescheduled _ hph _ _ =>
    have hnodup := h.handNodup
    rw [hph] at hnodup hmem
    exact absurd hmem (List.nodup_cons.mp hnodup).1
  | fresh _ _ hnot => exact absurd hhand' hnot

/-! ## The order of a batch -/

theorem collectExpired_sorted {now : Int} {f : Nat → Int} (n : Nat) (expireSet : Finset TimerEntry)
    (hn : expireSet.card ≤ n) (hf : ∀ entry ∈ expireSet, entry.expiration = f entry.timer) :
    (collectExpired now n expireSet).1.Pairwise fun timer timer' => f timer ≤ f timer' := by
  induction n generalizing expireSet with
  | zero => exact List.Pairwise.nil
  | succ n ih =>
    simp only [collectExpired]
    split
    · rename_i hne
      split
      · exact List.Pairwise.nil
      · have hmem := expireSet.min'_mem hne
        have hcard : (expireSet.erase (expireSet.min' hne)).card ≤ n := by
          rw [Finset.card_erase_of_mem hmem]
          omega
        refine List.pairwise_cons.mpr ⟨fun timer ht => ?_, ih _ hcard fun entry he =>
          hf entry (Finset.mem_of_mem_erase he)⟩
        obtain ⟨entry, he, _, rfl⟩ := ((collectExpired_spec now n _ hcard).timers timer).mp ht
        have he := Finset.mem_of_mem_erase he
        rw [← hf _ hmem, ← hf entry he]
        exact TimerEntry.expiration_mono (expireSet.min'_le entry he)
    · exact List.Pairwise.nil

/-- **The batch invariant**: what is still to run is due, and in the order of its expirations. -/
structure InOrder (q : TimerQueue) : Prop where
  due : ∀ timer ∈ q.phase.upcoming, (q.heap timer).expiration ≤ q.clock
  sorted : q.phase.upcoming.Pairwise fun timer timer' =>
    (q.heap timer).expiration ≤ (q.heap timer').expiration

theorem clock_le_step {q q' : TimerQueue} {a : TimerStep} (hs : q.step a = some q') :
    q.clock ≤ q'.clock := by
  cases step_ends hs with
  | tick =>
    show q.clock ≤ q.clock + _
    omega
  | insert _ _ | sync _ => exact clock_le_syncTimerfd _
  | erase _ =>
    unfold eraseTimer
    split
    · exact clock_le_syncTimerfd _
    · exact clock_le_syncTimerfd _
  | callbackReturns _ =>
    unfold afterCallback
    simp only
    split
    · exact le_rfl
    · split
      · exact le_rfl
      · exact le_rfl
  | create _ | read _ | skip _ _ | call _ _ | holdUp | expire _ _ => exact le_rfl

theorem InOrder.step {q q' : TimerQueue} {a : TimerStep} (h : q.InOrder) (hI : q.Indexed)
    (hs : q.step a = some q') : q'.InOrder := by
  by_cases hread : a = .read
  · subst hread
    cases step_ends hs with
    | read _ =>
      have hkey : ∀ entry ∈ q.expireSet, entry.expiration = (q.heap entry.timer).expiration := by
        intro entry he
        rw [((hI.keys entry).mp he).2.2]
        rfl
      refine ⟨fun timer ht => ?_, collectExpired_sorted _ _ le_rfl hkey⟩
      obtain ⟨entry, he, hdue, rfl⟩ :=
        ((collectExpired_spec q.clock q.expireSet.card q.expireSet le_rfl).timers timer).mp ht
      exact (hkey entry he).ge.trans hdue
  · constructor
    · intro timer ht
      obtain ⟨hmem, hheap⟩ := hI.upcoming_step hs hread ht
      rw [hheap]
      exact (h.due timer hmem).trans (clock_le_step hs)
    · refine (h.sorted.sublist (upcoming_sublist_step hs hread)).imp_of_mem ?_
      intro timer timer' ht ht' hle
      rw [(hI.upcoming_step hs hread ht).2, (hI.upcoming_step hs hread ht').2]
      exact hle

/-! ## What the events rule out -/

/-- A timer that stays after its callback repeats, and has been put back. -/
theorem Indexed.live_afterCallback {q : TimerQueue} (h : q.Indexed) {timer : Nat}
    {expiredTimers : List Nat} (hph : q.phase = .calling timer expiredTimers)
    (hl : (q.afterCallback timer expiredTimers).Live timer) :
    0 < (q.heap timer).interval ∧
      (q.afterCallback timer expiredTimers).heap timer = (q.heap timer).reschedule q.clock := by
  have hhand : q.phase.inHand = timer :: expiredTimers := by rw [hph]; rfl
  have hnodup := List.nodup_cons.mp (hhand ▸ h.handNodup)
  have hlisted : (q.afterCallback timer expiredTimers).Listed timer := by
    rcases hl with hl | hl | hl
    · rw [(q.afterCallback_frame timer expiredTimers).2.1] at hl
      exact absurd (hhand ▸ List.mem_cons_self) (h.pending hl).1
    · rw [phase_afterCallback] at hl
      exact absurd hl hnodup.1
    · exact hl
  have hfound := listed_of_afterCallback hlisted
  unfold Listed at hlisted hfound
  unfold TimerQueue.afterCallback at hlisted ⊢
  simp only [hfound] at hlisted ⊢
  by_cases hrepeat : (q.heap timer).isRepeat = true
  · rw [if_pos hrepeat]
    exact ⟨by simpa [Timer.isRepeat] using hrepeat, Function.update_self _ _ _⟩
  · rw [if_neg hrepeat] at hlisted
    simp at hlisted

/-- The one-shot timer with the id has had its turn: it is live in its own callback at most. -/
def Spent (q : TimerQueue) (timerId : Nat) : Prop :=
  ∀ timer, q.Live timer → (q.heap timer).id = timerId →
    (q.heap timer).interval ≤ 0 ∧ ∃ expiredTimers, q.phase = .calling timer expiredTimers

theorem Spent.step {q q' : TimerQueue} {a : TimerStep} {timerId : Nat} (h : q.Spent timerId)
    (hI : q.Indexed) (hgiven : timerId < q.nextTimerId) (hs : q.step a = some q') :
    q'.Spent timerId := by
  intro timer hl hid
  -- the timer was live before, in its callback
  obtain ⟨hlive, hid', hint⟩ : q.Live timer ∧ (q.heap timer).id = timerId ∧
      (q'.heap timer).interval = (q.heap timer).interval := by
    cases hI.survives hs hl with
    | kept hlive hheap =>
      rw [hheap] at hid ⊢
      exact ⟨hlive, hid, rfl⟩
    | rescheduled _ _ hlive hheap =>
      rw [hheap] at hid ⊢
      exact ⟨hlive, hid, rfl⟩
    | fresh _ hnew _ => omega
  obtain ⟨hle, ts, hph⟩ := h timer hlive hid'
  rw [hint]
  refine ⟨hle, ts, ?_⟩
  cases step_ends hs with
  | callbackReturns hph' =>
    rw [hph] at hph'
    cases hph'
    have := (hI.live_afterCallback hph hl).1
    omega
  | erase _ =>
    rw [phase_eraseTimer]
    exact hph
  | create _ | insert _ _ | tick | holdUp | expire _ _ => exact hph
  | read hph' | skip hph' _ | call hph' _ | sync hph' =>
    rw [hph] at hph'
    cases hph'

/-- What has been ruled out by a callback that started. -/
structure Began (q : TimerQueue) (batches : Nat) (f : Firing) : Prop where
  given : f.timerId < q.nextTimerId
  past : f.batch ≤ batches
  spent : f.interval ≤ 0 → q.Spent f.timerId
  batch : f.batch = batches → ∀ timer ∈ q.phase.upcoming,
    f.expiration ≤ (q.heap timer).expiration ∧ (q.heap timer).id ≠ f.timerId

theorem Began.step {q q' : TimerQueue} {a : TimerStep} {batches : Nat} {f : Firing}
    (h : q.Began batches f) (hI : q.Indexed) (hs : q.step a = some q') :
    q'.Began (if a = .read then batches + 1 else batches) f := by
  refine ⟨h.given.trans_le (nextTimerId_le_step hs), ?_, fun hone => (h.spent hone).step hI h.given hs, ?_⟩
  · have := h.past
    split
    · omega
    · omega
  · by_cases hread : a = .read
    · rw [if_pos hread]
      intro heq
      have := h.past
      omega
    · rw [if_neg hread]
      intro heq timer ht
      obtain ⟨hmem, hheap⟩ := hI.upcoming_step hs hread ht
      rw [hheap]
      exact h.batch heq timer hmem

/-- What has been ruled out by a callback that ended at `time`. -/
structure Ended (q : TimerQueue) (timerId : Nat) (time : Int) : Prop where
  given : timerId < q.nextTimerId
  past : time ≤ q.clock
  later : ∀ timer, q.Live timer → (q.heap timer).id = timerId →
    time + (q.heap timer).interval * millisecond ≤ (q.heap timer).expiration

theorem Ended.step {q q' : TimerQueue} {a : TimerStep} {timerId : Nat} {time : Int}
    (h : q.Ended timerId time) (hI : q.Indexed) (hs : q.step a = some q') :
    q'.Ended timerId time := by
  refine ⟨h.given.trans_le (nextTimerId_le_step hs), h.past.trans (clock_le_step hs), ?_⟩
  intro timer hl hid
  cases hI.survives hs hl with
  | kept hlive hheap =>
    rw [hheap] at hid ⊢
    exact h.later timer hlive hid
  | rescheduled _ _ hlive hheap =>
    rw [hheap]
    have := h.past
    simp only [Timer.reschedule]
    omega
  | fresh _ hnew _ =>
    have := h.given
    omega

end TimerQueue

/-- What the event rules out has been ruled out. -/
def FiringEvent.Settled (q : TimerQueue) (batches : Nat) : FiringEvent → Prop
  | .erased timerId => q.Gone timerId
  | .started f => q.Began batches f
  | .finished timerId time => q.Ended timerId time

namespace TimerQueue

theorem settled_step {q q' : TimerQueue} {a : TimerStep} {batches : Nat} {e : FiringEvent}
    (h : e.Settled q batches) (hI : q.Indexed) (hs : q.step a = some q') :
    e.Settled q' (if a = .read then batches + 1 else batches) := by
  cases e with
  | erased timerId => exact Gone.step h hI hs
  | started f => exact Began.step h hI hs
  | finished timerId time => exact Ended.step h hI hs

/-- A callback that starts: its timer is due, first in the order of the batch, and listed. -/
theorem permits_started {q : TimerQueue} {batches : Nat} {e : FiringEvent} (h : e.Settled q batches)
    (hO : q.InOrder) {timer timer' : Nat} {expiredTimers : List Nat}
    (hph : q.phase = .running (timer :: expiredTimers))
    (hf : q.timersById (q.heap timer).id = some timer') :
    e.Permits (.started ⟨(q.heap timer).id, batches, q.clock, (q.heap timer).expiration,
      (q.heap timer).interval⟩) := by
  have hup : timer ∈ q.phase.upcoming := by
    rw [hph]
    exact List.mem_cons_self
  have hlive : q.Live timer := .inr (.inl (QueuePhase.inHand_of_upcoming hup))
  cases e with
  | erased timerId =>
    rintro rfl
    have := Gone.unlisted h
    simp only at this
    rw [hf] at this
    cases this
  | started f =>
    have h : q.Began batches f := h
    refine ⟨fun heq => ?_, fun heq => h.batch heq.symm timer hup⟩
    by_contra hone
    obtain ⟨_, _, hcalling⟩ := h.spent (by omega) timer hlive heq
    rw [hph] at hcalling
    cases hcalling
  | finished timerId time =>
    intro heq
    exact (Ended.later h timer hlive heq).trans (hO.due timer hup)

/-- **What a step adds to the log** is settled, allowed by what came before, and not early. -/
theorem firingEvents_spec {q q' : TimerQueue} {a : TimerStep} {batches : Nat} (hI : q.Indexed)
    (hO : q.InOrder) (hs : q.step a = some q') :
    ∀ e ∈ q.firingEvents q' batches a, e.Settled q' batches ∧
      (∀ e' : FiringEvent, e'.Settled q batches → e'.Permits e) ∧
      ∀ f, e = .started f → f.expiration ≤ f.start := by
  intro e he
  cases step_ends hs with
  | @erase timerId _ =>
    simp only [firingEvents] at he
    split at he
    · rename_i hg
      rw [List.mem_singleton.mp he]
      refine ⟨Gone.erased hs hg.1 fun timer hp => hg.2 timer hp.1 hp.2, fun e' _ => ?_, by rintro f ⟨⟩⟩
      cases e' <;> trivial
    · cases he
  | @call timer timer' expiredTimers hph hf =>
    rw [List.mem_singleton.mp he]
    have hup : timer ∈ q.phase.upcoming := by
      rw [hph]
      exact List.mem_cons_self
    have hhand : q.phase.inHand = timer :: expiredTimers := by rw [hph]; rfl
    have hlive : ∀ {t}, t ∈ timer :: expiredTimers → q.Live t :=
      fun ht => .inr (.inl (hhand ▸ ht))
    have hsorted := hO.sorted
    rw [hph] at hsorted
    refine ⟨⟨hI.idBound (hlive List.mem_cons_self), le_rfl, ?_, ?_⟩,
      fun e' he' => permits_started he' hO hph hf, ?_⟩
    · intro hone t hl hid
      obtain rfl : t = timer := by
        refine hI.idInj ?_ (hlive List.mem_cons_self) hid
        refine hl.imp_right (Or.imp_left fun hm => ?_)
        rw [hhand]
        exact hm
      exact ⟨hone, expiredTimers, rfl⟩
    · intro _ t ht
      refine ⟨(List.pairwise_cons.mp hsorted).1 t ht, fun hid => ?_⟩
      have heq := hI.idInj (hlive (List.mem_cons_of_mem _ ht)) (hlive List.mem_cons_self) hid
      exact (List.nodup_cons.mp (hhand ▸ hI.handNodup)).1 (heq ▸ ht)
    · rintro f ⟨⟩
      exact hO.due timer hup
  | @callbackReturns timer expiredTimers hph =>
    simp only [firingEvents, hph, List.mem_singleton] at he
    rw [he]
    have hlive : q.Live timer := by
      refine .inr (.inl ?_)
      rw [hph]
      exact List.mem_cons_self
    obtain ⟨hnext, _, hids⟩ := q.afterCallback_frame timer expiredTimers
    refine ⟨⟨by rw [hnext]; exact hI.idBound hlive, clock_le_step hs, ?_⟩, fun e' _ => ?_, by rintro f ⟨⟩⟩
    · intro t hl hid
      rw [hids] at hid
      have hl0 : q.Live t := by
        cases hI.survives hs hl with
        | kept hl0 _ => exact hl0
        | rescheduled _ _ hl0 _ => exact hl0
        | fresh _ hnew _ =>
          rw [hids] at hnew
          have := hI.idBound hlive
          omega
      obtain rfl := hI.idInj hl0 hlive hid
      rw [(hI.live_afterCallback hph hl).2]
      exact le_rfl
    · cases e' <;> trivial
  | skip hph _ => cases he
  | create _ | insert _ _ | read _ | sync _ | tick | holdUp | expire _ _ => cases he

end TimerQueue

/-! ## Histories -/

theorem firingEvents_pairwise (q q' : TimerQueue) (batches : Nat) (a : TimerStep) :
    (q.firingEvents q' batches a).Pairwise FiringEvent.Permits := by
  unfold TimerQueue.firingEvents
  repeat' split
  all_goals first
    | exact List.pairwise_singleton _ _
    | exact List.Pairwise.nil

/-- **The invariant of the histories.** -/
structure Lawful (h : FiringHistory) : Prop where
  indexed : h.queue.Indexed
  inOrder : h.queue.InOrder
  settled : ∀ e ∈ h.log, e.Settled h.queue h.batches
  law : FiringLaw h.log

theorem Lawful.step {h h' : FiringHistory} {a : TimerStep} (hI : Lawful h)
    (hs : h.step a = some h') : Lawful h' := by
  obtain ⟨q, hq, rfl⟩ := Option.map_eq_some_iff.mp hs
  have hnew := @TimerQueue.firingEvents_spec _ _ _ h.batches hI.indexed hI.inOrder hq
  refine ⟨hI.indexed.step hq, hI.inOrder.step hI.indexed hq, ?_, ?_, ?_⟩
  · intro e he
    rcases List.mem_append.mp he with he | he
    · exact TimerQueue.settled_step (hI.settled e he) hI.indexed hq
    · have hread : a ≠ .read := by
        rintro rfl
        cases he
      show e.Settled q (if a = .read then h.batches + 1 else h.batches)
      rw [if_neg hread]
      exact (hnew e he).1
  · intro f hf
    rcases List.mem_append.mp hf with hf | hf
    · exact hI.law.notEarly f hf
    · exact (hnew _ hf).2.2 f rfl
  · refine List.pairwise_append.mpr ⟨hI.law.permitted, firingEvents_pairwise _ _ _ _, ?_⟩
    intro e he e' he'
    exact (hnew e' he').2.1 e (hI.settled e he)

end Tudou
