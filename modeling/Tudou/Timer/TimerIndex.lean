import Tudou.Timer.TimerQueue

/-!
# The indices and the timerfd of `TimerQueue`

* `Indexed` — what holds of the two indices at every step, relative to the timers `on_timerfd_read`
  has in hand.
* `Armed` — what `sync_timerfd` leaves the timerfd with.
* `index_and_timerfd_consistent` — **between the outermost operations the set is the map under its
  keys, and the timerfd is armed for its first entry**, as late as `timerfd_settime` was called.
* `timerfd_late_of_holdUp` — which can be later than a millisecond after the synchronisation.
-/

namespace Tudou

open Transition

namespace TimerQueue

/-! ## The indices -/

/-- **The index invariant**: the set is the map without the timers in hand, under its keys. -/
structure Indexed (q : TimerQueue) : Prop where
  idOf : ∀ {timerId timer}, q.timersById timerId = some timer → (q.heap timer).id = timerId
  keys : ∀ entry, entry ∈ q.expireSet ↔
    q.Listed entry.timer ∧ entry.timer ∉ q.phase.inHand ∧ entry = q.entry entry.timer
  handNodup : q.phase.inHand.Nodup
  createdNodup : q.created.Nodup
  pending : ∀ {timer}, timer ∈ q.created → timer ∉ q.phase.inHand ∧ ¬q.Listed timer
  idInj : ∀ {timer timer'}, q.Live timer → q.Live timer' →
    (q.heap timer).id = (q.heap timer').id → timer = timer'
  idBound : ∀ {timer}, q.Live timer → (q.heap timer).id < q.nextTimerId

theorem Indexed.construct (now : Int) : (construct now).Indexed where
  idOf h := by cases h
  keys entry := by simp [TimerQueue.construct, Listed]
  handNodup := List.nodup_nil
  createdNodup := List.nodup_nil
  pending h := by cases h
  idInj h := by simp [TimerQueue.construct, Live, Listed, QueuePhase.inHand] at h
  idBound h := by simp [TimerQueue.construct, Live, Listed, QueuePhase.inHand] at h

/-- A timer found in the map is listed. -/
theorem Indexed.listed {q : TimerQueue} (h : q.Indexed) {timerId timer : Nat}
    (hf : q.timersById timerId = some timer) : q.Listed timer := by
  unfold Listed
  rw [h.idOf hf]
  exact hf

/-- What is found under the id of a live timer is that timer. -/
theorem Indexed.found {q : TimerQueue} (h : q.Indexed) {timer timer' : Nat} (hl : q.Live timer)
    (hf : q.timersById (q.heap timer).id = some timer') : timer' = timer :=
  h.idInj (.inr (.inr (h.listed hf))) hl (h.idOf hf)

theorem Indexed.waited {q : TimerQueue} (h : q.Indexed) : q.wait.Indexed :=
  ⟨h.idOf, h.keys, h.handNodup, h.createdNodup, h.pending, h.idInj, h.idBound⟩

theorem Indexed.synced {q : TimerQueue} (h : q.Indexed) : q.syncTimerfd.Indexed :=
  ⟨h.idOf, h.keys, h.handNodup, h.createdNodup, h.pending, h.idInj, h.idBound⟩

/-- No id in the map is the next one. -/
theorem Indexed.nextId_free {q : TimerQueue} (h : q.Indexed) : q.timersById q.nextTimerId = none := by
  cases hf : q.timersById q.nextTimerId with
  | none => rfl
  | some timer =>
    have hid := h.idOf hf
    have := h.idBound (.inr (.inr (h.listed hf)))
    omega

/-- Listing a live timer lists nothing else. -/
theorem Indexed.list_iff {q : TimerQueue} (h : q.Indexed) {timer : Nat} (hl : q.Live timer)
    (timer' : Nat) :
    Function.update q.timersById (q.heap timer).id (some timer) (q.heap timer').id = some timer' ↔
      timer' = timer ∨ q.Listed timer' := by
  by_cases hid : (q.heap timer').id = (q.heap timer).id
  · rw [hid, Function.update_self]
    constructor
    · intro heq
      cases heq
      exact .inl rfl
    · rintro (rfl | hlisted)
      · rfl
      · rw [h.idInj (.inr (.inr hlisted)) hl hid]
  · rw [Function.update_of_ne hid]
    constructor
    · exact .inr
    · rintro (rfl | hlisted)
      · exact absurd rfl hid
      · exact hlisted

/-- Dropping the timer found under an id drops nothing else. -/
theorem Indexed.drop_iff {q : TimerQueue} (h : q.Indexed) {timerId timer : Nat}
    (hf : q.timersById timerId = some timer) (timer' : Nat) :
    Function.update q.timersById timerId none (q.heap timer').id = some timer' ↔
      timer' ≠ timer ∧ q.Listed timer' := by
  by_cases hid : (q.heap timer').id = timerId
  · rw [hid, Function.update_self]
    constructor
    · intro heq
      cases heq
    · rintro ⟨hne, hlisted⟩
      unfold Listed at hlisted
      rw [hid, hf] at hlisted
      exact absurd (Option.some.inj hlisted).symm hne
  · rw [Function.update_of_ne hid]
    constructor
    · intro hlisted
      refine ⟨?_, hlisted⟩
      rintro rfl
      exact hid (h.idOf hf)
    · exact And.right

theorem Indexed.createTimer {q : TimerQueue} (h : q.Indexed) {timer : Nat} (hfree : ¬q.Live timer)
    (expiration interval : Int) : (q.createTimer timer expiration interval).Indexed := by
  have hlisted : ∀ timer', (q.createTimer timer expiration interval).Listed timer' ↔
      q.Listed timer' := by
    intro timer'
    by_cases heq : timer' = timer
    · subst heq
      have hnot : ¬q.Listed timer' := fun hl => hfree (.inr (.inr hl))
      simp [Listed, TimerQueue.createTimer, h.nextId_free]
      exact hnot
    · simp [Listed, TimerQueue.createTimer, heq]
  have hlive : ∀ timer', (q.createTimer timer expiration interval).Live timer' ↔
      timer' = timer ∨ q.Live timer' := by
    intro timer'
    simp only [Live, hlisted]
    simp [TimerQueue.createTimer, or_assoc]
  have hheap : ∀ {timer'}, q.Live timer' →
      (q.createTimer timer expiration interval).heap timer' = q.heap timer' := by
    intro timer' hl
    apply Function.update_of_ne
    rintro rfl
    exact hfree hl
  have hself : (q.createTimer timer expiration interval).heap timer =
      ⟨q.nextTimerId, expiration, interval⟩ := Function.update_self _ _ _
  refine ⟨?_, ?_, h.handNodup, ?_, ?_, ?_, ?_⟩
  · intro timerId timer' hf
    rw [hheap (.inr (.inr (h.listed hf)))]
    exact h.idOf hf
  · intro entry
    rw [hlisted, show entry ∈ (q.createTimer timer expiration interval).expireSet ↔
      entry ∈ q.expireSet from Iff.rfl, h.keys]
    refine and_congr_right fun hl => and_congr_right fun _ => ?_
    simp only [TimerQueue.entry, hheap (.inr (.inr hl))]
  · exact List.nodup_cons.mpr ⟨fun hc => hfree (.inl hc), h.createdNodup⟩
  · intro timer' hc
    rw [hlisted]
    rcases List.mem_cons.mp hc with rfl | hc
    · exact ⟨fun hh => hfree (.inr (.inl hh)), fun hl => hfree (.inr (.inr hl))⟩
    · exact h.pending hc
  · intro timer' timer'' hl' hl'' hid
    rw [hlive] at hl' hl''
    rcases hl' with rfl | hl' <;> rcases hl'' with rfl | hl''
    · rfl
    · rw [hself, hheap hl''] at hid
      have := h.idBound hl''
      simp only at hid
      omega
    · rw [hself, hheap hl'] at hid
      have := h.idBound hl'
      simp only at hid
      omega
    · rw [hheap hl', hheap hl''] at hid
      exact h.idInj hl' hl'' hid
  · intro timer' hl
    show _ < q.nextTimerId + 1
    rcases (hlive timer').mp hl with rfl | hl
    · rw [hself]
      exact Nat.lt_succ_self _
    · rw [hheap hl]
      exact Nat.lt_succ_of_lt (h.idBound hl)

theorem Indexed.insertTimer {q : TimerQueue} (h : q.Indexed) {timer : Nat}
    (hc : timer ∈ q.created) : (q.insertTimer timer).Indexed := by
  have hlisted : ∀ timer', (q.insertTimer timer).Listed timer' ↔ timer' = timer ∨ q.Listed timer' :=
    h.list_iff (.inl hc)
  have hlive : ∀ {timer'}, (q.insertTimer timer).Live timer' → q.Live timer' := by
    rintro timer' (hl | hl | hl)
    · exact .inl (List.mem_of_mem_erase hl)
    · exact .inr (.inl hl)
    · rcases (hlisted timer').mp hl with rfl | hl
      · exact .inl hc
      · exact .inr (.inr hl)
  have hpending := h.pending hc
  refine ⟨?_, ?_, h.handNodup, h.createdNodup.erase _, ?_, fun hl hl' => h.idInj (hlive hl) (hlive hl'),
    fun hl => h.idBound (hlive hl)⟩
  · intro timerId timer' hf
    by_cases hid : timerId = (q.heap timer).id
    · subst hid
      rw [show (q.insertTimer timer).timersById (q.heap timer).id = some timer from
        Function.update_self _ _ _] at hf
      cases hf
      rfl
    · rw [show (q.insertTimer timer).timersById timerId = q.timersById timerId from
        Function.update_of_ne hid _ _] at hf
      exact h.idOf hf
  · intro entry
    rw [hlisted]
    show entry ∈ insert (q.entry timer) q.expireSet ↔
      (entry.timer = timer ∨ q.Listed entry.timer) ∧ entry.timer ∉ q.phase.inHand ∧
        entry = q.entry entry.timer
    rw [Finset.mem_insert, h.keys]
    constructor
    · rintro (rfl | ⟨hl, hnot, heq⟩)
      · exact ⟨.inl rfl, hpending.1, rfl⟩
      · exact ⟨.inr hl, hnot, heq⟩
    · rintro ⟨heq | hl, hnot, hkey⟩
      · exact .inl (by rw [hkey, heq])
      · exact .inr ⟨hl, hnot, hkey⟩
  · intro timer' hc'
    have hne : timer' ≠ timer := fun heq => by
      subst heq
      exact h.createdNodup.not_mem_erase hc'
    have := h.pending (List.mem_of_mem_erase hc')
    refine ⟨this.1, ?_⟩
    rw [hlisted]
    rintro (heq | hl)
    · exact hne heq
    · exact this.2 hl

/-- A timer found in the map leaves both indices. -/
theorem Indexed.drop {q : TimerQueue} (h : q.Indexed) {timerId timer : Nat}
    (hf : q.timersById timerId = some timer) :
    { q with
      expireSet := q.expireSet.erase (q.entry timer)
      timersById := Function.update q.timersById timerId none }.Indexed := by
  have hlisted := h.drop_iff hf
  have hlive : ∀ {timer'}, timer' ∈ q.created ∨ timer' ∈ q.phase.inHand ∨
      Function.update q.timersById timerId none (q.heap timer').id = some timer' →
      q.Live timer' := by
    intro timer' hl
    exact hl.imp_right (Or.imp_right fun hl => ((hlisted timer').mp hl).2)
  refine ⟨?_, ?_, h.handNodup, h.createdNodup, ?_, fun hl hl' => h.idInj (hlive hl) (hlive hl'),
    fun hl => h.idBound (hlive hl)⟩
  · intro timerId' timer' hf'
    change Function.update q.timersById timerId none timerId' = some timer' at hf'
    rw [Function.update_apply] at hf'
    split at hf'
    · cases hf'
    · exact h.idOf hf'
  · intro entry
    show entry ∈ q.expireSet.erase (q.entry timer) ↔
      Function.update q.timersById timerId none (q.heap entry.timer).id = some entry.timer ∧
        entry.timer ∉ q.phase.inHand ∧ entry = q.entry entry.timer
    rw [Finset.mem_erase, h.keys, hlisted]
    constructor
    · rintro ⟨hne, hl, hnot, hkey⟩
      refine ⟨⟨?_, hl⟩, hnot, hkey⟩
      rintro heq
      exact hne (by rw [hkey, heq])
    · rintro ⟨⟨hne, hl⟩, hnot, hkey⟩
      refine ⟨?_, hl, hnot, hkey⟩
      rintro rfl
      exact hne rfl
  · intro timer' hc
    have := h.pending hc
    exact ⟨this.1, fun hl => this.2 ((hlisted timer').mp hl).2⟩

theorem Indexed.eraseTimer {q : TimerQueue} (h : q.Indexed) (timerId : Nat) :
    (q.eraseTimer timerId).Indexed := by
  unfold TimerQueue.eraseTimer
  split
  · exact (h.drop ‹_›).synced
  · exact h.synced

theorem Indexed.readAndCollect {q : TimerQueue} (h : q.Indexed) (hidle : q.phase = .idle) :
    q.readAndCollect.Indexed := by
  have hcollected := collectExpired_spec q.clock q.expireSet.card q.expireSet le_rfl
  unfold TimerQueue.readAndCollect
  generalize collectExpired q.clock q.expireSet.card q.expireSet = r at hcollected
  have hlisted : ∀ {timer}, timer ∈ r.1 → q.Listed timer := by
    intro timer hr
    obtain ⟨entry, he, _, rfl⟩ := (hcollected.timers timer).mp hr
    exact ((h.keys entry).mp he).1
  have hlive : ∀ {timer}, timer ∈ q.created ∨ timer ∈ r.1 ∨ q.Listed timer → q.Live timer := by
    rintro timer (hl | hl | hl)
    · exact .inl hl
    · exact .inr (.inr (hlisted hl))
    · exact .inr (.inr hl)
  refine ⟨h.idOf, ?_, ?_, h.createdNodup, ?_, fun hl hl' => h.idInj (hlive hl) (hlive hl'),
    fun hl => h.idBound (hlive hl)⟩
  · intro entry
    show entry ∈ r.2 ↔ q.Listed entry.timer ∧ entry.timer ∉ r.1 ∧ entry = q.entry entry.timer
    have hkeys := h.keys entry
    rw [hidle] at hkeys
    rw [hcollected.rest, hcollected.timers]
    constructor
    · rintro ⟨he, hlater⟩
      have hkey := (hkeys.mp he)
      refine ⟨hkey.1, ?_, hkey.2.2⟩
      rintro ⟨entry', he', hdue, heq⟩
      have hkey' := ((h.keys entry').mp he').2.2
      rw [heq, ← hkey.2.2] at hkey'
      subst hkey'
      omega
    · rintro ⟨hl, hnot, hkey⟩
      have he := hkeys.mpr ⟨hl, List.not_mem_nil, hkey⟩
      refine ⟨he, ?_⟩
      by_contra hdue
      exact hnot ⟨entry, he, by omega, rfl⟩
  · apply hcollected.nodup
    intro entry he entry' he' heq
    have hkey := ((h.keys entry).mp he).2.2
    have hkey' := ((h.keys entry').mp he').2.2
    rw [hkey, hkey', heq]
  · intro timer hc
    have hnot := (h.pending hc).2
    exact ⟨fun hr => hnot (hlisted hr), hnot⟩

/-- The timers in hand stay the same. -/
theorem Indexed.move {q : TimerQueue} (h : q.Indexed) {phase : QueuePhase}
    (hhand : phase.inHand = q.phase.inHand) : { q with phase := phase }.Indexed := by
  refine ⟨h.idOf, ?_, ?_, h.createdNodup, ?_, ?_, ?_⟩
  · simp only [hhand]
    exact h.keys
  · simp only [hhand]
    exact h.handNodup
  · simp only [hhand]
    exact h.pending
  · simp only [Live, hhand]
    exact h.idInj
  · simp only [Live, hhand]
    exact h.idBound

/-- A timer in hand that is not listed any more is let go. -/
theorem Indexed.release {q : TimerQueue} (h : q.Indexed) {phase : QueuePhase} {timer : Nat}
    (hhand : q.phase.inHand = timer :: phase.inHand) (hnot : ¬q.Listed timer) :
    { q with phase := phase }.Indexed := by
  have hsub : ∀ {timer'}, timer' ∈ phase.inHand → timer' ∈ q.phase.inHand := by
    intro timer' hm
    rw [hhand]
    exact List.mem_cons_of_mem _ hm
  have hlive : ∀ {timer'}, timer' ∈ q.created ∨ timer' ∈ phase.inHand ∨ q.Listed timer' →
      q.Live timer' := by
    intro timer' hl
    exact hl.imp_right (Or.imp_left hsub)
  refine ⟨h.idOf, ?_, ?_, h.createdNodup, ?_, fun hl hl' => h.idInj (hlive hl) (hlive hl'),
    fun hl => h.idBound (hlive hl)⟩
  · intro entry
    show entry ∈ q.expireSet ↔
      q.Listed entry.timer ∧ entry.timer ∉ phase.inHand ∧ entry = q.entry entry.timer
    rw [h.keys, hhand]
    refine and_congr_right fun hl => and_congr_left fun _ => ?_
    rw [List.mem_cons, not_or]
    constructor
    · exact And.right
    · intro hm
      refine ⟨?_, hm⟩
      intro heq
      exact hnot (heq ▸ hl)
  · have := h.handNodup
    rw [hhand] at this
    exact this.of_cons
  · intro timer' hc
    have := h.pending hc
    exact ⟨fun hm => this.1 (hsub hm), this.2⟩

/-- A listed timer in hand is put back under its next expiration. -/
theorem Indexed.putBack {q : TimerQueue} (h : q.Indexed) {timer : Nat} {expiredTimers : List Nat}
    (hph : q.phase = .calling timer expiredTimers) (hl : q.Listed timer) :
    { q with
      phase := .running expiredTimers
      heap := Function.update q.heap timer ((q.heap timer).reschedule q.clock)
      expireSet := insert (toLex (((q.heap timer).reschedule q.clock).expiration, timer))
        q.expireSet }.Indexed := by
  have hid : ∀ timer', (Function.update q.heap timer ((q.heap timer).reschedule q.clock) timer').id =
      (q.heap timer').id := by
    intro timer'
    rw [Function.update_apply]
    split
    · rename_i heq
      rw [heq]
      rfl
    · rfl
  have hhand : q.phase.inHand = timer :: expiredTimers := by rw [hph]; rfl
  have hnodup := List.nodup_cons.mp (hhand ▸ h.handNodup)
  have hsub : ∀ {timer'}, timer' ∈ expiredTimers → timer' ∈ q.phase.inHand := by
    intro timer' hm
    rw [hhand]
    exact List.mem_cons_of_mem _ hm
  have hlive : ∀ {timer'}, timer' ∈ q.created ∨ timer' ∈ expiredTimers ∨ q.Listed timer' →
      q.Live timer' := by
    intro timer' hl
    exact hl.imp_right (Or.imp_left hsub)
  refine ⟨?_, ?_, hnodup.2, h.createdNodup, ?_, ?_, ?_⟩
  · intro timerId timer' hf
    exact (hid timer').trans (h.idOf hf)
  · intro entry
    simp only [Listed, hid, Finset.mem_insert, h.keys, hph, QueuePhase.inHand, List.mem_cons, not_or,
      TimerQueue.entry]
    by_cases heq : entry.timer = timer
    · rw [heq, Function.update_self]
      constructor
      · rintro (hkey | ⟨_, hnot, _⟩)
        · exact ⟨hl, hnodup.1, hkey⟩
        · exact absurd rfl hnot.1
      · rintro ⟨_, _, hkey⟩
        exact .inl hkey
    · rw [Function.update_of_ne heq]
      constructor
      · rintro (rfl | ⟨hl', hnot, hkey⟩)
        · exact absurd rfl heq
        · exact ⟨hl', hnot.2, hkey⟩
      · rintro ⟨hl', hnot, hkey⟩
        exact .inr ⟨hl', ⟨heq, hnot⟩, hkey⟩
  · intro timer' hc
    have := h.pending hc
    simp only [Listed, hid]
    exact ⟨fun hm => this.1 (hsub hm), this.2⟩
  · intro timer' timer'' hl' hl'' heq
    simp only [Live, Listed, hid] at hl' hl'' heq
    exact h.idInj (hlive hl') (hlive hl'') heq
  · intro timer' hl'
    simp only [Live, Listed, hid] at hl' ⊢
    exact h.idBound (hlive hl')

theorem Indexed.afterCallback {q : TimerQueue} (h : q.Indexed) {timer : Nat}
    {expiredTimers : List Nat} (hph : q.phase = .calling timer expiredTimers) :
    (q.afterCallback timer expiredTimers).Indexed := by
  have hhand : q.phase.inHand = timer :: expiredTimers := by rw [hph]; rfl
  unfold TimerQueue.afterCallback
  simp only
  split
  · rename_i hf
    apply h.release hhand
    unfold Listed
    simp [hf]
  · rename_i timer' hf
    have hl : q.Live timer := .inr (.inl (hhand ▸ List.mem_cons_self))
    obtain rfl := h.found hl hf
    split
    · have hback := h.putBack hph hf
      simpa [TimerQueue.entry] using hback
    · have hnot : q.entry timer' ∉ q.expireSet := by
        rw [h.keys]
        rintro ⟨_, hm, _⟩
        exact hm (hhand ▸ List.mem_cons_self)
      have hdrop := h.drop hf
      rw [Finset.erase_eq_of_notMem hnot] at hdrop
      refine hdrop.release hhand ?_
      simp [Listed]

/-- **Step lemma** for the indices. -/
theorem Indexed.step {q q' : TimerQueue} {a : TimerStep} (h : q.Indexed)
    (hs : q.step a = some q') : q'.Indexed := by
  cases step_ends hs with
  | create hfree => exact h.createTimer hfree _ _
  | insert _ hc => exact h.insertTimer hc
  | erase _ => exact h.eraseTimer _
  | read hidle => exact h.readAndCollect hidle
  | skip hph hf =>
    apply h.release (by rw [hph]; rfl)
    unfold Listed
    simp [hf]
  | call hph _ => exact h.move (by rw [hph]; rfl)
  | callbackReturns hph => exact h.afterCallback hph
  | sync hph =>
    apply Indexed.synced
    exact h.move (by rw [hph]; rfl)
  | tick | holdUp | expire _ _ =>
    exact ⟨h.idOf, h.keys, h.handNodup, h.createdNodup, h.pending, h.idInj, h.idBound⟩

/-! ## The timerfd -/

/-- The timerfd is set exactly when the set has an entry, to a delay the kernel takes and does not
read as a disarm.  It expires no later than an entry is due or than a millisecond after the last
synchronisation, but for the time between the synchronisation's reading of the clock and
`timerfd_settime`. -/
structure Armed (q : TimerQueue) : Prop where
  set_iff : q.timerFd.setting = none ↔ q.expireSet = ∅
  valid : ∀ {value expiry}, q.timerFd.setting = some (value, expiry) →
    value.Valid ∧ value ≠ ⟨0, 0⟩
  settime : q.lastSync ≤ q.lastSettime ∧ q.lastSettime ≤ q.clock
  inTime : ∀ {value expiry}, q.timerFd.setting = some (value, expiry) →
    ∀ entry ∈ q.expireSet,
      expiry ≤ max entry.expiration (q.lastSync + millisecond) + (q.lastSettime - q.lastSync)

theorem Armed.construct (now : Int) : (construct now).Armed where
  set_iff := ⟨fun _ => rfl, fun _ => rfl⟩
  valid h := by cases h
  settime := ⟨le_rfl, le_rfl⟩
  inTime h := by cases h

/-- **`sync_timerfd` arms the timerfd**, whatever it was. -/
theorem Armed.synced (q : TimerQueue) : q.syncTimerfd.Armed := by
  have hsettime : q.clock ≤ q.clock + q.lag := by omega
  by_cases hne : q.expireSet.Nonempty
  · have hset : q.syncTimerfd.timerFd.setting = some
        (toTimespec ((q.expireSet.min' hne).expiration - q.clock),
          q.clock + q.lag + (toTimespec ((q.expireSet.min' hne).expiration - q.clock)).ns) := by
      simp [syncTimerfd, wait, hne, resetTimerfd, TimerFd.setting]
    have hns := toTimespec_ns ((q.expireSet.min' hne).expiration - q.clock)
    refine ⟨?_, ?_, ⟨hsettime, le_rfl⟩, ?_⟩
    · rw [hset]
      constructor
      · intro h
        cases h
      · intro h
        exact absurd h hne.ne_empty
    · intro value expiry h
      rw [hset] at h
      cases h
      refine ⟨toTimespec_valid _, ?_⟩
      intro hzero
      rw [hzero] at hns
      have : (0 : Int) < max ((q.expireSet.min' hne).expiration - q.clock) millisecond :=
        lt_max_of_lt_right (by decide)
      rw [← hns] at this
      exact absurd this (by decide)
    · intro value expiry h entry he
      rw [hset] at h
      cases h
      have hmin := TimerEntry.expiration_mono (q.expireSet.min'_le entry he)
      show q.clock + q.lag + (toTimespec _).ns ≤
        max entry.expiration (q.clock + millisecond) + (q.clock + q.lag - q.clock)
      rw [hns]
      omega
  · have hset : q.syncTimerfd.timerFd.setting = none := by
      simp [syncTimerfd, hne, disarmTimerfd, TimerFd.setting]
    refine ⟨?_, ?_, ⟨hsettime, le_rfl⟩, ?_⟩
    · rw [hset]
      exact ⟨fun _ => Finset.not_nonempty_iff_eq_empty.mp hne, fun _ => rfl⟩
    · intro value expiry h
      rw [hset] at h
      cases h
    · intro value expiry h
      rw [hset] at h
      cases h

/-- No operation ends with a callback. -/
theorem afterCallback_phase (q : TimerQueue) (timer : Nat) (expiredTimers : List Nat) :
    (q.afterCallback timer expiredTimers).phase = .running expiredTimers := by
  unfold TimerQueue.afterCallback
  simp only
  split
  · rfl
  · split
    · rfl
    · rfl

/-- **Step lemma** for the timerfd: an operation that ends has synchronised it. -/
theorem Armed.step {q q' : TimerQueue} {a : TimerStep} (h : q.phase = .idle → q.Armed)
    (hs : q.step a = some q') (hidle : q'.phase = .idle) : q'.Armed := by
  cases step_ends hs with
  | create _ | holdUp =>
    obtain ⟨hset, hvalid, hsettime, hin⟩ := h hidle
    exact ⟨hset, hvalid, hsettime, hin⟩
  | @tick elapsed =>
    obtain ⟨hset, hvalid, hsettime, hin⟩ := h hidle
    exact ⟨hset, hvalid, ⟨hsettime.1, by show q.lastSettime ≤ q.clock + elapsed; omega⟩, hin⟩
  | insert _ _ => exact Armed.synced _
  | erase _ =>
    unfold TimerQueue.eraseTimer
    split
    · exact Armed.synced _
    · exact Armed.synced _
  | read _ | skip _ _ | call _ _ => cases hidle
  | callbackReturns _ =>
    rw [afterCallback_phase] at hidle
    cases hidle
  | sync _ => exact Armed.synced _
  | expire hfd _ =>
    obtain ⟨hset, hvalid, hsettime, hin⟩ := h hidle
    rw [hfd] at hset hvalid hin
    exact ⟨hset, hvalid, hsettime, hin⟩

/-! ## Between the operations -/

/-- With no timer in hand, the set has every timer of the map. -/
theorem Indexed.index {q : TimerQueue} (h : q.Indexed) (hidle : q.phase = .idle)
    (entry : TimerEntry) : entry ∈ q.expireSet ↔
      ∃ timerId timer, q.timersById timerId = some timer ∧ entry = q.entry timer := by
  rw [h.keys, hidle]
  constructor
  · rintro ⟨hl, _, hkey⟩
    exact ⟨_, _, hl, hkey⟩
  · rintro ⟨timerId, timer, hf, rfl⟩
    exact ⟨h.listed hf, List.not_mem_nil, rfl⟩

end TimerQueue

end Tudou
