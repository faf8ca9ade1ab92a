import Tudou.Tcp.HeartbeatTimers

/-!
# When a heartbeat closes its connection

`is_timeout` and `check_timeout` of `src/tudou/tcp/ConnectionHeartbeat.cpp`, against the times at which the
messages of a connection arrive.

* `timedLoop` — a loop that remembers when each connection was heard of, and when the callback that runs
  was called.
* `Attended` — the idle detection is not turned off, and no start and no check takes longer than `delay`.
* `Undisturbed` — a step of the timer queue that is not about this timer.
* `OnTime` — the invariant: a waiting timer is due within an interval of the last check, which found the
  connection active.
* `idle_connections_close` — **no connection is closed by its heartbeat before it has been idle for the
  timeout, and one that has been idle for longer than the timeout and an interval is being checked.**
-/

namespace Tudou

open Transition

namespace ConnectionHeartbeat

/-- The time without messages that `is_timeout` asks for. -/
def idleTimeout (h : ConnectionHeartbeat) : Int := toMilliseconds h.idleTimeoutSeconds * millisecond

/-- The interval of the timer that `start()` asks for. -/
def checkInterval (h : ConnectionHeartbeat) : Int :=
  if toMilliseconds h.checkIntervalSeconds ≤ 0 then 1 else toMilliseconds h.checkIntervalSeconds

theorem idleTimeout_nonneg {h : ConnectionHeartbeat} (hpos : 0 < h.idleTimeoutSeconds) :
    0 ≤ h.idleTimeout := by
  have hnum : 0 ≤ (h.idleTimeoutSeconds * 1000).num :=
    Rat.num_nonneg.mpr (Rat.mul_nonneg (Rat.le_of_lt hpos) (by decide))
  have hms : 0 ≤ toMilliseconds h.idleTimeoutSeconds := Int.tdiv_nonneg hnum (Int.natCast_nonneg _)
  unfold idleTimeout millisecond
  omega

/-- The cast to milliseconds loses nothing. -/
theorem isTimeout_iff {h : ConnectionHeartbeat} {now : Int} (hle : h.lastActiveTime ≤ now) :
    h.isTimeout now = true ↔ h.idleTimeout ≤ now - h.lastActiveTime := by
  have hdiv : (now - h.lastActiveTime).tdiv millisecond = (now - h.lastActiveTime) / millisecond :=
    Int.tdiv_eq_ediv_of_nonneg (by omega)
  unfold isTimeout idleTimeout
  rw [hdiv, decide_eq_true_iff]
  exact Int.le_ediv_iff_mul_le (by decide)

end ConnectionHeartbeat

/-! ## The timer queue -/

namespace TimerQueue

/-- The queue moves on, and nothing happens to the timer. -/
structure Undisturbed (q q' : TimerQueue) (timer : Nat) : Prop where
  heap : q'.heap timer = q.heap timer
  inHand : timer ∈ q.phase.inHand → timer ∈ q'.phase.inHand
  calling : ∀ {expiredTimers}, q'.phase = .calling timer expiredTimers →
    q.phase = .calling timer expiredTimers
  clock : q.clock ≤ q'.clock

theorem Undisturbed.refl (q : TimerQueue) (timer : Nat) : Undisturbed q q timer :=
  ⟨rfl, id, id, Int.le_refl _⟩

/-- The functor of `erase_timer` is about the map and the set. -/
theorem Undisturbed.eraseTimer (q : TimerQueue) (timerId timer : Nat) :
    Undisturbed q (q.eraseTimer timerId) timer := by
  unfold TimerQueue.eraseTimer
  split
  · exact ⟨rfl, id, id, clock_le_syncTimerfd _⟩
  · exact ⟨rfl, id, id, clock_le_syncTimerfd _⟩

/-- Another timer is made. -/
theorem Undisturbed.createTimer {q : TimerQueue} {timer new : Nat} (hne : timer ≠ new)
    (expiration interval : Int) : Undisturbed q (q.createTimer new expiration interval) timer :=
  ⟨Function.update_of_ne hne _ _, id, id, Int.le_refl _⟩

theorem afterCallback_clock (q : TimerQueue) (timer : Nat) (expiredTimers : List Nat) :
    (q.afterCallback timer expiredTimers).clock = q.clock := by
  unfold afterCallback
  simp only
  split
  · rfl
  · split
    · rfl
    · rfl

/-- After the callback of one timer the others are as they were. -/
theorem afterCallback_heap_of_ne {q : TimerQueue} {timer called : Nat} (hne : timer ≠ called)
    (expiredTimers : List Nat) : (q.afterCallback called expiredTimers).heap timer = q.heap timer := by
  unfold afterCallback
  simp only
  split
  · rfl
  · split
    · exact Function.update_of_ne hne _ _
    · rfl

/-- The timer whose callback has run is due an interval later, if it repeats and is not cancelled. -/
theorem afterCallback_heap {q : TimerQueue} {timer : Nat} (expiredTimers : List Nat)
    (hlisted : q.Listed timer) (hrepeat : (q.heap timer).isRepeat = true) :
    (q.afterCallback timer expiredTimers).heap timer = (q.heap timer).reschedule q.clock := by
  unfold TimerQueue.afterCallback
  simp only
  unfold Listed at hlisted
  split
  · rename_i hnone
    rw [hlisted] at hnone
    cases hnone
  · rw [if_pos hrepeat]
    exact Function.update_self _ _ _

/-- **A listed timer is disturbed by its own call and by its return only.** -/
theorem Undisturbed.step {q q' : TimerQueue} {a : TimerStep} (hs : q.step a = some q') {timer : Nat}
    (hlisted : q.Listed timer)
    (hcall : a = .next → ∀ expiredTimers, q.phase ≠ .running (timer :: expiredTimers))
    (hreturn : a = .callbackReturns → ∀ expiredTimers, q.phase ≠ .calling timer expiredTimers) :
    Undisturbed q q' timer := by
  cases step_ends hs with
  | create hnew =>
    refine .createTimer ?_ _ _
    rintro rfl
    exact hnew (.inr (.inr hlisted))
  | insert => exact ⟨rfl, id, id, clock_le_syncTimerfd _⟩
  | erase => exact .eraseTimer _ _ _
  | read hidle =>
    refine ⟨rfl, fun hin => ?_, fun hcalling => (by cases hcalling), Int.le_refl _⟩
    rw [hidle] at hin
    cases hin
  | @skip skipped expiredTimers hrunning hnone =>
    refine ⟨rfl, fun hin => ?_, fun hcalling => (by cases hcalling), Int.le_refl _⟩
    rw [hrunning] at hin
    rcases List.mem_cons.mp hin with rfl | hin
    · unfold Listed at hlisted
      rw [hnone] at hlisted
      cases hlisted
    · exact hin
  | @call called _ expiredTimers hrunning hfound =>
    refine ⟨rfl, fun hin => ?_, fun hcalling => ?_, Int.le_refl _⟩
    · rw [hrunning] at hin
      exact hin
    · cases hcalling
      exact absurd hrunning (hcall rfl _)
  | @callbackReturns called expiredTimers hphase =>
    have hne : timer ≠ called := by
      rintro rfl
      exact hreturn rfl _ hphase
    have hafter := q.afterCallback_phase called expiredTimers
    refine ⟨afterCallback_heap_of_ne hne _, fun hin => ?_, fun hcalling => ?_, ?_⟩
    · rw [hphase] at hin
      rw [hafter]
      exact (List.mem_cons.mp hin).resolve_left hne
    · rw [hafter] at hcalling
      cases hcalling
    · rw [afterCallback_clock]
  | sync hrunning =>
    refine ⟨rfl, fun hin => ?_, fun hcalling => (by cases hcalling), clock_le_syncTimerfd _⟩
    rw [hrunning] at hin
    cases hin
  | tick =>
    refine ⟨rfl, id, id, ?_⟩
    simp only
    omega
  | holdUp | expire => exact ⟨rfl, id, id, Int.le_refl _⟩

/-- Only the functor of `add_timer` lists a timer. -/
theorem Indexed.listed_step {q q' : TimerQueue} (h : q.Indexed) {a : TimerStep} (hs : q.step a = some q')
    {timer : Nat} (hlisted : q'.Listed timer) :
    q.Listed timer ∨ a = .insert timer ∧ timer ∈ q.created ∨ ∃ expiration interval,
      a = .create timer expiration interval := by
  cases step_ends hs with
  | @create new expiration interval hnew =>
    by_cases heq : timer = new
    · subst heq
      exact .inr (.inr ⟨_, _, rfl⟩)
    · left
      simp only [Listed, TimerQueue.createTimer, Function.update_of_ne heq] at hlisted
      exact hlisted
  | insert _ hcreated =>
    rcases (h.list_iff (.inl hcreated) timer).mp hlisted with rfl | hbefore
    · exact .inr (.inl ⟨rfl, hcreated⟩)
    · exact .inl hbefore
  | @erase timerId _ =>
    left
    unfold TimerQueue.eraseTimer at hlisted
    split at hlisted
    · rename_i found hfound
      exact ((h.drop_iff hfound timer).mp hlisted).2
    · exact hlisted
  | @callbackReturns called expiredTimers hphase =>
    left
    have hid := (q.afterCallback_frame called expiredTimers).2.2 timer
    unfold Listed at hlisted ⊢
    rw [hid] at hlisted
    unfold TimerQueue.afterCallback at hlisted
    simp only at hlisted
    split at hlisted
    · exact hlisted
    · split at hlisted
      · exact hlisted
      · simp only [Function.update_apply] at hlisted
        split at hlisted
        · cases hlisted
        · exact hlisted
  | read | skip | call | sync | tick | holdUp | expire => exact .inl hlisted

end TimerQueue

/-! ## The loop and the clock -/

/-- The loop, with what is to be compared to the clock. -/
structure TimedLoop where
  loop : HeartbeatLoop
  /-- When the connection was registered, or last had a message. -/
  heard : Nat → Int
  /-- When the callback that runs was called. -/
  entered : Int

namespace TimedLoop

def create (now : Int) : TimedLoop where
  loop := .create now
  heard _ := now
  entered := now

def heardAfter (s : TimedLoop) : HeartbeatStep → Nat → Int
  | .register _ =>
    match s.loop.creating with
    | some record => Function.update s.heard record.connection s.loop.queue.clock
    | none => s.heard
  | .message conn => Function.update s.heard conn s.loop.queue.clock
  | _ => s.heard

def step (s : TimedLoop) (a : HeartbeatStep) : Option TimedLoop :=
  (s.loop.step a).map fun loop =>
    ⟨loop, s.heardAfter a, if a = .timers .next then s.loop.queue.clock else s.entered⟩

end TimedLoop

/-- **A loop and the times of what happens to it.** -/
def timedLoop (now : Int) : System TimedLoop HeartbeatStep where
  init := TimedLoop.create now
  step := TimedLoop.step

namespace TimedLoop

/-- `set_connection_heartbeat` with two positive times. -/
def leavesOn : HeartbeatStep → Bool
  | .setConnectionHeartbeat checkIntervalSeconds idleTimeoutSeconds =>
    if checkIntervalSeconds ≤ 0 ∨ idleTimeoutSeconds ≤ 0 then false else true
  | _ => true

/-- `create_connection` starts the heartbeat. -/
def starts : HeartbeatStep → Bool
  | .register _ => true
  | _ => false

/-- The idle detection is not turned off, since messages would not count any more; and it takes no longer than
`delay` to start a heartbeat, from its reading of the clock to that of `run_every`, and to make a check that
leaves its connection open. -/
def Attended (delay : Nat) (s : TimedLoop) (a : HeartbeatStep) : Prop :=
  leavesOn a = true ∧ (starts a = true → s.loop.queue.lag ≤ delay) ∧ (a = .timers .callbackReturns →
    ∀ timer ∈ s.loop.queue.phase.inHand.head?, s.loop.queue.Listed timer →
      s.loop.callback timer ≠ none → s.loop.queue.clock - s.entered ≤ delay)

instance (delay : Nat) (s : TimedLoop) (a : HeartbeatStep) : Decidable (s.Attended delay a) :=
  inferInstanceAs (Decidable (_ ∧ _ ∧ _))

/-- The heartbeat that this timer calls keeps to its times. -/
structure OnTime (delay : Nat) (s : TimedLoop) (h : ConnectionHeartbeat) (timer : Nat) : Prop where
  running : h.running = true
  active : h.lastActiveTime = s.heard h.conn
  past : s.heard h.conn ≤ s.loop.queue.clock
  interval : (s.loop.queue.heap timer).interval = h.checkInterval
  /-- The timer has been put back after a check. -/
  waits : timer ∉ s.loop.queue.phase.inHand →
    (s.loop.queue.heap timer).expiration ≤
      s.heard h.conn + h.idleTimeout + h.checkInterval * millisecond + delay
  /-- The check that runs has found the connection active. -/
  checked : ∀ {expiredTimers}, s.loop.queue.phase = .calling timer expiredTimers →
    s.entered < s.heard h.conn + h.idleTimeout

/-- The invariant. -/
structure Timely (delay : Nat) (s : TimedLoop) : Prop where
  kept : s.loop.Kept s.loop.records
  /-- There is no heartbeat but under the option. -/
  enabled : ∀ {heartbeat h}, s.loop.heartbeats heartbeat = some h → s.loop.options.enabled = true
  onTime : ∀ {timer heartbeat h}, s.loop.queue.Listed timer → s.loop.callback timer = some heartbeat →
    s.loop.heartbeats heartbeat = some h → s.OnTime delay h timer

variable {delay : Nat} {s s' : TimedLoop}

theorem Timely.create (now : Int) : (create now).Timely delay where
  kept := .create now
  enabled h := by cases h
  onTime _ h := by cases h

/-- A message counts for its connection, and the queue does something else. -/
theorem OnTime.refresh {h : ConnectionHeartbeat} {timer : Nat} (hon : s.OnTime delay h timer)
    (hqueue : TimerQueue.Undisturbed s.loop.queue s'.loop.queue timer)
    (hheard : s.heard h.conn ≤ s'.heard h.conn) (hpast : s'.heard h.conn ≤ s'.loop.queue.clock)
    (hentered : s'.entered = s.entered ∨ ∀ expired, s.loop.queue.phase ≠ .calling timer expired) :
    s'.OnTime delay { h with lastActiveTime := s'.heard h.conn } timer where
  running := hon.running
  active := rfl
  past := hpast
  interval := by
    rw [hqueue.heap]
    exact hon.interval
  waits hout := by
    have hbefore := hon.waits fun hin => hout (hqueue.inHand hin)
    rw [hqueue.heap]
    show _ ≤ s'.heard h.conn + h.idleTimeout + h.checkInterval * millisecond + delay
    omega
  checked hcalling := by
    have hbefore := hqueue.calling hcalling
    have hchecked := hon.checked hbefore
    have hsame := hentered.resolve_right fun hnot => hnot _ hbefore
    show s'.entered < s'.heard h.conn + h.idleTimeout
    omega

/-- Nothing happens to the connection. -/
theorem OnTime.stay {h : ConnectionHeartbeat} {timer : Nat} (hon : s.OnTime delay h timer)
    (hqueue : TimerQueue.Undisturbed s.loop.queue s'.loop.queue timer)
    (hheard : s'.heard h.conn = s.heard h.conn)
    (hentered : s'.entered = s.entered ∨ ∀ expired, s.loop.queue.phase ≠ .calling timer expired) :
    s'.OnTime delay h timer := by
  have hclock := hqueue.clock
  have hpast := hon.past
  have hrefreshed := hon.refresh hqueue (by omega) (by omega) hentered
  have hsame : { h with lastActiveTime := s'.heard h.conn } = h := by
    rw [hheard, ← hon.active]
  rwa [hsame] at hrefreshed

/-! ## Closing -/

end TimedLoop

namespace HeartbeatLoop

/-- Heartbeats may have been stopped and let go of with their connections. -/
structure Shrinks (s s' : HeartbeatLoop) : Prop where
  listed : ∀ {timer}, s'.queue.Listed timer → s.queue.Listed timer
  callback : s'.callback = s.callback
  heartbeats : ∀ {heartbeat h}, s'.heartbeats heartbeat = some h → s.heartbeats heartbeat = some h
  queue : ∀ timer, TimerQueue.Undisturbed s.queue s'.queue timer
  options : s'.options = s.options

theorem Shrinks.refl (s : HeartbeatLoop) : s.Shrinks s := ⟨id, rfl, id, .refl _, rfl⟩

theorem Shrinks.trans {s s' s'' : HeartbeatLoop} (h : s.Shrinks s') (h' : s'.Shrinks s'') : s.Shrinks s'' where
  listed hlisted := h.listed (h'.listed hlisted)
  callback := h'.callback.trans h.callback
  heartbeats hthere := h.heartbeats (h'.heartbeats hthere)
  queue timer :=
    { heap := (h'.queue timer).heap.trans (h.queue timer).heap
      inHand := fun hin => (h'.queue timer).inHand ((h.queue timer).inHand hin)
      calling := fun hcalling => (h.queue timer).calling ((h'.queue timer).calling hcalling)
      clock := (h.queue timer).clock.trans (h'.queue timer).clock }
  options := h'.options.trans h.options

/-- A record's heartbeat is stopped and let go of. -/
theorem Shrinks.stopRecord {s : HeartbeatLoop} (hq : s.queue.Indexed) (record : ConnectionRecord) :
    s.Shrinks (s.stopRecord record) := by
  unfold HeartbeatLoop.stopRecord
  split
  · exact .refl s
  · rename_i heartbeat hsome
    have hdropped : ∀ {heartbeats : Nat → Option ConnectionHeartbeat} {other hb},
        Function.update heartbeats heartbeat none other = some hb → other ≠ heartbeat ∧
          heartbeats other = some hb := by
      intro heartbeats other hb hthere
      obtain ⟨hthere, hne⟩ := drop_iff.mp hthere
      exact ⟨Ne.symm hne, hthere⟩
    unfold HeartbeatLoop.stopHeartbeat
    split
    · exact ⟨id, rfl, fun hthere => (hdropped hthere).2, .refl _, rfl⟩
    · rename_i hb hthere
      have hother : ∀ {hb' : ConnectionHeartbeat} {other hb''},
          Function.update (Function.update s.heartbeats heartbeat (some hb')) heartbeat none other =
            some hb'' → s.heartbeats other = some hb'' := by
        intro hb' other hb'' hafter
        obtain ⟨hne, hafter⟩ := hdropped hafter
        rwa [Function.update_of_ne hne] at hafter
      split
      · exact ⟨id, rfl, hother, .refl _, rfl⟩
      · refine ⟨fun {timer} hlisted => ?_, rfl, hother, fun _ => .eraseTimer _ _ _, rfl⟩
        change (s.queue.eraseTimer hb.timerId).Listed timer at hlisted
        unfold TimerQueue.eraseTimer at hlisted
        split at hlisted
        · rename_i found hfound
          exact ((hq.drop_iff hfound timer).mp hlisted).2
        · exact hlisted

theorem indexed_stopRecord {s : HeartbeatLoop} (hq : s.queue.Indexed) (record : ConnectionRecord) :
    (s.stopRecord record).queue.Indexed := by
  unfold HeartbeatLoop.stopRecord
  split
  · exact hq
  · unfold HeartbeatLoop.stopHeartbeat
    split
    · exact hq
    · split
      · exact hq
      · exact hq.eraseTimer _

/-- A connection is closed, and its record goes. -/
theorem Shrinks.closeConnection {s : HeartbeatLoop} (hq : s.queue.Indexed) (conn : Nat) :
    s.Shrinks (s.closeConnection conn) := by
  unfold HeartbeatLoop.closeConnection
  split
  · have hstatus : s.Shrinks (s.setStatus conn .closed) := ⟨id, rfl, id, .refl _, rfl⟩
    unfold HeartbeatLoop.removeConnection
    split
    · exact hstatus
    · rename_i record hfound
      have herase : s.Shrinks ((s.setStatus conn .closed).eraseRecord conn) := ⟨id, rfl, id, .refl _, rfl⟩
      have hstop : ((s.setStatus conn .closed).eraseRecord conn).Shrinks
          (((s.setStatus conn .closed).eraseRecord conn).stopRecord record) :=
        @Shrinks.stopRecord ((s.setStatus conn .closed).eraseRecord conn) hq record
      exact herase.trans hstop
  · exact .refl s

/-- No other connection is closed. -/
theorem closeConnection_status (s : HeartbeatLoop) (conn : Nat) : (s.closeConnection conn).status =
    if s.status conn = .open then Function.update s.status conn .closed else s.status := by
  unfold HeartbeatLoop.closeConnection
  split
  · unfold HeartbeatLoop.removeConnection
    split
    · rfl
    · rw [(stopRecord_frame _ _).2.1]
      rfl
  · rfl

/-- The task of `shutdown_connections` goes through the records. -/
theorem Shrinks.shutdownTask {s : HeartbeatLoop} (hq : s.queue.Indexed) : s.Shrinks s.shutdownTask := by
  have hfold : ∀ (records : List ConnectionRecord) {s : HeartbeatLoop}, s.queue.Indexed →
      s.Shrinks (records.foldl shutRecord s) := by
    intro records
    induction records with
    | nil => exact fun _ => .refl _
    | cons record records ih =>
      intro s hq
      have hshut : s.Shrinks (s.shutRecord record) ∧ (s.shutRecord record).queue.Indexed := by
        unfold HeartbeatLoop.shutRecord
        simp only
        split
        · have hstatus : (s.stopRecord record).Shrinks
              ((s.stopRecord record).setStatus record.connection .closed) := ⟨id, rfl, id, .refl _, rfl⟩
          exact ⟨.trans (.stopRecord hq record) hstatus, indexed_stopRecord hq record⟩
        · exact ⟨.stopRecord hq record, indexed_stopRecord hq record⟩
      exact hshut.1.trans (ih hshut.2)
  have hmoved : s.Shrinks { s with records := [] } := ⟨id, rfl, id, .refl _, rfl⟩
  exact hmoved.trans (hfold s.records hq)

/-- **A heartbeat that runs checks its connection**, which is open. -/
theorem Kept.checkTimeout_eq {s : HeartbeatLoop} (h : s.Kept s.records) {timer heartbeat : Nat}
    {hb : ConnectionHeartbeat} (hlisted : s.queue.Listed timer) (hcallback : s.callback timer = some heartbeat)
    (hthere : s.heartbeats heartbeat = some hb) (hrunning : hb.running = true) :
    s.checkTimeout heartbeat = if hb.isTimeout s.queue.clock then s.closeConnection hb.conn else s := by
  obtain ⟨record, hin, hb', _, hconn, hticks⟩ := h.ofTimer hlisted hcallback
  obtain rfl : hb' = hb := Option.some.inj (hticks.there.symm.trans hthere)
  have hopen : s.status hb'.conn = .open :=
    (h.registered.opened _).mpr ⟨record, mem_allRecords.mpr (.inr hin), hconn⟩
  unfold HeartbeatLoop.checkTimeout
  simp only [hthere, hrunning, hopen]
  rfl

/-- Neither the timer nor the message of a heartbeat closes anything. -/
theorem startHeartbeat_status (s : HeartbeatLoop) (heartbeat timer : Nat) :
    (s.startHeartbeat heartbeat timer).status = s.status := by
  have hstop : (s.stopHeartbeat heartbeat).status = s.status := by
    unfold HeartbeatLoop.stopHeartbeat
    split
    · rfl
    · split
      · rfl
      · rfl
  unfold HeartbeatLoop.startHeartbeat
  split
  · rfl
  · simp only
    split
    · split
      · exact hstop
      · rfl
    · split
      · exact hstop
      · rfl

theorem registerConnection_status (s : HeartbeatLoop) (record : ConnectionRecord) (timer : Nat) :
    (s.registerConnection record timer).status = s.status := by
  unfold HeartbeatLoop.registerConnection
  simp only
  split
  · rfl
  · exact startHeartbeat_status _ _ _

theorem setConnectionHeartbeat_status (s : HeartbeatLoop) (checkIntervalSeconds idleTimeoutSeconds : ℚ) :
    (s.setConnectionHeartbeat checkIntervalSeconds idleTimeoutSeconds).status = s.status := by
  unfold HeartbeatLoop.setConnectionHeartbeat
  split
  · rfl
  · rfl

theorem makeConnection_status (s : HeartbeatLoop) (conn heartbeat : Nat) :
    (s.makeConnection conn heartbeat).status = Function.update s.status conn .open := by
  unfold HeartbeatLoop.makeConnection
  split
  · rfl
  · rfl

theorem discard_status (s : HeartbeatLoop) (record : ConnectionRecord) :
    (s.discard record).status = Function.update s.status record.connection .free := by
  unfold HeartbeatLoop.discard
  simp only
  split
  · rfl
  · rfl

/-- Timers close connections through their callbacks only. -/
theorem timerStep_status {s s' : HeartbeatLoop} {a : TimerStep} (hcall : a ≠ .next)
    (hs : s.timerStep a = some s') : s'.status = s.status := by
  unfold HeartbeatLoop.timerStep at hs
  split at hs
  · cases hs
  · split at hs
    · cases hs
      rfl
    · exact absurd rfl hcall
    · cases hs
      rfl

theorem refreshConnectionHeartbeat_status (s : HeartbeatLoop) (conn : Nat) :
    (s.refreshConnectionHeartbeat conn).status = s.status := by
  unfold HeartbeatLoop.refreshConnectionHeartbeat
  split
  · rfl
  · split
    · rfl
    · split
      · rfl
      · rfl

/-- A record is found under its connection. -/
theorem Kept.findRecord_eq {s : HeartbeatLoop} (h : s.Kept s.records) {record : ConnectionRecord}
    (hin : record ∈ s.records) : s.findRecord record.connection = some record := by
  have hdistinct : (s.records.map fun record => record.connection).Nodup := by
    have hall := h.registered.distinct
    unfold allRecords at hall
    rw [List.map_append] at hall
    exact (List.nodup_append.mp hall).2.1
  unfold findRecord
  cases hfind : s.records.find? fun other => other.connection == record.connection with
  | none =>
    have hall := List.find?_eq_none.mp hfind record hin
    simp at hall
  | some found =>
    have hsame : found.connection = record.connection := by
      simpa using List.find?_some hfind
    exact congrArg some (List.inj_on_of_nodup_map hdistinct (List.mem_of_find?_eq_some hfind) hin hsame)

/-- **A message refreshes the heartbeat of its connection**, and no other. -/
theorem Kept.refresh_heartbeats {s : HeartbeatLoop} (h : s.Kept s.records) (henabled : s.options.enabled = true)
    {timer heartbeat : Nat} (hlisted : s.queue.Listed timer) (hcallback : s.callback timer = some heartbeat)
    (conn : Nat) : ∃ hb, s.heartbeats heartbeat = some hb ∧
      (s.refreshConnectionHeartbeat conn).heartbeats heartbeat =
        some (if hb.conn = conn then { hb with lastActiveTime := s.queue.clock } else hb) := by
  obtain ⟨record, hin, hb, hheartbeat, hconn, hticks⟩ := h.ofTimer hlisted hcallback
  refine ⟨hb, hticks.there, ?_⟩
  unfold refreshConnectionHeartbeat
  rw [if_neg (by rw [henabled]; decide)]
  by_cases heq : hb.conn = conn
  · have hfind : s.findRecord conn = some record := by
      rw [← heq, ← hconn]
      exact h.findRecord_eq hin
    simp only [hfind, Option.bind_some, hheartbeat, hticks.there, if_pos heq]
    exact Function.update_self _ _ _
  · rw [if_neg heq]
    split
    · exact hticks.there
    · rename_i other hfound
      split
      · exact hticks.there
      · have hne : heartbeat ≠ other := by
          rintro rfl
          obtain ⟨record', hfind, hshares⟩ := Option.bind_eq_some_iff.mp hfound
          have hin' := List.mem_of_find?_eq_some hfind
          have hsame : record' = record := Registered.eq_of_heartbeat h.registered.unshared
            (mem_allRecords.mpr (.inr hin')) (mem_allRecords.mpr (.inr hin)) hshares hheartbeat
          have hconn' : record'.connection = conn := by
            simpa using List.find?_some hfind
          rw [hsame, hconn] at hconn'
          exact heq hconn'
        exact (Function.update_of_ne hne _ _).trans hticks.there

end HeartbeatLoop

/-! ## Steps -/

namespace TimedLoop

variable {delay : Nat} {s s' : TimedLoop}

/-- Connections are closed. -/
theorem Timely.shrink (h : s.Timely delay) {loop : HeartbeatLoop} (hkept : loop.Kept loop.records)
    (hshrinks : s.loop.Shrinks loop) : Timely delay { s with loop := loop } where
  kept := hkept
  enabled hthere := hshrinks.options ▸ h.enabled (hshrinks.heartbeats hthere)
  onTime {timer _ _} hlisted hcallback hthere :=
    (h.onTime (hshrinks.listed hlisted) (hshrinks.callback ▸ hcallback) (hshrinks.heartbeats hthere)).stay
      (hshrinks.queue timer) rfl (.inl rfl)

/-- `set_connection_heartbeat` leaves the idle detection on. -/
theorem Timely.setConnectionHeartbeat (h : s.Timely delay) {checkIntervalSeconds idleTimeoutSeconds : ℚ}
    (hvalid : ¬(checkIntervalSeconds ≤ 0 ∨ idleTimeoutSeconds ≤ 0)) :
    Timely delay { s with
      loop := s.loop.setConnectionHeartbeat checkIntervalSeconds idleTimeoutSeconds } := by
  have hkept := h.kept.setConnectionHeartbeat checkIntervalSeconds idleTimeoutSeconds
  unfold HeartbeatLoop.setConnectionHeartbeat at hkept ⊢
  rw [if_neg hvalid] at hkept ⊢
  exact ⟨hkept, fun _ => rfl, fun hlisted hcallback hthere =>
    (h.onTime hlisted hcallback hthere).stay (.refl _ _) rfl (.inl rfl)⟩

/-- A connection is made, and its heartbeat is not started. -/
theorem Timely.makeConnection (h : s.Timely delay) (hfree : s.loop.creating = none) {conn heartbeat : Nat}
    (hconn : s.loop.status conn = .free) (hheartbeat : s.loop.heartbeats heartbeat = none) :
    Timely delay { s with loop := s.loop.makeConnection conn heartbeat } := by
  have hkept := h.kept.makeConnection hfree hconn hheartbeat
  rw [← s.loop.makeConnection_records conn heartbeat] at hkept
  refine ⟨hkept, ?_, ?_⟩
  · unfold HeartbeatLoop.makeConnection
    split
    · exact fun _ => ‹_›
    · exact fun hthere => h.enabled hthere
  · intro timer other hb hlisted hcallback hthere
    have hqueue : (s.loop.makeConnection conn heartbeat).queue = s.loop.queue ∧
        (s.loop.makeConnection conn heartbeat).callback = s.loop.callback := by
      unfold HeartbeatLoop.makeConnection
      split
      · exact ⟨rfl, rfl⟩
      · exact ⟨rfl, rfl⟩
    simp only [hqueue] at hlisted hcallback
    obtain ⟨_, _, hb', _, _, hticks⟩ := h.kept.ofTimer hlisted hcallback
    have hne : other ≠ heartbeat := by
      rintro rfl
      have hthere' := hticks.there
      rw [hheartbeat] at hthere'
      cases hthere'
    have hsame : (s.loop.makeConnection conn heartbeat).heartbeats other = s.loop.heartbeats other := by
      unfold HeartbeatLoop.makeConnection
      split
      · exact Function.update_of_ne hne _ _
      · rfl
    refine (h.onTime hlisted hcallback (hsame ▸ hthere)).stay ?_ rfl (.inl rfl)
    rw [hqueue.1]
    exact .refl _ _

/-- A message is read. -/
theorem Timely.message (h : s.Timely delay) (conn : Nat) :
    Timely delay ⟨s.loop.refreshConnectionHeartbeat conn,
      Function.update s.heard conn s.loop.queue.clock, s.entered⟩ := by
  have hsame : (s.loop.refreshConnectionHeartbeat conn).queue = s.loop.queue ∧
      (s.loop.refreshConnectionHeartbeat conn).callback = s.loop.callback ∧
      (s.loop.refreshConnectionHeartbeat conn).options = s.loop.options := by
    unfold HeartbeatLoop.refreshConnectionHeartbeat
    split
    · exact ⟨rfl, rfl, rfl⟩
    · split
      · exact ⟨rfl, rfl, rfl⟩
      · split
        · exact ⟨rfl, rfl, rfl⟩
        · exact ⟨rfl, rfl, rfl⟩
  obtain ⟨hqueue, hcallbacks, hoptions⟩ := hsame
  refine ⟨h.kept.refresh conn, fun hthere => ?_, ?_⟩
  · rw [hoptions]
    unfold HeartbeatLoop.refreshConnectionHeartbeat at hthere
    split at hthere
    · exact h.enabled hthere
    · rename_i hon
      simpa using hon
  · intro timer heartbeat hb' hlisted hcallback hthere
    simp only [hqueue, hcallbacks] at hlisted hcallback
    obtain ⟨_, _, hb₀, _, _, hticks⟩ := h.kept.ofTimer hlisted hcallback
    obtain ⟨hb, hbefore, hafter⟩ :=
      h.kept.refresh_heartbeats (h.enabled hticks.there) hlisted hcallback conn
    have hon := h.onTime hlisted hcallback hbefore
    have hpast := hon.past
    obtain rfl : _ = hb' := Option.some.inj (hafter.symm.trans hthere)
    have hundisturbed : TimerQueue.Undisturbed s.loop.queue
        (s.loop.refreshConnectionHeartbeat conn).queue timer := by
      rw [hqueue]
      exact .refl _ _
    by_cases heq : hb.conn = conn
    · have hheard : Function.update s.heard conn s.loop.queue.clock hb.conn = s.loop.queue.clock := by
        rw [heq]
        exact Function.update_self _ _ _
      have hrefreshed : OnTime delay ⟨s.loop.refreshConnectionHeartbeat conn,
          Function.update s.heard conn s.loop.queue.clock, s.entered⟩
          { hb with lastActiveTime := Function.update s.heard conn s.loop.queue.clock hb.conn } timer := by
        refine hon.refresh hundisturbed ?_ ?_ (.inl rfl)
        · simp only [hheard]
          exact hpast
        · simp only [hheard, hqueue]
          exact Int.le_refl _
      rw [if_pos heq]
      simpa only [hheard] using hrefreshed
    · rw [if_neg heq]
      exact hon.stay hundisturbed (Function.update_of_ne heq _ _) (.inl rfl)

/-- The connection in the making has none of the records. -/
theorem Timely.ne_creating (h : s.Timely delay) {record : ConnectionRecord}
    (hcreating : s.loop.creating = some record) {timer heartbeat : Nat} {hb : ConnectionHeartbeat}
    (hlisted : s.loop.queue.Listed timer) (hcallback : s.loop.callback timer = some heartbeat)
    (hthere : s.loop.heartbeats heartbeat = some hb) : hb.conn ≠ record.connection := by
  obtain ⟨other, hin, hb', _, hconn, hticks⟩ := h.kept.ofTimer hlisted hcallback
  obtain rfl : hb' = hb := Option.some.inj (hticks.there.symm.trans hthere)
  have hdistinct := (List.nodup_cons.mp (h.kept.registered_creating hcreating).distinct).1
  rw [← hconn]
  intro heq
  exact hdistinct (List.mem_map.mpr ⟨other, hin, heq⟩)

/-- `create_connection` gives up. -/
theorem Timely.discard (h : s.Timely delay) {record : ConnectionRecord}
    (hcreating : s.loop.creating = some record) :
    Timely delay ⟨s.loop.discard record,
      Function.update s.heard record.connection s.loop.queue.clock, s.entered⟩ := by
  have hkept := h.kept.discard hcreating
  rw [← s.loop.discard_records record] at hkept
  have hsame : (s.loop.discard record).queue = s.loop.queue ∧
      (s.loop.discard record).callback = s.loop.callback ∧
      (s.loop.discard record).options = s.loop.options := by
    unfold HeartbeatLoop.discard
    simp only
    split
    · exact ⟨rfl, rfl, rfl⟩
    · exact ⟨rfl, rfl, rfl⟩
  obtain ⟨hqueue, hcallbacks, hoptions⟩ := hsame
  have hbefore : ∀ {heartbeat hb}, (s.loop.discard record).heartbeats heartbeat = some hb →
      s.loop.heartbeats heartbeat = some hb := by
    intro heartbeat hb hthere
    unfold HeartbeatLoop.discard at hthere
    simp only at hthere
    split at hthere
    · exact hthere
    · exact (HeartbeatLoop.drop_iff.mp hthere).1
  refine ⟨hkept, fun hthere => hoptions ▸ h.enabled (hbefore hthere), ?_⟩
  intro timer heartbeat hb hlisted hcallback hthere
  simp only [hqueue, hcallbacks] at hlisted hcallback
  refine (h.onTime hlisted hcallback (hbefore hthere)).stay ?_ ?_ (.inl rfl)
  · rw [hqueue]
    exact .refl _ _
  · exact Function.update_of_ne (h.ne_creating hcreating hlisted hcallback (hbefore hthere)) _ _

/-- `create_connection` registers its connection: the first check is an interval away. -/
theorem Timely.registerConnection (h : s.Timely delay) {record : ConnectionRecord}
    (hcreating : s.loop.creating = some record) {timer : Nat} (hnew : ¬s.loop.queue.Live timer)
    (hlag : s.loop.queue.lag ≤ delay) : Timely delay ⟨s.loop.registerConnection record timer,
      Function.update s.heard record.connection s.loop.queue.clock, s.entered⟩ := by
  have hkept := h.kept.registerConnection hcreating hnew
  cases hheartbeat : record.heartbeat with
  | none =>
    have hloop : s.loop.registerConnection record timer = { s.loop.eraseRecord record.connection with
        records := record :: (s.loop.eraseRecord record.connection).records, creating := none } := by
      unfold HeartbeatLoop.registerConnection
      simp only [hheartbeat]
    rw [hloop] at hkept ⊢
    refine ⟨hkept, fun hthere => h.enabled hthere, fun hlisted hcallback hthere => ?_⟩
    exact (h.onTime hlisted hcallback hthere).stay (.refl _ _)
      (Function.update_of_ne (h.ne_creating hcreating hlisted hcallback hthere) _ _) (.inl rfl)
  | some heartbeat =>
    obtain ⟨hb, hthere, hstopped, hzero, hcheck, hidle⟩ := h.kept.fresh hcreating hheartbeat
    have hconn : hb.conn = record.connection := by
      have hregistered := h.kept.registered_creating hcreating
      obtain ⟨other, hin, hshares, hconn⟩ := hregistered.owned hthere
      rw [← hconn]
      exact congrArg _ (HeartbeatLoop.Registered.eq_of_heartbeat hregistered.unshared hin
        List.mem_cons_self hshares hheartbeat)
    have hvalid : ¬(hb.checkIntervalSeconds ≤ 0 ∨ hb.idleTimeoutSeconds ≤ 0) := by
      rw [not_or]
      exact ⟨Rat.not_le.mpr hcheck, Rat.not_le.mpr hidle⟩
    have hloop : s.loop.registerConnection record timer =
        { s.loop.eraseRecord record.connection with
          records := record :: (s.loop.eraseRecord record.connection).records
          creating := none
          queue := (s.loop.queue.wait.createTimer timer
            (s.loop.queue.wait.clock + hb.checkInterval * millisecond) hb.checkInterval).insertTimer timer
          callback := Function.update s.loop.callback timer (some heartbeat)
          heartbeats := Function.update s.loop.heartbeats heartbeat (some { hb with
            lastActiveTime := s.loop.queue.clock, timerId := s.loop.queue.nextTimerId, running := true }) } := by
      unfold HeartbeatLoop.registerConnection HeartbeatLoop.startHeartbeat
      simp only [hheartbeat, HeartbeatLoop.eraseRecord, hthere, hstopped, Bool.false_eq_true, if_false,
        if_neg hvalid]
      rfl
    rw [hloop] at hkept ⊢
    refine ⟨hkept, fun _ => h.enabled hthere, ?_⟩
    intro timer' other hb' hlisted hcallback hthere'
    have hindexed := h.kept.indexed.waited.createTimer hnew
      (s.loop.queue.wait.clock + hb.checkInterval * millisecond) hb.checkInterval
    have hclock : s.loop.queue.clock ≤ ((s.loop.queue.wait.createTimer timer
        (s.loop.queue.wait.clock + hb.checkInterval * millisecond) hb.checkInterval).insertTimer timer).clock := by
      show s.loop.queue.clock ≤ s.loop.queue.clock + s.loop.queue.lag + s.loop.queue.lag
      omega
    by_cases heq : timer' = timer
    · -- the timer that was just made
      subst heq
      simp only [Function.update_self, Option.some.injEq] at hcallback
      subst hcallback
      simp only [Function.update_self, Option.some.injEq] at hthere'
      subst hthere'
      have hheard : Function.update s.heard record.connection s.loop.queue.clock hb.conn =
          s.loop.queue.clock := by
        rw [hconn]
        exact Function.update_self _ _ _
      have hmade : ((s.loop.queue.wait.createTimer timer' (s.loop.queue.wait.clock + hb.checkInterval * millisecond)
          hb.checkInterval).insertTimer timer').heap timer' =
            ⟨s.loop.queue.nextTimerId, s.loop.queue.wait.clock + hb.checkInterval * millisecond,
              hb.checkInterval⟩ := Function.update_self _ _ _
      refine ⟨rfl, hheard.symm, hheard.le.trans hclock, ?_, fun _ => ?_, fun hcalling => ?_⟩
      · simp only [hmade]
        rfl
      · have hnonneg := ConnectionHeartbeat.idleTimeout_nonneg hidle
        simp only [hmade, hheard]
        show s.loop.queue.clock + s.loop.queue.lag + hb.checkInterval * millisecond ≤
          s.loop.queue.clock + hb.idleTimeout + hb.checkInterval * millisecond + delay
        omega
      · have hcalling' : s.loop.queue.phase = _ := hcalling
        refine absurd (.inr (.inl ?_)) hnew
        rw [hcalling']
        exact List.mem_cons_self
    · simp only [Function.update_of_ne heq] at hcallback
      have hbefore : s.loop.queue.Listed timer' := by
        have hcreated := ((hindexed.list_iff (.inl List.mem_cons_self) timer').mp hlisted).resolve_left heq
        simp only [TimerQueue.Listed, TimerQueue.createTimer, Function.update_of_ne heq] at hcreated
        exact hcreated
      have hne : other ≠ heartbeat := by
        rintro rfl
        obtain ⟨hb'', hthere'', hvalid'', _⟩ := h.kept.timers hbefore hcallback
        obtain rfl : hb'' = hb := Option.some.inj (hthere''.symm.trans hthere)
        exact hvalid'' hzero
      simp only [Function.update_of_ne hne] at hthere'
      refine (h.onTime hbefore hcallback hthere').stay ?_ ?_ (.inl rfl)
      · exact ⟨Function.update_of_ne heq _ _, id, id, hclock⟩
      · exact Function.update_of_ne (h.ne_creating hcreating hbefore hcallback hthere') _ _

/-- A user makes a timer. -/
theorem Timely.createTimer (h : s.Timely delay) {timer : Nat} (hnew : ¬s.loop.queue.Live timer)
    (expiration interval : Int) : Timely delay { s with
      loop := { s.loop with
        queue := s.loop.queue.createTimer timer expiration interval
        callback := Function.update s.loop.callback timer none } } where
  kept := h.kept.createTimer hnew expiration interval
  enabled hthere := h.enabled hthere
  onTime {timer' _ _} hlisted hcallback hthere := by
    by_cases heq : timer' = timer
    · subst heq
      simp only [Function.update_self] at hcallback
      cases hcallback
    · simp only [Function.update_of_ne heq] at hcallback
      simp only [TimerQueue.Listed, TimerQueue.createTimer, Function.update_of_ne heq] at hlisted
      exact (h.onTime hlisted hcallback hthere).stay (.createTimer heq _ _) rfl (.inl rfl)

/-- The queue takes a step that calls nothing and makes no timer. -/
theorem Timely.stepQueue (h : s.Timely delay) {a : TimerStep} {queue : TimerQueue}
    (hs : s.loop.queue.step a = some queue) (hg : s.Attended delay (.timers a))
    (hkept : HeartbeatLoop.Kept { s.loop with queue := queue } s.loop.records)
    (hcall : a ≠ .next) (hold : ∀ timer expiration interval, a ≠ .create timer expiration interval) :
    Timely delay { s with loop := { s.loop with queue := queue } } where
  kept := hkept
  enabled hthere := h.enabled hthere
  onTime {timer heartbeat hb} hlisted hcallback hthere := by
    have hbefore : s.loop.queue.Listed timer := by
      rcases h.kept.indexed.listed_step hs hlisted with hbefore | ⟨_, hcreated⟩ | ⟨_, _, heq⟩
      · exact hbefore
      · have huser := h.kept.users hcreated
        rw [huser] at hcallback
        cases hcallback
      · exact absurd heq (hold _ _ _)
    have hon := h.onTime hbefore hcallback hthere
    by_cases hreturn : a = .callbackReturns ∧ ∃ expired, s.loop.queue.phase = .calling timer expired
    · -- put back after its check
      obtain ⟨rfl, expiredTimers, hphase⟩ := hreturn
      obtain ⟨_, _, _, _, _, hticks⟩ := h.kept.ofTimer hbefore hcallback
      have hdelay : s.loop.queue.clock - s.entered ≤ delay := by
        refine hg.2.2 rfl timer ?_ hbefore (by rw [hcallback]; exact Option.some_ne_none _)
        rw [hphase]
        rfl
      have hchecked := hon.checked hphase
      cases TimerQueue.step_ends hs with
      | callbackReturns hcalling =>
        rw [hphase] at hcalling
        cases hcalling
        have hheap := TimerQueue.afterCallback_heap expiredTimers hbefore hticks.repeats
        have hclock := s.loop.queue.afterCallback_clock timer expiredTimers
        refine ⟨hon.running, hon.active, ?_, ?_, fun _ => ?_, fun hcalling => ?_⟩
        · simp only [hclock]
          exact hon.past
        · simp only [hheap]
          exact hon.interval
        · simp only [hheap, Timer.reschedule, hon.interval]
          omega
        · simp only [TimerQueue.afterCallback_phase] at hcalling
          cases hcalling
    · refine hon.stay (.step hs hbefore (fun heq => absurd heq hcall) fun heq expired hphase => ?_) rfl
        (.inl rfl)
      exact hreturn ⟨heq, expired, hphase⟩

/-- What becomes of the next timer that has expired. -/
inductive NextEnds (s : TimedLoop) : HeartbeatLoop → Prop where
  /-- It has been cancelled. -/
  | skipped {timer : Nat} {expiredTimers : List Nat} :
      s.loop.queue.phase = .running (timer :: expiredTimers) → ¬s.loop.queue.Listed timer →
      NextEnds s { s.loop with queue := { s.loop.queue with phase := .running expiredTimers } }
  /-- It is a user's. -/
  | user {timer : Nat} {expiredTimers : List Nat} :
      s.loop.queue.phase = .running (timer :: expiredTimers) → s.loop.queue.Listed timer →
      s.loop.callback timer = none →
      NextEnds s { s.loop with queue := { s.loop.queue with phase := .calling timer expiredTimers } }
  /-- The check finds the connection active. -/
  | active {timer heartbeat : Nat} {expiredTimers : List Nat} {h : ConnectionHeartbeat} :
      s.loop.queue.phase = .running (timer :: expiredTimers) → s.loop.queue.Listed timer →
      s.loop.callback timer = some heartbeat → s.loop.heartbeats heartbeat = some h →
      s.loop.queue.clock < s.heard h.conn + h.idleTimeout →
      NextEnds s { s.loop with queue := { s.loop.queue with phase := .calling timer expiredTimers } }
  /-- The check finds it idle. -/
  | idle {timer heartbeat : Nat} {expiredTimers : List Nat} {h : ConnectionHeartbeat} :
      s.loop.queue.phase = .running (timer :: expiredTimers) → s.loop.queue.Listed timer →
      s.loop.callback timer = some heartbeat → s.loop.heartbeats heartbeat = some h →
      s.heard h.conn + h.idleTimeout ≤ s.loop.queue.clock →
      NextEnds s (HeartbeatLoop.closeConnection
        { s.loop with queue := { s.loop.queue with phase := .calling timer expiredTimers } } h.conn)

/-- The queue after the look at the next timer. -/
theorem Timely.kept_next (h : s.Timely delay) {queue : TimerQueue} (hs : s.loop.queue.step .next = some queue) :
    HeartbeatLoop.Kept { s.loop with queue := queue } s.loop.records :=
  h.kept.stepQueue hs trivial fun _ _ _ heq => by cases heq

/-- **A heartbeat's timer closes its connection exactly when that has been idle for the timeout.** -/
theorem Timely.next_ends (h : s.Timely delay) {loop : HeartbeatLoop}
    (hs : s.loop.timerStep .next = some loop) : s.NextEnds loop := by
  unfold HeartbeatLoop.timerStep at hs
  split at hs
  · cases hs
  · rename_i queue hqueue
    have hmoved := h.kept_next hqueue
    simp only at hs
    cases TimerQueue.step_ends hqueue with
    | @skip timer expiredTimers hrunning hnone =>
      cases hs
      refine .skipped hrunning fun hlisted => ?_
      unfold TimerQueue.Listed at hlisted
      rw [hnone] at hlisted
      cases hlisted
    | @call timer found expiredTimers hrunning hfound =>
      have hlive : s.loop.queue.Live timer := .inr (.inl (by rw [hrunning]; exact List.mem_cons_self))
      have hlisted : s.loop.queue.Listed timer := by
        rw [h.kept.indexed.found hlive hfound] at hfound
        exact hfound
      simp only at hs
      split at hs
      · rename_i heartbeat hcallback
        cases hs
        obtain ⟨_, _, hb, _, _, hticks⟩ := h.kept.ofTimer hlisted hcallback
        have hon := h.onTime hlisted hcallback hticks.there
        have hpast := hon.past
        have hactive := hon.active
        rw [hmoved.checkTimeout_eq hlisted hcallback hticks.there hon.running]
        simp only [ConnectionHeartbeat.isTimeout_iff (hactive ▸ hpast)]
        split
        · exact .idle hrunning hlisted hcallback hticks.there (by omega)
        · exact .active hrunning hlisted hcallback hticks.there (by omega)
      · rename_i huser
        cases hs
        exact .user hrunning hlisted huser

/-- The timers that are not called stay as they are. -/
theorem Timely.next_other (h : s.Timely delay) {phase : QueuePhase} {timer called heartbeat : Nat}
    {expiredTimers : List Nat} {hb : ConnectionHeartbeat}
    (hrunning : s.loop.queue.phase = .running (called :: expiredTimers))
    (hphase : phase = .running expiredTimers ∨ phase = .calling called expiredTimers)
    (hlisted : s.loop.queue.Listed timer) (hcallback : s.loop.callback timer = some heartbeat)
    (hthere : s.loop.heartbeats heartbeat = some hb) (hne : timer ≠ called) :
    OnTime delay ⟨{ s.loop with queue := { s.loop.queue with phase := phase } }, s.heard,
      s.loop.queue.clock⟩ hb timer := by
  refine (h.onTime hlisted hcallback hthere).stay ⟨rfl, fun hin => ?_, fun hcalling => ?_, Int.le_refl _⟩ rfl
    (.inr fun expired hcalling => ?_)
  · rw [hrunning] at hin
    have hrest := (List.mem_cons.mp hin).resolve_left hne
    rcases hphase with rfl | rfl
    · exact hrest
    · exact List.mem_cons_of_mem _ hrest
  · simp only at hcalling
    rw [hcalling] at hphase
    rcases hphase with hphase | hphase
    · cases hphase
    · cases hphase
      exact absurd rfl hne
  · rw [hrunning] at hcalling
    cases hcalling

/-- **A timer is called**, and if it is that of a heartbeat, this checks its connection. -/
theorem Timely.next (h : s.Timely delay) {loop : HeartbeatLoop} (hkept : loop.Kept loop.records)
    (hends : s.NextEnds loop) : Timely delay ⟨loop, s.heard, s.loop.queue.clock⟩ := by
  cases hends with
  | @skipped called expiredTimers hrunning hgone =>
    refine ⟨hkept, fun hthere => h.enabled hthere, fun hlisted hcallback hthere => ?_⟩
    refine h.next_other hrunning (.inl rfl) hlisted hcallback hthere ?_
    rintro rfl
    exact hgone hlisted
  | user hrunning _ huser =>
    refine ⟨hkept, fun hthere => h.enabled hthere, fun hlisted hcallback hthere => ?_⟩
    refine h.next_other hrunning (.inr rfl) hlisted hcallback hthere ?_
    rintro rfl
    rw [huser] at hcallback
    cases hcallback
  | @active called heartbeat _ hb hrunning hcalled hcallback hthere hactive =>
    refine ⟨hkept, fun hthere => h.enabled hthere, ?_⟩
    intro timer other hb' hlisted hcallback' hthere'
    by_cases heq : timer = called
    · subst heq
      obtain rfl : heartbeat = other := Option.some.inj (hcallback.symm.trans hcallback')
      obtain rfl : hb = hb' := Option.some.inj (hthere.symm.trans hthere')
      have hon := h.onTime hcalled hcallback hthere
      refine ⟨hon.running, hon.active, hon.past, hon.interval, fun hout => ?_, fun _ => hactive⟩
      exact absurd List.mem_cons_self hout
    · exact h.next_other hrunning (.inr rfl) hlisted hcallback' hthere' heq
  | @idle called heartbeat expiredTimers hb hrunning hcalled hcallback hthere hidle =>
    have hindexed : { s.loop.queue with phase := .calling called expiredTimers }.Indexed :=
      h.kept.indexed.move (by rw [hrunning]; rfl)
    have hshrinks := @HeartbeatLoop.Shrinks.closeConnection
      { s.loop with queue := { s.loop.queue with phase := .calling called expiredTimers } } hindexed hb.conn
    refine ⟨hkept, fun hthere' => ?_, ?_⟩
    · rw [hshrinks.options]
      exact h.enabled (hshrinks.heartbeats hthere')
    intro timer other hb' hlisted hcallback' hthere'
    have hne : timer ≠ called := by
      -- its connection is closed, so its record and its heartbeat are gone
      rintro rfl
      obtain ⟨record, hin, hb'', _, hconn, hticks⟩ := hkept.ofTimer hlisted hcallback'
      have hopen := (hkept.registered.opened _).mpr
        ⟨record, HeartbeatLoop.mem_allRecords.mpr (.inr hin), hconn⟩
      have hsame : hb'' = hb := by
        rw [hshrinks.callback, hcallback] at hcallback'
        cases hcallback'
        exact Option.some.inj ((hshrinks.heartbeats hticks.there).symm.trans hthere)
      rw [hsame, HeartbeatLoop.closeConnection_status] at hopen
      split at hopen
      · rw [Function.update_self] at hopen
        cases hopen
      · rename_i hshut
        exact hshut hopen
    have hother := h.next_other hrunning (.inr rfl) (hshrinks.listed hlisted)
      (hshrinks.callback ▸ hcallback') (hshrinks.heartbeats hthere') hne
    exact hother.stay (hshrinks.queue timer) rfl (.inl rfl)

/-- **Step lemma.** -/
theorem Timely.step (h : s.Timely delay) {a : HeartbeatStep} (hg : s.Attended delay a)
    (hs : s.step a = some s') : s'.Timely delay := by
  obtain ⟨loop, hloop, rfl⟩ := Option.map_eq_some_iff.mp hs
  cases a with
  | setConnectionHeartbeat check idle =>
    cases hloop
    refine h.setConnectionHeartbeat fun hinvalid => ?_
    have hon := hg.1
    simp only [leavesOn, if_pos hinvalid] at hon
    cases hon
  | stop =>
    cases hloop
    exact ⟨h.kept.congr rfl rfl rfl rfl rfl rfl, fun hthere => h.enabled hthere,
      fun hlisted hcallback hthere => (h.onTime hlisted hcallback hthere).stay (.refl _ _) rfl (.inl rfl)⟩
  | create conn heartbeat =>
    simp only [HeartbeatLoop.step] at hloop
    split at hloop
    · rename_i hguard
      obtain ⟨hturn, hconn, hheartbeat⟩ := hguard
      cases hloop
      split
      · exact h.makeConnection (HeartbeatLoop.takesTurn_creating hturn) hconn hheartbeat
      · exact h
    · cases hloop
  | register timer =>
    simp only [HeartbeatLoop.step] at hloop
    split at hloop
    · cases hloop
    · rename_i record hcreating
      split at hloop
      · cases hloop
      · rename_i hnew
        cases hloop
        simp only [heardAfter, hcreating]
        split
        · exact h.registerConnection hcreating hnew (hg.2.1 rfl)
        · exact h.discard hcreating
  | message conn =>
    simp only [HeartbeatLoop.step] at hloop
    split at hloop
    · cases hloop
      exact h.message conn
    · cases hloop
  | close conn =>
    simp only [HeartbeatLoop.step] at hloop
    split at hloop
    · rename_i hturn
      cases hloop
      exact h.shrink (h.kept.closeConnection (HeartbeatLoop.takesTurn_creating hturn) conn)
        (.closeConnection h.kept.indexed conn)
    · cases hloop
  | release conn =>
    simp only [HeartbeatLoop.step] at hloop
    split at hloop
    · rename_i hguard
      cases hloop
      exact h.shrink (h.kept.release hguard.1) ⟨id, rfl, id, .refl _, rfl⟩
    · cases hloop
  | shutdown =>
    simp only [HeartbeatLoop.step] at hloop
    split at hloop
    · rename_i hguard
      cases hloop
      exact h.shrink (h.kept.shutdownTask (HeartbeatLoop.takesTurn_creating hguard.1))
        (.shutdownTask h.kept.indexed)
    · cases hloop
  | timers a =>
    simp only [HeartbeatLoop.step] at hloop
    split at hloop
    · rename_i hguard
      by_cases hcall : a = .next
      · subst hcall
        exact h.next (h.kept.timerStep hguard.1 hguard.2 hloop) (h.next_ends hloop)
      · unfold HeartbeatLoop.timerStep at hloop
        split at hloop
        · cases hloop
        · rename_i queue hqueue
          have hentered : (if HeartbeatStep.timers a = .timers .next then s.loop.queue.clock else s.entered) =
              s.entered := if_neg fun heq => hcall (HeartbeatStep.timers.inj heq)
          rw [hentered]
          split at hloop
          · cases hloop
            cases TimerQueue.step_ends hqueue with
            | create hnew => exact h.createTimer hnew _ _
          · exact absurd rfl hcall
          · rename_i hold _
            cases hloop
            have hold' : ∀ timer expiration interval, a ≠ .create timer expiration interval :=
              fun timer expiration interval heq => hold timer expiration interval heq
            exact h.stepQueue hqueue hg (h.kept.stepQueue hqueue hguard.2 hold') hcall hold'
    · cases hloop

/-! ## The connections that are closed -/

/-- The connections of the table are open. -/
theorem Timely.opened (h : s.Timely delay) {record : ConnectionRecord} (hin : record ∈ s.loop.records) :
    s.loop.status record.connection = .open :=
  (h.kept.registered.opened _).mpr ⟨record, HeartbeatLoop.mem_allRecords.mpr (.inr hin), rfl⟩

/-- They stay so when something happens to another connection. -/
theorem Timely.opened_update (h : s.Timely delay) {record : ConnectionRecord} (hin : record ∈ s.loop.records)
    {conn : Nat} (hne : conn ≠ record.connection) (status : ConnStatus) :
    Function.update s.loop.status conn status record.connection = .open := by
  rw [Function.update_of_ne hne.symm]
  exact h.opened hin

/-- A new connection is none of the table. -/
theorem Timely.opened_create (h : s.Timely delay) {record : ConnectionRecord} (hin : record ∈ s.loop.records)
    {conn heartbeat : Nat} {loop : HeartbeatLoop} (hs : s.loop.step (.create conn heartbeat) = some loop) :
    loop.status record.connection = .open := by
  simp only [HeartbeatLoop.step] at hs
  split at hs
  · rename_i hguard
    have hne : conn ≠ record.connection := by
      rintro rfl
      rw [h.opened hin] at hguard
      cases hguard.2.1
    cases hs
    split
    · rw [HeartbeatLoop.makeConnection_status]
      exact h.opened_update hin hne _
    · exact h.opened hin
  · cases hs

/-- `create_connection` ends with the connection it has made, registered or dropped. -/
theorem Timely.opened_register (h : s.Timely delay) {record : ConnectionRecord} (hin : record ∈ s.loop.records)
    {timer : Nat} {loop : HeartbeatLoop} (hs : s.loop.step (.register timer) = some loop) :
    loop.status record.connection = .open := by
  simp only [HeartbeatLoop.step] at hs
  split at hs
  · cases hs
  · rename_i creating hcreating
    have hne : creating.connection ≠ record.connection := by
      intro heq
      have hdistinct := (List.nodup_cons.mp (h.kept.registered_creating hcreating).distinct).1
      exact hdistinct (List.mem_map.mpr ⟨record, hin, heq.symm⟩)
    split at hs
    · cases hs
    · cases hs
      split
      · rw [HeartbeatLoop.registerConnection_status]
        exact h.opened hin
      · rw [HeartbeatLoop.discard_status]
        exact h.opened_update hin hne _

/-- Only closed connections are let go. -/
theorem Timely.opened_release (h : s.Timely delay) {record : ConnectionRecord} (hin : record ∈ s.loop.records)
    {conn : Nat} {loop : HeartbeatLoop} (hs : s.loop.step (.release conn) = some loop) :
    loop.status record.connection = .open := by
  simp only [HeartbeatLoop.step] at hs
  split at hs
  · rename_i hguard
    have hne : conn ≠ record.connection := by
      rintro rfl
      rw [h.opened hin] at hguard
      cases hguard.1
    cases hs
    exact h.opened_update hin hne _
  · cases hs

/-- A close is that of its own connection. -/
theorem Timely.opened_closeConnection (h : s.Timely delay) {record : ConnectionRecord}
    (hin : record ∈ s.loop.records) {conn : Nat} (hne : conn ≠ record.connection) {loop : HeartbeatLoop}
    (hstatus : loop.status = s.loop.status) :
    (loop.closeConnection conn).status record.connection = .open := by
  rw [HeartbeatLoop.closeConnection_status, hstatus]
  split
  · exact h.opened_update hin hne _
  · exact h.opened hin

/-- The next timer closes a connection of the table only if that is idle. -/
theorem Timely.next_closes (h : s.Timely delay) {loop : HeartbeatLoop}
    (hs : s.loop.timerStep .next = some loop) {record : ConnectionRecord} (hin : record ∈ s.loop.records)
    (hshut : loop.status record.connection ≠ .open) :
    ∃ hb heartbeat, record.heartbeat = some heartbeat ∧ s.loop.heartbeats heartbeat = some hb ∧
      s.heard record.connection + hb.idleTimeout ≤ s.loop.queue.clock := by
  cases h.next_ends hs with
  | skipped | user | active => exact absurd (h.opened hin) hshut
  | @idle _ heartbeat _ hb _ hlisted hcallback hthere hidle =>
    obtain ⟨record', hin', hb', hheartbeat, hconn, hticks⟩ := h.kept.ofTimer hlisted hcallback
    obtain rfl : hb' = hb := Option.some.inj (hticks.there.symm.trans hthere)
    by_cases heq : hb'.conn = record.connection
    · -- the record that the timer belongs to
      have hfind := h.kept.findRecord_eq hin'
      rw [hconn, heq, h.kept.findRecord_eq hin] at hfind
      obtain rfl : record = record' := Option.some.inj hfind
      rw [← heq]
      exact ⟨hb', heartbeat, hheartbeat, hthere, hidle⟩
    · exact (hshut (h.opened_closeConnection hin heq rfl)).elim

/-- What can close a connection of the table. -/
theorem Timely.closes (h : s.Timely delay) {a : HeartbeatStep} (hs : s.step a = some s')
    {record : ConnectionRecord} (hin : record ∈ s.loop.records)
    (hshut : s'.loop.status record.connection ≠ .open) :
    a = .close record.connection ∨ a = .shutdown ∨ a = .timers .next ∧
      ∃ hb heartbeat, record.heartbeat = some heartbeat ∧ s.loop.heartbeats heartbeat = some hb ∧
        s.heard record.connection + hb.idleTimeout ≤ s.loop.queue.clock := by
  obtain ⟨loop, hloop, rfl⟩ := Option.map_eq_some_iff.mp hs
  simp only at hshut
  cases a with
  | setConnectionHeartbeat check idle =>
    cases hloop
    rw [HeartbeatLoop.setConnectionHeartbeat_status] at hshut
    exact absurd (h.opened hin) hshut
  | stop =>
    cases hloop
    exact absurd (h.opened hin) hshut
  | create => exact absurd (h.opened_create hin hloop) hshut
  | register => exact absurd (h.opened_register hin hloop) hshut
  | message conn =>
    simp only [HeartbeatLoop.step] at hloop
    split at hloop
    · cases hloop
      rw [HeartbeatLoop.refreshConnectionHeartbeat_status] at hshut
      exact absurd (h.opened hin) hshut
    · cases hloop
  | close conn =>
    simp only [HeartbeatLoop.step] at hloop
    split at hloop
    · cases hloop
      by_cases heq : conn = record.connection
      · exact .inl (by rw [heq])
      · exact (hshut (h.opened_closeConnection hin heq rfl)).elim
    · cases hloop
  | release => exact absurd (h.opened_release hin hloop) hshut
  | shutdown => exact .inr (.inl rfl)
  | timers a =>
    simp only [HeartbeatLoop.step] at hloop
    split at hloop
    · by_cases hcall : a = .next
      · subst hcall
        exact .inr (.inr ⟨rfl, h.next_closes hloop hin hshut⟩)
      · rw [HeartbeatLoop.timerStep_status hcall hloop] at hshut
        exact absurd (h.opened hin) hshut
    · cases hloop

/-- The timer is in the hands of `on_timerfd_read`, or due to be collected. -/
def BeingChecked (s : TimedLoop) (timer : Nat) : Prop :=
  timer ∈ s.loop.queue.phase.inHand ∨
    s.loop.queue.entry timer ∈ s.loop.queue.expireSet ∧
      (s.loop.queue.heap timer).expiration ≤ s.loop.queue.clock

/-- **Heartbeats close idle connections, in time and no others**: a connection that has one is closed by its
peer, by the user, by the shutdown, or when it has been idle for the timeout; its timer closes it exactly
then; and when it has been idle for the timeout and an interval, that timer is due. -/
theorem idle_connections_close {now : Int} (h : (timedLoop now).Reaches (Attended delay) s)
    {record : ConnectionRecord} (hin : record ∈ s.loop.records) {heartbeat : Nat}
    (hheartbeat : record.heartbeat = some heartbeat) :
    ∃ hb timer, s.loop.Ticks heartbeat hb timer ∧
      (∀ a s', s.step a = some s' → s'.loop.status record.connection ≠ .open →
        a = .close record.connection ∨ a = .shutdown ∨
          a = .timers .next ∧ hb.idleTimeout ≤ s.loop.queue.clock - s.heard record.connection) ∧
      (∀ expiredTimers s', s.loop.queue.phase = .running (timer :: expiredTimers) →
        s.step (.timers .next) = some s' → (s'.loop.status record.connection = .closed ↔
          hb.idleTimeout ≤ s.loop.queue.clock - s.heard record.connection)) ∧
      (hb.idleTimeout + hb.checkInterval * millisecond + delay ≤
        s.loop.queue.clock - s.heard record.connection → s.BeingChecked timer) := by
  have hI : s.Timely delay := by
    refine h.invariant (.create now) fun s a s' hI hg hs => ?_
    exact hI.step hg hs
  obtain ⟨hb, timer, hticks⟩ := hI.kept.ticking hin hheartbeat
  have hlisted := hI.kept.indexed.listed hticks.found
  have hon := hI.onTime hlisted hticks.callback hticks.there
  have hopen := hI.opened hin
  have hconn : hb.conn = record.connection := by
    obtain ⟨record', hin', hb', hshares, hconn, hticks'⟩ := hI.kept.ofTimer hlisted hticks.callback
    obtain rfl : hb' = hb := Option.some.inj (hticks'.there.symm.trans hticks.there)
    have hsame : record' = record := HeartbeatLoop.Registered.eq_of_heartbeat hI.kept.registered.unshared
      (HeartbeatLoop.mem_allRecords.mpr (.inr hin')) (HeartbeatLoop.mem_allRecords.mpr (.inr hin)) hshares
      hheartbeat
    rw [← hconn, hsame]
  refine ⟨hb, timer, hticks, fun a s' hs hshut => ?_, fun expiredTimers s' hrunning hs => ?_, fun hidle => ?_⟩
  · rcases hI.closes hs hin hshut with hclose | hshutdown | ⟨hnext, hb', heartbeat', hshares, hthere, hidle⟩
    · exact .inl hclose
    · exact .inr (.inl hshutdown)
    · obtain rfl : heartbeat' = heartbeat := Option.some.inj (hshares.symm.trans hheartbeat)
      obtain rfl : hb' = hb := Option.some.inj (hthere.symm.trans hticks.there)
      exact .inr (.inr ⟨hnext, by omega⟩)
  · obtain ⟨loop, hloop, rfl⟩ := Option.map_eq_some_iff.mp hs
    simp only [HeartbeatLoop.step] at hloop
    split at hloop
    · have hsame : ∀ {other expired}, s.loop.queue.phase = .running (other :: expired) → other = timer := by
        intro other expired hphase
        rw [hrunning] at hphase
        cases hphase
        rfl
      cases hI.next_ends hloop with
      | skipped hphase hgone =>
        rw [hsame hphase] at hgone
        exact absurd hlisted hgone
      | user hphase _ huser =>
        rw [hsame hphase, hticks.callback] at huser
        cases huser
      | active hphase _ hcallback hthere hactive =>
        rw [hsame hphase, hticks.callback] at hcallback
        cases hcallback
        obtain rfl := Option.some.inj (hthere.symm.trans hticks.there)
        rw [hconn] at hactive
        refine iff_of_false ?_ (by omega)
        simp only [hopen]
        decide
      | idle hphase _ hcallback hthere hidle =>
        rw [hsame hphase, hticks.callback] at hcallback
        cases hcallback
        obtain rfl := Option.some.inj (hthere.symm.trans hticks.there)
        rw [hconn] at hidle ⊢
        refine iff_of_true ?_ (by omega)
        rw [HeartbeatLoop.closeConnection_status, if_pos hopen]
        exact Function.update_self _ _ _
    · cases hloop
  · by_cases hhand : timer ∈ s.loop.queue.phase.inHand
    · exact .inl hhand
    · have hwaits := hon.waits hhand
      rw [hconn] at hwaits
      exact .inr ⟨(hI.kept.indexed.keys _).mpr ⟨hlisted, hhand, rfl⟩, by omega⟩

/-- The silent connection is closed by its second check. -/
theorem idle_connections_close_closedByTick :
    ∃ s ∈ (timedLoop 0).run (timedLoop 0).init (HeartbeatLoop.closedByTick.take 17),
      ∀ s', s.step (.timers .next) = some s' → s'.loop.status 10 = .closed := by
  have hg : (timedLoop 0).Admits (Attended 0) (timedLoop 0).init (HeartbeatLoop.closedByTick.take 17) := by
    decide +kernel
  obtain ⟨s, hs, hphase, hthere, hfound, hin, hidle⟩ :
      ∃ s ∈ (timedLoop 0).run (timedLoop 0).init (HeartbeatLoop.closedByTick.take 17),
        s.loop.queue.phase = .running [30, 31] ∧
          s.loop.heartbeats 20 = some ⟨1, 2, 0, 1, 10, true⟩ ∧ s.loop.queue.timersById 1 = some 30 ∧
            (⟨10, some 20⟩ : ConnectionRecord) ∈ s.loop.records ∧
              s.loop.queue.clock - s.heard 10 = 2000000000 := by
    decide +kernel
  refine ⟨s, hs, fun s' hstep => ?_⟩
  obtain ⟨hb, timer, hticks, -, hcloses, -⟩ := idle_connections_close (.of_run _ hs hg) hin rfl
  obtain rfl := Option.some.inj (hticks.there.symm.trans hthere)
  obtain rfl := Option.some.inj (hticks.found.symm.trans hfound)
  refine (hcloses _ _ hphase hstep).mpr ?_
  simp only [hidle]
  decide +kernel

end TimedLoop

end Tudou
