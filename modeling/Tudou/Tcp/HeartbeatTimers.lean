import Tudou.Tcp.ConnectionHeartbeat
import Tudou.Timer.Cancellation

/-!
# Registry, heartbeats and timers in step

* `InStep` — between two steps of the loop the table has exactly the open connections, and the live timers
  of heartbeats are exactly one for every record that has a heartbeat.
* `Kept` — the invariant, relative to the records that the table or the shutdown task holds.
* `KeepsTimers` — a change of the timer queue that leaves the timers of heartbeats alone.
* `Kept.stopRecord` — a heartbeat is stopped with its record, in whatever callback that is.
* `registry_in_step` — **in every state between loop steps the three are in step.**
-/

namespace Tudou

open Transition

namespace HeartbeatLoop

/-- **Registry, heartbeats and timers are in step.** -/
structure InStep (s : HeartbeatLoop) : Prop where
  table : ∀ conn, (∃ record ∈ s.records, record.connection = conn) ↔ s.status conn = .open
  oneRecord : (s.records.map fun record => record.connection).Nodup
  /-- Every record that has a heartbeat has one timer. -/
  timerOf : ∀ record ∈ s.records, ∀ heartbeat, record.heartbeat = some heartbeat →
    ∃! timer, s.queue.Listed timer ∧ s.callback timer = some heartbeat
  /-- Every timer of a heartbeat is that of one record. -/
  recordOf : ∀ timer heartbeat, s.queue.Listed timer → s.callback timer = some heartbeat →
    ∃! record, record ∈ s.records ∧ record.heartbeat = some heartbeat
  /-- It repeats, and it waits for its expiration. -/
  waits : ∀ timer heartbeat, s.queue.Listed timer → s.callback timer = some heartbeat →
    (s.queue.heap timer).isRepeat = true ∧ s.queue.entry timer ∈ s.queue.expireSet

/-! ## The invariant -/

/-- The connections and the heartbeats are those of the records. -/
structure Registered (status : Nat → ConnStatus) (heartbeats : Nat → Option ConnectionHeartbeat)
    (records : List ConnectionRecord) : Prop where
  distinct : (records.map fun record => record.connection).Nodup
  opened : ∀ conn, status conn = .open ↔ ∃ record ∈ records, record.connection = conn
  unshared : (records.filterMap fun record => record.heartbeat).Nodup
  owned : ∀ {heartbeat h}, heartbeats heartbeat = some h →
    ∃ record ∈ records, record.heartbeat = some heartbeat ∧ record.connection = h.conn

/-- A heartbeat with its timer in the map. -/
structure Ticks (s : HeartbeatLoop) (heartbeat : Nat) (h : ConnectionHeartbeat) (timer : Nat) : Prop where
  there : s.heartbeats heartbeat = some h
  valid : h.timerId ≠ 0
  found : s.queue.timersById h.timerId = some timer
  callback : s.callback timer = some heartbeat
  repeats : (s.queue.heap timer).isRepeat = true

theorem Ticks.move {s s' : HeartbeatLoop} {heartbeat timer : Nat} {hb : ConnectionHeartbeat}
    (h : s.Ticks heartbeat hb timer) (hqueue : s'.queue = s.queue) (hcallback : s'.callback = s.callback)
    (hthere : s'.heartbeats heartbeat = s.heartbeats heartbeat) : s'.Ticks heartbeat hb timer where
  there := hthere.trans h.there
  valid := h.valid
  found := hqueue ▸ h.found
  callback := hcallback ▸ h.callback
  repeats := hqueue ▸ h.repeats

/-- Of the heartbeats all but one stay. -/
theorem drop_iff {heartbeats : Nat → Option ConnectionHeartbeat} {heartbeat other : Nat}
    {hb : ConnectionHeartbeat} : Function.update heartbeats heartbeat none other = some hb ↔
      heartbeats other = some hb ∧ heartbeat ≠ other := by
  by_cases heq : other = heartbeat
  · subst heq
    rw [Function.update_self]
    exact iff_of_false nofun fun h => h.2 rfl
  · rw [Function.update_of_ne heq]
    exact (and_iff_left (Ne.symm heq)).symm

/-- The record of a connection in the making, and those that are held. -/
def allRecords (s : HeartbeatLoop) (held : List ConnectionRecord) : List ConnectionRecord :=
  s.creating.toList ++ held

/-- The invariant, where `held` are the records in the table, or the ones the shutdown task has moved
out of it and not gone through. -/
structure Kept (s : HeartbeatLoop) (held : List ConnectionRecord) : Prop where
  indexed : s.queue.Indexed
  nextId : 0 < s.queue.nextTimerId
  enabled : s.options.enabled = true →
    0 < s.options.checkIntervalSeconds ∧ 0 < s.options.idleTimeoutSeconds
  registered : Registered s.status s.heartbeats (s.allRecords held)
  /-- The heartbeat of a connection in the making is not started. -/
  fresh : ∀ {record heartbeat}, s.creating = some record → record.heartbeat = some heartbeat →
    ∃ h, s.heartbeats heartbeat = some h ∧ h.running = false ∧ h.timerId = 0 ∧
      0 < h.checkIntervalSeconds ∧ 0 < h.idleTimeoutSeconds
  ticking : ∀ {record heartbeat}, record ∈ held → record.heartbeat = some heartbeat →
    ∃ h timer, s.Ticks heartbeat h timer
  timers : ∀ {timer heartbeat}, s.queue.Listed timer → s.callback timer = some heartbeat →
    ∃ h, s.heartbeats heartbeat = some h ∧ h.timerId ≠ 0 ∧ (s.queue.heap timer).id = h.timerId
  users : ∀ {timer}, timer ∈ s.queue.created → s.callback timer = none

theorem Kept.create (now : Int) : (create now).Kept [] where
  indexed := .construct now
  nextId := Nat.one_pos
  enabled h := by cases h
  registered := ⟨List.nodup_nil, fun conn => by simp [HeartbeatLoop.create, allRecords], List.nodup_nil,
    fun h => by cases h⟩
  fresh h := by cases h
  ticking h := by cases h
  timers _ h := by cases h
  users h := by cases h

/-! ## Records -/

/-- A record that shares its heartbeat with none of the others. -/
theorem unshared_cons {record : ConnectionRecord} {records : List ConnectionRecord} :
    ((record :: records).filterMap fun record => record.heartbeat).Nodup ↔
      (∀ heartbeat, record.heartbeat = some heartbeat → ∀ other ∈ records,
        other.heartbeat ≠ some heartbeat) ∧ (records.filterMap fun record => record.heartbeat).Nodup := by
  cases hrecord : record.heartbeat with
  | none =>
    rw [List.filterMap_cons_none hrecord]
    exact (and_iff_right fun _ h => by cases h).symm
  | some heartbeat =>
    rw [List.filterMap_cons_some hrecord, List.nodup_cons, List.mem_filterMap]
    refine and_congr_left fun _ => ⟨?_, ?_⟩
    · intro hnot heartbeat' heq other hother hshares
      cases heq
      exact hnot ⟨other, hother, hshares⟩
    · rintro hnot ⟨other, hother, hshares⟩
      exact hnot heartbeat rfl other hother hshares

/-- Two records with one heartbeat are one. -/
theorem Registered.eq_of_heartbeat {records : List ConnectionRecord}
    (h : (records.filterMap fun record => record.heartbeat).Nodup) {record record' : ConnectionRecord}
    (hr : record ∈ records) (hr' : record' ∈ records) {heartbeat : Nat}
    (hhb : record.heartbeat = some heartbeat) (hhb' : record'.heartbeat = some heartbeat) :
    record = record' := by
  induction records with
  | nil => cases hr
  | cons first rest ih =>
    obtain ⟨hfirst, hrest⟩ := unshared_cons.mp h
    rcases List.mem_cons.mp hr with rfl | hin <;> rcases List.mem_cons.mp hr' with rfl | hin'
    · rfl
    · exact absurd hhb' (hfirst heartbeat hhb record' hin')
    · exact absurd hhb (hfirst heartbeat hhb' record hin)
    · exact ih hrest hin hin'

theorem Registered.perm {status : Nat → ConnStatus} {heartbeats : Nat → Option ConnectionHeartbeat}
    {records records' : List ConnectionRecord} (h : Registered status heartbeats records)
    (hperm : records.Perm records') : Registered status heartbeats records' where
  distinct := (hperm.map _).nodup_iff.mp h.distinct
  opened conn := by simp only [h.opened conn, hperm.mem_iff]
  unshared := (hperm.filterMap _).nodup_iff.mp h.unshared
  owned hthere := by
    obtain ⟨record, hrecord, hrest⟩ := h.owned hthere
    exact ⟨record, hperm.mem_iff.mp hrecord, hrest⟩

/-- A record goes, with its connection closed or destroyed and its heartbeat. -/
theorem Registered.remove {status : Nat → ConnStatus}
    {heartbeats heartbeats' : Nat → Option ConnectionHeartbeat} {record : ConnectionRecord}
    {records : List ConnectionRecord} (h : Registered status heartbeats (record :: records))
    {ends : ConnStatus} (hends : ends ≠ .open)
    (hheartbeats : ∀ {heartbeat hb}, heartbeats' heartbeat = some hb →
      heartbeats heartbeat = some hb ∧ record.heartbeat ≠ some heartbeat) :
    Registered (Function.update status record.connection ends) heartbeats' records := by
  obtain ⟨hnot, hdistinct⟩ := List.nodup_cons.mp h.distinct
  have hother : ∀ other ∈ records, other.connection ≠ record.connection :=
    fun other hin heq => hnot (List.mem_map.mpr ⟨other, hin, heq⟩)
  refine ⟨hdistinct, fun conn => ?_, (unshared_cons.mp h.unshared).2, fun hthere => ?_⟩
  · by_cases heq : conn = record.connection
    · subst heq
      rw [Function.update_self]
      exact iff_of_false hends fun ⟨other, hin, hsame⟩ => hother other hin hsame
    · rw [Function.update_of_ne heq, h.opened conn]
      constructor
      · rintro ⟨other, hin, hconn⟩
        rcases List.mem_cons.mp hin with rfl | hin
        · exact absurd hconn.symm heq
        · exact ⟨other, hin, hconn⟩
      · rintro ⟨other, hin, hconn⟩
        exact ⟨other, List.mem_cons_of_mem _ hin, hconn⟩
  · obtain ⟨hbefore, hne⟩ := hheartbeats hthere
    obtain ⟨other, hin, hheartbeat, hconn⟩ := h.owned hbefore
    rcases List.mem_cons.mp hin with rfl | hin
    · exact absurd hheartbeat hne
    · exact ⟨other, hin, hheartbeat, hconn⟩

/-- A connection is made, with a heartbeat of its own or none. -/
theorem Registered.add {status : Nat → ConnStatus}
    {heartbeats heartbeats' : Nat → Option ConnectionHeartbeat} {record : ConnectionRecord}
    {records : List ConnectionRecord} (h : Registered status heartbeats records)
    (hconn : status record.connection ≠ .open)
    (hnew : ∀ heartbeat, record.heartbeat = some heartbeat → ∀ other ∈ records,
      other.heartbeat ≠ some heartbeat)
    (hheartbeats : ∀ {heartbeat hb}, heartbeats' heartbeat = some hb → heartbeats heartbeat = some hb ∨
      record.heartbeat = some heartbeat ∧ record.connection = hb.conn) :
    Registered (Function.update status record.connection .open) heartbeats' (record :: records) := by
  have hother : ∀ other ∈ records, other.connection ≠ record.connection := by
    intro other hin heq
    exact hconn ((h.opened _).mpr ⟨other, hin, heq⟩)
  refine ⟨?_, fun conn => ?_, unshared_cons.mpr ⟨hnew, h.unshared⟩, fun hthere => ?_⟩
  · refine List.nodup_cons.mpr ⟨fun hin => ?_, h.distinct⟩
    obtain ⟨other, hin, heq⟩ := List.mem_map.mp hin
    exact hother other hin heq
  · by_cases heq : conn = record.connection
    · subst heq
      rw [Function.update_self]
      exact iff_of_true rfl ⟨record, List.mem_cons_self, rfl⟩
    · rw [Function.update_of_ne heq, h.opened conn]
      constructor
      · rintro ⟨other, hin, hsame⟩
        exact ⟨other, List.mem_cons_of_mem _ hin, hsame⟩
      · rintro ⟨other, hin, hsame⟩
        rcases List.mem_cons.mp hin with rfl | hin
        · exact absurd hsame.symm heq
        · exact ⟨other, hin, hsame⟩
  · rcases hheartbeats hthere with hbefore | ⟨hheartbeat, hsame⟩
    · obtain ⟨other, hin, hrest⟩ := h.owned hbefore
      exact ⟨other, List.mem_cons_of_mem _ hin, hrest⟩
    · exact ⟨record, List.mem_cons_self, hheartbeat, hsame⟩

/-- A heartbeat keeps its connection. -/
theorem Registered.setHeartbeat {status : Nat → ConnStatus}
    {heartbeats : Nat → Option ConnectionHeartbeat} {records : List ConnectionRecord}
    (h : Registered status heartbeats records) {heartbeat : Nat} {hb hb' : ConnectionHeartbeat}
    (hthere : heartbeats heartbeat = some hb) (hconn : hb'.conn = hb.conn) :
    Registered status (Function.update heartbeats heartbeat (some hb')) records := by
  refine ⟨h.distinct, h.opened, h.unshared, fun {other hb''} hother => ?_⟩
  by_cases heq : other = heartbeat
  · subst heq
    rw [Function.update_self] at hother
    cases hother
    rw [hconn]
    exact h.owned hthere
  · rw [Function.update_of_ne heq] at hother
    exact h.owned hother

/-- A record in the making, or one that is held. -/
theorem mem_allRecords {s : HeartbeatLoop} {held : List ConnectionRecord} {record : ConnectionRecord} :
    record ∈ s.allRecords held ↔ s.creating = some record ∨ record ∈ held := by
  unfold allRecords
  rw [List.mem_append, Option.mem_toList]

/-- The timer of a heartbeat is that of a held record. -/
theorem Kept.ofTimer {s : HeartbeatLoop} {held : List ConnectionRecord} (h : s.Kept held)
    {timer heartbeat : Nat} (hlisted : s.queue.Listed timer) (hcallback : s.callback timer = some heartbeat) :
    ∃ record ∈ held, ∃ hb, record.heartbeat = some heartbeat ∧ record.connection = hb.conn ∧
      s.Ticks heartbeat hb timer := by
  obtain ⟨hb, hthere, hvalid, hid⟩ := h.timers hlisted hcallback
  obtain ⟨record, hrecord, hheartbeat, hconn⟩ := h.registered.owned hthere
  rcases mem_allRecords.mp hrecord with hcreating | hheld
  · obtain ⟨hb', hthere', _, hzero, _⟩ := h.fresh hcreating hheartbeat
    obtain rfl : hb' = hb := Option.some.inj (hthere'.symm.trans hthere)
    exact absurd hzero hvalid
  · obtain ⟨hb', timer', hticks⟩ := h.ticking hheld hheartbeat
    obtain rfl : hb' = hb := Option.some.inj (hticks.there.symm.trans hthere)
    have hfound := hticks.found
    rw [← hid] at hfound
    obtain rfl : timer = timer' := Option.some.inj (hlisted.symm.trans hfound)
    exact ⟨record, hheld, hb', hheartbeat, hconn, hticks⟩

/-- A heartbeat has no second timer. -/
theorem Kept.timer_unique {s : HeartbeatLoop} {held : List ConnectionRecord} (h : s.Kept held)
    {timer timer' heartbeat : Nat} (hlisted : s.queue.Listed timer)
    (hcallback : s.callback timer = some heartbeat) (hlisted' : s.queue.Listed timer')
    (hcallback' : s.callback timer' = some heartbeat) : timer = timer' := by
  obtain ⟨hb, hthere, _, hid⟩ := h.timers hlisted hcallback
  obtain ⟨hb', hthere', _, hid'⟩ := h.timers hlisted' hcallback'
  obtain rfl : hb = hb' := Option.some.inj (hthere.symm.trans hthere')
  exact h.indexed.idInj (.inr (.inr hlisted)) (.inr (.inr hlisted')) (hid.trans hid'.symm)

/-- **What the invariant says between loop steps.** -/
theorem Kept.inStep {s : HeartbeatLoop} (h : s.Kept s.records) (hidle : s.queue.phase = .idle)
    (hfree : s.creating = none) : s.InStep := by
  have hall : s.allRecords s.records = s.records := by
    unfold allRecords
    rw [hfree]
    rfl
  have hregistered := h.registered
  rw [hall] at hregistered
  refine ⟨fun conn => (hregistered.opened conn).symm, hregistered.distinct, ?_, ?_, ?_⟩
  · intro record hrecord heartbeat hheartbeat
    obtain ⟨hb, timer, hticks⟩ := h.ticking hrecord hheartbeat
    have hlisted := h.indexed.listed hticks.found
    exact ⟨timer, ⟨hlisted, hticks.callback⟩, fun timer' h' =>
      h.timer_unique h'.1 h'.2 hlisted hticks.callback⟩
  · intro timer heartbeat hlisted hcallback
    obtain ⟨record, hheld, _, hheartbeat, _⟩ := h.ofTimer hlisted hcallback
    exact ⟨record, ⟨hheld, hheartbeat⟩, fun record' h' =>
      Registered.eq_of_heartbeat hregistered.unshared h'.1 hheld h'.2 hheartbeat⟩
  · intro timer heartbeat hlisted hcallback
    obtain ⟨_, _, _, _, _, hticks⟩ := h.ofTimer hlisted hcallback
    refine ⟨hticks.repeats, (h.indexed.keys _).mpr ⟨hlisted, ?_, rfl⟩⟩
    rw [hidle]
    exact List.not_mem_nil

end HeartbeatLoop

/-! ## The timer queue -/

/-- The queue changes, and the timers of heartbeats stay in the map as they are. -/
structure KeepsTimers (q q' : TimerQueue) (callback callback' : Nat → Option Nat) : Prop where
  stay : ∀ {timerId timer heartbeat}, q.timersById timerId = some timer →
    callback timer = some heartbeat → (q.heap timer).isRepeat = true →
    q'.timersById timerId = some timer ∧ callback' timer = some heartbeat ∧
      (q'.heap timer).isRepeat = true
  noMore : ∀ {timer heartbeat}, q'.Listed timer → callback' timer = some heartbeat →
    q.Listed timer ∧ callback timer = some heartbeat ∧ (q'.heap timer).id = (q.heap timer).id

/-- A change of neither the map nor the timers. -/
theorem KeepsTimers.same {q q' : TimerQueue} (callback : Nat → Option Nat)
    (hmap : q'.timersById = q.timersById) (hheap : q'.heap = q.heap) : KeepsTimers q q' callback callback where
  stay hfound hcallback hrepeat := by
    rw [hmap, hheap]
    exact ⟨hfound, hcallback, hrepeat⟩
  noMore hlisted hcallback := by
    unfold TimerQueue.Listed at hlisted
    rw [hmap, hheap] at hlisted
    rw [hheap]
    exact ⟨hlisted, hcallback, rfl⟩

/-- A user makes a timer. -/
theorem KeepsTimers.createTimer {q : TimerQueue} (hq : q.Indexed) (callback : Nat → Option Nat) {timer : Nat}
    (hnew : ¬q.Live timer) (expiration interval : Int) :
    KeepsTimers q (q.createTimer timer expiration interval) callback (Function.update callback timer none) := by
  have hne : ∀ {timer'}, q.Listed timer' → timer' ≠ timer := by
    rintro timer' hlisted rfl
    exact hnew (.inr (.inr hlisted))
  refine ⟨?_, ?_⟩
  · intro timerId timer' heartbeat hfound hcallback hrepeat
    have hother := hne (hq.listed hfound)
    refine ⟨hfound, ?_, ?_⟩
    · rw [Function.update_of_ne hother]
      exact hcallback
    · simp only [TimerQueue.createTimer, Function.update_of_ne hother]
      exact hrepeat
  · intro timer' heartbeat hlisted hcallback
    by_cases heq : timer' = timer
    · subst heq
      rw [Function.update_self] at hcallback
      cases hcallback
    · rw [Function.update_of_ne heq] at hcallback
      simp only [TimerQueue.Listed, TimerQueue.createTimer, Function.update_of_ne heq] at hlisted ⊢
      exact ⟨hlisted, hcallback, trivial⟩

/-- A user's timer gets into the map. -/
theorem KeepsTimers.insertTimer {q : TimerQueue} (hq : q.Indexed) {callback : Nat → Option Nat} {timer : Nat}
    (hcreated : timer ∈ q.created) (huser : callback timer = none) :
    KeepsTimers q (q.insertTimer timer) callback callback := by
  refine ⟨?_, ?_⟩
  · intro timerId timer' heartbeat hfound hcallback hrepeat
    refine ⟨?_, hcallback, hrepeat⟩
    have hne : timerId ≠ (q.heap timer).id := by
      rintro rfl
      obtain rfl := hq.found (.inl hcreated) hfound
      rw [huser] at hcallback
      cases hcallback
    exact (Function.update_of_ne hne _ _).trans hfound
  · intro timer' heartbeat hlisted hcallback
    rcases (hq.list_iff (.inl hcreated) timer').mp hlisted with rfl | hlisted
    · rw [huser] at hcallback
      cases hcallback
    · exact ⟨hlisted, hcallback, rfl⟩

/-- A timer that is none of a heartbeat leaves the map. -/
theorem KeepsTimers.drop {q q' : TimerQueue} (hq : q.Indexed) {callback : Nat → Option Nat}
    {timerId timer : Nat} (hfound : q.timersById timerId = some timer)
    (hother : callback timer = none ∨ (q.heap timer).isRepeat = false)
    (hmap : q'.timersById = Function.update q.timersById timerId none) (hheap : q'.heap = q.heap) :
    KeepsTimers q q' callback callback := by
  refine ⟨?_, ?_⟩
  · intro timerId' timer' heartbeat hfound' hcallback hrepeat
    have hne : timerId' ≠ timerId := by
      rintro rfl
      obtain rfl : timer = timer' := Option.some.inj (hfound.symm.trans hfound')
      rcases hother with huser | honce
      · rw [huser] at hcallback
        cases hcallback
      · rw [honce] at hrepeat
        cases hrepeat
    rw [hmap, hheap, Function.update_of_ne hne]
    exact ⟨hfound', hcallback, hrepeat⟩
  · intro timer' heartbeat hlisted hcallback
    unfold TimerQueue.Listed at hlisted
    rw [hmap, hheap] at hlisted
    rw [hheap]
    exact ⟨((hq.drop_iff hfound timer').mp hlisted).2, hcallback, rfl⟩

/-- After its callback a repeating timer is put back, and one that does not repeat goes. -/
theorem KeepsTimers.afterCallback {q : TimerQueue} (hq : q.Indexed) (callback : Nat → Option Nat) {timer : Nat}
    {expiredTimers : List Nat} (hphase : q.phase = .calling timer expiredTimers) :
    KeepsTimers q (q.afterCallback timer expiredTimers) callback callback := by
  have hlive : q.Live timer := .inr (.inl (by rw [hphase]; exact List.mem_cons_self))
  unfold TimerQueue.afterCallback
  simp only
  split
  · exact .same callback rfl rfl
  · rename_i timer' hfound
    obtain rfl := hq.found hlive hfound
    split
    · -- `reschedule` keeps the id and the interval
      have hid : ∀ timer, (Function.update q.heap timer' ((q.heap timer').reschedule q.clock) timer).id =
          (q.heap timer).id ∧
          (Function.update q.heap timer' ((q.heap timer').reschedule q.clock) timer).isRepeat =
            (q.heap timer).isRepeat := by
        intro timer
        by_cases heq : timer = timer'
        · subst heq
          rw [Function.update_self]
          exact ⟨rfl, rfl⟩
        · rw [Function.update_of_ne heq]
          exact ⟨rfl, rfl⟩
      refine ⟨?_, ?_⟩
      · intro timerId timer heartbeat hfound hcallback hrepeat
        exact ⟨hfound, hcallback, (hid timer).2.trans hrepeat⟩
      · intro timer heartbeat hlisted hcallback
        unfold TimerQueue.Listed at hlisted
        simp only [(hid timer).1] at hlisted
        exact ⟨hlisted, hcallback, (hid timer).1⟩
    · rename_i honce
      exact .drop hq hfound (.inr (Bool.eq_false_iff.mpr honce)) rfl rfl

/-- `cancel` takes the timer it finds from the map. -/
theorem TimerQueue.eraseTimer_map {q : TimerQueue} {timerId timer : Nat}
    (hfound : q.timersById timerId = some timer) :
    (q.eraseTimer timerId).timersById = Function.update q.timersById timerId none := by
  unfold TimerQueue.eraseTimer
  rw [hfound]
  rfl

theorem TimerQueue.Indexed.listed_eraseTimer {q : TimerQueue} (hq : q.Indexed) {timerId timer : Nat}
    (hfound : q.timersById timerId = some timer) (timer' : Nat) :
    (q.eraseTimer timerId).Listed timer' ↔ timer' ≠ timer ∧ q.Listed timer' := by
  unfold TimerQueue.Listed
  rw [TimerQueue.eraseTimer_map hfound, (q.eraseTimer_frame timerId).2.1]
  exact hq.drop_iff hfound timer'

namespace HeartbeatLoop

/-- Cancelling the timer of a heartbeat leaves the one of another in the map. -/
theorem Ticks.found_other {s : HeartbeatLoop} {heartbeat other timer timer' : Nat}
    {hb hb' : ConnectionHeartbeat} (h : s.Ticks heartbeat hb timer) (h' : s.Ticks other hb' timer')
    (hne : heartbeat ≠ other) :
    (s.queue.eraseTimer hb.timerId).timersById hb'.timerId = some timer' := by
  have hid : hb'.timerId ≠ hb.timerId := by
    intro heq
    have hfound := h'.found
    rw [heq, h.found] at hfound
    cases hfound
    exact hne (Option.some.inj (h.callback.symm.trans h'.callback))
  rw [TimerQueue.eraseTimer_map h.found, Function.update_of_ne hid]
  exact h'.found

/-! ## Steps -/

/-- What the invariant is about. -/
theorem Kept.congr {s s' : HeartbeatLoop} {held : List ConnectionRecord} (h : s.Kept held)
    (hqueue : s'.queue = s.queue) (hcallback : s'.callback = s.callback) (hoptions : s'.options = s.options)
    (hstatus : s'.status = s.status) (hheartbeats : s'.heartbeats = s.heartbeats)
    (hcreating : s'.creating = s.creating) : s'.Kept held := by
  obtain ⟨queue, callback, running, options, status, heartbeats, records, creating⟩ := s
  obtain ⟨queue', callback', running', options', status', heartbeats', records', creating'⟩ := s'
  simp only at hqueue hcallback hoptions hstatus hheartbeats hcreating
  subst hqueue hcallback hoptions hstatus hheartbeats hcreating
  obtain ⟨h1, h2, h3, h4, h5, h6, h7, h8⟩ := h
  refine ⟨h1, h2, h3, h4, h5, fun hrecord hheartbeat => ?_, h7, h8⟩
  obtain ⟨hb, timer, hticks⟩ := h6 hrecord hheartbeat
  exact ⟨hb, timer, hticks.move rfl rfl rfl⟩

theorem Kept.perm {s : HeartbeatLoop} {held held' : List ConnectionRecord} (h : s.Kept held)
    (hperm : held.Perm held') : s.Kept held' :=
  { h with
    registered := h.registered.perm (hperm.append_left _)
    ticking := fun hrecord => h.ticking (hperm.mem_iff.mpr hrecord) }

/-- The timer queue moves on. -/
theorem Kept.moveQueue {s : HeartbeatLoop} {held : List ConnectionRecord} (h : s.Kept held)
    {queue : TimerQueue} {callback : Nat → Option Nat} (hindexed : queue.Indexed)
    (hnextId : s.queue.nextTimerId ≤ queue.nextTimerId)
    (hkeeps : KeepsTimers s.queue queue s.callback callback)
    (husers : ∀ {timer}, timer ∈ queue.created → callback timer = none) :
    Kept { s with queue := queue, callback := callback } held := by
  refine ⟨hindexed, h.nextId.trans_le hnextId, h.enabled, h.registered, h.fresh, ?_, ?_, husers⟩
  · intro record heartbeat hrecord hheartbeat
    obtain ⟨hb, timer, hticks⟩ := h.ticking hrecord hheartbeat
    obtain ⟨hfound, hcallback, hrepeats⟩ := hkeeps.stay hticks.found hticks.callback hticks.repeats
    exact ⟨hb, timer, hticks.there, hticks.valid, hfound, hcallback, hrepeats⟩
  · intro timer heartbeat hlisted hcallback
    obtain ⟨hlistedBefore, hcallbackBefore, hid⟩ := hkeeps.noMore hlisted hcallback
    obtain ⟨hb, hthere, hvalid, hsame⟩ := h.timers hlistedBefore hcallbackBefore
    exact ⟨hb, hthere, hvalid, hid.trans hsame⟩

/-- The loop thread is held up. -/
theorem Kept.waited {s : HeartbeatLoop} {held : List ConnectionRecord} (h : s.Kept held) :
    Kept { s with queue := s.queue.wait } held :=
  h.moveQueue h.indexed.waited le_rfl (.same _ rfl rfl) h.users

/-- A timer is made that is no heartbeat's yet. -/
theorem Kept.createTimer {s : HeartbeatLoop} {held : List ConnectionRecord} (h : s.Kept held) {timer : Nat}
    (hnew : ¬s.queue.Live timer) (expiration interval : Int) :
    Kept { s with
      queue := s.queue.createTimer timer expiration interval
      callback := Function.update s.callback timer none } held := by
  refine h.moveQueue (h.indexed.createTimer hnew _ _) (Nat.le_succ _)
    (.createTimer h.indexed s.callback hnew _ _) fun {timer'} hin => ?_
  rcases List.mem_cons.mp hin with rfl | hbefore
  · exact Function.update_self _ _ _
  · have hne : timer' ≠ timer := by
      rintro rfl
      exact hnew (.inl hbefore)
    exact (Function.update_of_ne hne _ _).trans (h.users hbefore)

/-- The heartbeat of a held record is stopped: its timer leaves the map, in whatever callback that is. -/
theorem Kept.stopRecord {s : HeartbeatLoop} {record : ConnectionRecord} {held : List ConnectionRecord}
    (h : s.Kept (record :: held)) :
    ((s.stopRecord record).setStatus record.connection .closed).Kept held := by
  have hperm : (s.allRecords (record :: held)).Perm (record :: s.allRecords held) := List.perm_middle
  have hregistered := h.registered.perm hperm
  cases hheartbeat : record.heartbeat with
  | none =>
    have hstop : s.stopRecord record = s := by
      unfold HeartbeatLoop.stopRecord
      rw [hheartbeat]
    rw [hstop]
    refine ⟨h.indexed, h.nextId, h.enabled, ?_, h.fresh, ?_, h.timers, h.users⟩
    · refine hregistered.remove (by decide) fun hthere => ⟨hthere, ?_⟩
      rw [hheartbeat]
      exact nofun
    · intro other heartbeat hin hshares
      obtain ⟨hb, timer, hticks⟩ := h.ticking (List.mem_cons_of_mem _ hin) hshares
      exact ⟨hb, timer, hticks.move rfl rfl rfl⟩
  | some heartbeat =>
    obtain ⟨hb, timer, hticks⟩ := h.ticking List.mem_cons_self hheartbeat
    have hlisted := h.indexed.listed hticks.found
    have hstop : s.stopRecord record =
        { s with
          queue := s.queue.eraseTimer hb.timerId
          heartbeats := Function.update s.heartbeats heartbeat none } := by
      unfold HeartbeatLoop.stopRecord HeartbeatLoop.stopHeartbeat
      simp only [hheartbeat, hticks.there, if_neg hticks.valid]
      simp only [dropHeartbeat, setHeartbeat, Function.update_idem]
    rw [hstop]
    have hothers := (unshared_cons.mp hregistered.unshared).1 heartbeat hheartbeat
    obtain ⟨hnextId, hheap, hcreated⟩ := s.queue.eraseTimer_frame hb.timerId
    have hstays : ∀ {other hb'}, heartbeat ≠ other → s.heartbeats other = some hb' →
        Function.update s.heartbeats heartbeat none other = some hb' :=
      fun hne hthere => drop_iff.mpr ⟨hthere, hne⟩
    refine ⟨h.indexed.eraseTimer _, hnextId.symm ▸ h.nextId, h.enabled, ?_, ?_, ?_, ?_, ?_⟩
    · refine hregistered.remove (by decide) fun hthere => ?_
      rw [hheartbeat, ne_eq, Option.some_inj]
      exact drop_iff.mp hthere
    · intro other otherHeartbeat hcreating hshares
      have hne : heartbeat ≠ otherHeartbeat := by
        rintro rfl
        exact hothers other (mem_allRecords.mpr (.inl hcreating)) hshares
      obtain ⟨hb', hthere, hrest⟩ := h.fresh hcreating hshares
      exact ⟨hb', hstays hne hthere, hrest⟩
    · intro other otherHeartbeat hin hshares
      have hne : heartbeat ≠ otherHeartbeat := by
        rintro rfl
        exact hothers other (mem_allRecords.mpr (.inr hin)) hshares
      obtain ⟨hb', timer', hticks'⟩ := h.ticking (List.mem_cons_of_mem _ hin) hshares
      refine ⟨hb', timer', hstays hne hticks'.there, hticks'.valid, hticks.found_other hticks' hne,
        hticks'.callback, ?_⟩
      show ((s.queue.eraseTimer hb.timerId).heap timer').isRepeat = true
      rw [hheap]
      exact hticks'.repeats
    · intro timer' otherHeartbeat hlisted' hcallback
      obtain ⟨hother, hbefore⟩ := (h.indexed.listed_eraseTimer hticks.found timer').mp hlisted'
      obtain ⟨hb', hthere, hvalid, hid⟩ := h.timers hbefore hcallback
      have hne : heartbeat ≠ otherHeartbeat := by
        rintro rfl
        exact hother (h.timer_unique hbefore hcallback hlisted hticks.callback)
      refine ⟨hb', hstays hne hthere, hvalid, ?_⟩
      show ((s.queue.eraseTimer hb.timerId).heap timer').id = hb'.timerId
      rw [hheap]
      exact hid
    · intro timer' hin
      exact h.users (hcreated ▸ hin)

/-- The record that is found is the one that is erased. -/
theorem perm_of_find {records : List ConnectionRecord} {p : ConnectionRecord → Bool}
    {record : ConnectionRecord} (h : records.find? p = some record) :
    records.Perm (record :: records.eraseP p) := by
  obtain ⟨hfound, before, after, rfl, hbefore⟩ := List.find?_eq_some_iff_append.mp h
  have hnot : ∀ other ∈ before, ¬p other = true := by
    intro other hin
    simpa using hbefore other hin
  rw [List.eraseP_append_right _ hnot, List.eraseP_cons_of_pos hfound]
  exact List.perm_middle

/-- Nothing is made while the loop runs anything else. -/
theorem stopRecord_frame (s : HeartbeatLoop) (record : ConnectionRecord) :
    (s.stopRecord record).records = s.records ∧ (s.stopRecord record).status = s.status ∧
      (s.stopRecord record).creating = s.creating := by
  unfold HeartbeatLoop.stopRecord
  split
  · exact ⟨rfl, rfl, rfl⟩
  · unfold HeartbeatLoop.stopHeartbeat
    split
    · exact ⟨rfl, rfl, rfl⟩
    · split
      · exact ⟨rfl, rfl, rfl⟩
      · exact ⟨rfl, rfl, rfl⟩

/-- Stopping a heartbeat has nothing to do with the table and the connections. -/
theorem stopRecord_comm (s : HeartbeatLoop) (record : ConnectionRecord) (records : List ConnectionRecord)
    (status : Nat → ConnStatus) :
    HeartbeatLoop.stopRecord { s with records := records, status := status } record =
      { s.stopRecord record with records := records, status := status } := by
  unfold HeartbeatLoop.stopRecord
  split
  · rfl
  · unfold HeartbeatLoop.stopHeartbeat
    simp only
    split
    · rfl
    · split
      · rfl
      · rfl

theorem Kept.closeConnection {s : HeartbeatLoop} (h : s.Kept s.records) (hfree : s.creating = none)
    (conn : Nat) : (s.closeConnection conn).Kept (s.closeConnection conn).records := by
  unfold HeartbeatLoop.closeConnection
  split
  · rename_i hopen
    obtain ⟨record, hrecord, hconn⟩ := (h.registered.opened conn).mp hopen
    have hin : record ∈ s.records := by
      rcases mem_allRecords.mp hrecord with hcreating | hin
      · rw [hfree] at hcreating
        cases hcreating
      · exact hin
    unfold HeartbeatLoop.removeConnection
    split
    · rename_i hnone
      have hall := List.find?_eq_none.mp hnone record hin
      simp [hconn] at hall
    · rename_i found hfound
      have hsame : found.connection = conn := by
        simpa using List.find?_some hfound
      have hkept := (h.perm (perm_of_find hfound)).stopRecord
      have hstep : ((s.setStatus conn .closed).eraseRecord conn).stopRecord found =
          { (s.stopRecord found).setStatus conn .closed with
            records := s.records.eraseP fun record => record.connection == conn } := by
        have hstatus := (s.stopRecord_frame found).2.1
        simp only [setStatus, eraseRecord]
        rw [stopRecord_comm, hstatus]
      rw [hstep]
      rw [hsame] at hkept
      exact hkept.congr rfl rfl rfl rfl rfl rfl
  · exact h

/-- A heartbeat changes, but not whose it is nor its timer. -/
theorem Kept.setHeartbeat {s : HeartbeatLoop} {held : List ConnectionRecord} (h : s.Kept held)
    {heartbeat : Nat} {hb hb' : ConnectionHeartbeat} (hthere : s.heartbeats heartbeat = some hb)
    (hconn : hb'.conn = hb.conn) (htimer : hb'.timerId = hb.timerId) (hrunning : hb'.running = hb.running)
    (hcheck : hb'.checkIntervalSeconds = hb.checkIntervalSeconds)
    (hidle : hb'.idleTimeoutSeconds = hb.idleTimeoutSeconds) :
    (s.setHeartbeat heartbeat hb').Kept held := by
  have hlook : ∀ {other hb''}, s.heartbeats other = some hb'' →
      ∃ new, (s.setHeartbeat heartbeat hb').heartbeats other = some new ∧ new.timerId = hb''.timerId ∧
        new.running = hb''.running ∧ new.checkIntervalSeconds = hb''.checkIntervalSeconds ∧
        new.idleTimeoutSeconds = hb''.idleTimeoutSeconds := by
    intro other hb'' hother
    by_cases heq : other = heartbeat
    · subst heq
      obtain rfl : hb = hb'' := Option.some.inj (hthere.symm.trans hother)
      exact ⟨hb', Function.update_self _ _ _, htimer, hrunning, hcheck, hidle⟩
    · exact ⟨hb'', (Function.update_of_ne heq _ _).trans hother, rfl, rfl, rfl, rfl⟩
  refine ⟨h.indexed, h.nextId, h.enabled, h.registered.setHeartbeat hthere hconn, ?_, ?_, ?_, h.users⟩
  · intro record other hcreating hshares
    obtain ⟨hb'', hother, hnot, hzero, hpos⟩ := h.fresh hcreating hshares
    obtain ⟨new, hnew, htimer, hrunning, hcheck, hidle⟩ := hlook hother
    exact ⟨new, hnew, hrunning.trans hnot, htimer.trans hzero, hcheck.symm ▸ hpos.1, hidle.symm ▸ hpos.2⟩
  · intro record other hin hshares
    obtain ⟨hb'', timer, hticks⟩ := h.ticking hin hshares
    obtain ⟨new, hnew, htimer, _⟩ := hlook hticks.there
    refine ⟨new, timer, hnew, htimer.symm ▸ hticks.valid, ?_, hticks.callback, hticks.repeats⟩
    rw [htimer]
    exact hticks.found
  · intro timer other hlisted hcallback
    obtain ⟨hb'', hother, hvalid, hid⟩ := h.timers hlisted hcallback
    obtain ⟨new, hnew, htimer, _⟩ := hlook hother
    exact ⟨new, hnew, htimer.symm ▸ hvalid, hid.trans htimer.symm⟩

theorem Kept.refresh {s : HeartbeatLoop} (h : s.Kept s.records) (conn : Nat) :
    (s.refreshConnectionHeartbeat conn).Kept (s.refreshConnectionHeartbeat conn).records := by
  unfold refreshConnectionHeartbeat
  split
  · exact h
  · split
    · exact h
    · split
      · exact h
      · rename_i hthere
        exact h.setHeartbeat hthere rfl rfl rfl rfl rfl

/-- **The tick**: a heartbeat whose timer is called closes its own connection or nothing. -/
theorem Kept.checkTimeout {s : HeartbeatLoop} (h : s.Kept s.records) (hfree : s.creating = none)
    {timer heartbeat : Nat} (hlisted : s.queue.Listed timer) (hcallback : s.callback timer = some heartbeat) :
    (s.checkTimeout heartbeat).Kept (s.checkTimeout heartbeat).records := by
  obtain ⟨record, hin, hb, hheartbeat, hconn, hticks⟩ := h.ofTimer hlisted hcallback
  have hopen : s.status hb.conn = .open :=
    (h.registered.opened _).mpr ⟨record, mem_allRecords.mpr (.inr hin), hconn⟩
  unfold HeartbeatLoop.checkTimeout
  simp only [hticks.there]
  split
  · exact h
  · rw [if_neg (by rw [hopen]; decide)]
    split
    · exact h.closeConnection hfree _
    · exact h

/-- The shutdown task, from any record on. -/
theorem Kept.shutRecords {s : HeartbeatLoop} {held : List ConnectionRecord} (h : s.Kept held)
    (hfree : s.creating = none) :
    (held.foldl shutRecord s).Kept [] ∧ (held.foldl shutRecord s).records = s.records ∧
      (held.foldl shutRecord s).creating = none := by
  induction held generalizing s with
  | nil => exact ⟨h, rfl, hfree⟩
  | cons record held ih =>
    obtain ⟨hrecords, hstatus, hcreating⟩ := s.stopRecord_frame record
    have hopen : s.status record.connection = .open :=
      (h.registered.opened _).mpr ⟨record, mem_allRecords.mpr (.inr List.mem_cons_self), rfl⟩
    have hshut : s.shutRecord record = (s.stopRecord record).setStatus record.connection .closed := by
      unfold HeartbeatLoop.shutRecord
      simp only [hstatus]
      exact if_pos hopen
    rw [List.foldl_cons, hshut]
    obtain ⟨hkept, hsame, hnone⟩ := ih h.stopRecord (hcreating.trans hfree)
    exact ⟨hkept, hsame.trans hrecords, hnone⟩

theorem Kept.shutdownTask {s : HeartbeatLoop} (h : s.Kept s.records) (hfree : s.creating = none) :
    s.shutdownTask.Kept s.shutdownTask.records := by
  have hmoved : Kept { s with records := [] } s.records := h.congr rfl rfl rfl rfl rfl rfl
  obtain ⟨hkept, hrecords, _⟩ := hmoved.shutRecords hfree
  unfold HeartbeatLoop.shutdownTask
  rw [hrecords]
  exact hkept

/-- `create_connection` makes a connection. -/
theorem Kept.makeConnection {s : HeartbeatLoop} {held : List ConnectionRecord} (h : s.Kept held)
    (hfree : s.creating = none) {conn heartbeat : Nat} (hconn : s.status conn = .free)
    (hheartbeat : s.heartbeats heartbeat = none) : (s.makeConnection conn heartbeat).Kept held := by
  have hregistered : Registered s.status s.heartbeats held := by
    have hall := h.registered
    unfold allRecords at hall
    rw [hfree] at hall
    exact hall
  have hclosed : s.status conn ≠ .open := by
    rw [hconn]
    decide
  have hkeeps : ∀ {other hb}, s.heartbeats other = some hb → other ≠ heartbeat := by
    rintro other hb hthere rfl
    rw [hheartbeat] at hthere
    cases hthere
  unfold HeartbeatLoop.makeConnection
  split
  · rename_i henabled
    have hlook : ∀ {hb other hb'}, s.heartbeats other = some hb' →
        Function.update s.heartbeats heartbeat hb other = some hb' :=
      fun hthere => (Function.update_of_ne (hkeeps hthere) _ _).trans hthere
    refine ⟨h.indexed, h.nextId, h.enabled, ?_, ?_, ?_, ?_, h.users⟩
    · refine @Registered.add _ _ _ ⟨conn, some heartbeat⟩ _ hregistered hclosed ?_ ?_
      · intro other heq other' hin hshares
        cases heq
        obtain ⟨hb, timer, hticks⟩ := h.ticking hin hshares
        exact hkeeps hticks.there rfl
      · intro other hb hthere
        change Function.update s.heartbeats heartbeat _ other = some hb at hthere
        rw [Function.update_apply] at hthere
        split at hthere
        · rename_i heq
          cases hthere
          exact .inr ⟨by rw [heq], rfl⟩
        · exact .inl hthere
    · intro record other hcreating hshares
      cases hcreating
      cases hshares
      exact ⟨_, Function.update_self _ _ _, rfl, rfl, h.enabled henabled⟩
    · intro record other hin hshares
      obtain ⟨hb, timer, hticks⟩ := h.ticking hin hshares
      exact ⟨hb, timer, hticks.move rfl rfl ((hlook hticks.there).trans hticks.there.symm)⟩
    · intro timer other hlisted hcallback
      obtain ⟨hb, hthere, hrest⟩ := h.timers hlisted hcallback
      exact ⟨hb, hlook hthere, hrest⟩
  · refine ⟨h.indexed, h.nextId, h.enabled, ?_, ?_, ?_, h.timers, h.users⟩
    · exact @Registered.add _ _ _ ⟨conn, none⟩ _ hregistered hclosed (fun _ heq => by cases heq) .inl
    · intro record other hcreating hshares
      cases hcreating
      cases hshares
    · intro record other hin hshares
      obtain ⟨hb, timer, hticks⟩ := h.ticking hin hshares
      exact ⟨hb, timer, hticks.move rfl rfl rfl⟩

/-- The connection in the making is one of those of the loop. -/
theorem Kept.registered_creating {s : HeartbeatLoop} {held : List ConnectionRecord} (h : s.Kept held)
    {record : ConnectionRecord} (hcreating : s.creating = some record) :
    Registered s.status s.heartbeats (record :: held) := by
  have hall := h.registered
  unfold allRecords at hall
  rw [hcreating] at hall
  exact hall

/-- It returns a null pointer. -/
theorem Kept.discard {s : HeartbeatLoop} {held : List ConnectionRecord} (h : s.Kept held)
    {record : ConnectionRecord} (hcreating : s.creating = some record) : (s.discard record).Kept held := by
  have hregistered := h.registered_creating hcreating
  have hdropped : ∀ {heartbeats' : Nat → Option ConnectionHeartbeat},
      (∀ {other hb}, heartbeats' other = some hb ↔
        s.heartbeats other = some hb ∧ record.heartbeat ≠ some other) →
      Kept { s.setStatus record.connection .free with creating := none, heartbeats := heartbeats' } held := by
    intro heartbeats' hlook
    refine ⟨h.indexed, h.nextId, h.enabled, ?_, nofun, ?_, ?_, h.users⟩
    · exact hregistered.remove (by decide) hlook.mp
    · intro other heartbeat hin hshares
      obtain ⟨hb, timer, hticks⟩ := h.ticking hin hshares
      have hne : record.heartbeat ≠ some heartbeat := fun heq =>
        (unshared_cons.mp hregistered.unshared).1 heartbeat heq other hin hshares
      exact ⟨hb, timer, hlook.mpr ⟨hticks.there, hne⟩, hticks.valid, hticks.found, hticks.callback,
        hticks.repeats⟩
    · intro timer heartbeat hlisted hcallback
      obtain ⟨hb, hthere, hvalid, hid⟩ := h.timers hlisted hcallback
      refine ⟨hb, hlook.mpr ⟨hthere, fun heq => ?_⟩, hvalid, hid⟩
      -- its heartbeat has no timer yet
      obtain ⟨hb', hthere', _, hzero, _⟩ := h.fresh hcreating heq
      obtain rfl : hb' = hb := Option.some.inj (hthere'.symm.trans hthere)
      exact hvalid hzero
  unfold HeartbeatLoop.discard
  simp only
  split
  · rename_i hnone
    refine @hdropped s.heartbeats fun {other hb} => ?_
    rw [hnone]
    exact (and_iff_left nofun).symm
  · rename_i heartbeat hsome
    refine @hdropped (Function.update s.heartbeats heartbeat none) fun {other hb} => ?_
    rw [hsome, ne_eq, Option.some_inj]
    exact drop_iff

/-- **A heartbeat is started**: the timer made for it gets into the map with its record. -/
theorem Kept.started {s : HeartbeatLoop} {held : List ConnectionRecord} (h : s.Kept held)
    {record : ConnectionRecord} (hcreating : s.creating = some record) {heartbeat : Nat}
    (hheartbeat : record.heartbeat = some heartbeat) {timer : Nat} (hcreated : timer ∈ s.queue.created)
    (hrepeats : (s.queue.heap timer).isRepeat = true) (hid : (s.queue.heap timer).id ≠ 0)
    {hb hb' : ConnectionHeartbeat} (hthere : s.heartbeats heartbeat = some hb) (hconn : hb'.conn = hb.conn)
    (htimer : hb'.timerId = (s.queue.heap timer).id) :
    Kept { s with
      queue := s.queue.insertTimer timer
      callback := Function.update s.callback timer (some heartbeat)
      heartbeats := Function.update s.heartbeats heartbeat (some hb')
      creating := none } (record :: held) := by
  have hregistered := h.registered_creating hcreating
  have hlive : s.queue.Live timer := .inl hcreated
  have huser := h.users hcreated
  have hlook : ∀ {other}, other ≠ heartbeat →
      Function.update s.heartbeats heartbeat (some hb') other = s.heartbeats other :=
    fun hne => Function.update_of_ne hne _ _
  have hcallback : ∀ {timer'}, timer' ≠ timer →
      Function.update s.callback timer (some heartbeat) timer' = s.callback timer' :=
    fun hne => Function.update_of_ne hne _ _
  -- the heartbeat had no timer before
  have hnone : ∀ {timer'}, s.queue.Listed timer' → s.callback timer' ≠ some heartbeat := by
    intro timer' hlisted hshares
    obtain ⟨hb'', hthere', hvalid, _⟩ := h.timers hlisted hshares
    obtain ⟨hbNew, htherenew, _, hzero, _⟩ := h.fresh hcreating hheartbeat
    obtain rfl : hbNew = hb'' := Option.some.inj (htherenew.symm.trans hthere')
    exact hvalid hzero
  refine ⟨h.indexed.insertTimer hcreated, h.nextId, h.enabled, hregistered.setHeartbeat hthere hconn,
    nofun, ?_, ?_, ?_⟩
  · intro other otherHeartbeat hin hshares
    rcases List.mem_cons.mp hin with rfl | hin
    · obtain rfl : heartbeat = otherHeartbeat := Option.some.inj (hheartbeat.symm.trans hshares)
      refine ⟨hb', timer, Function.update_self _ _ _, htimer.symm ▸ hid, ?_, Function.update_self _ _ _,
        hrepeats⟩
      rw [htimer]
      exact Function.update_self _ _ _
    · have hne : otherHeartbeat ≠ heartbeat := by
        rintro rfl
        exact (unshared_cons.mp hregistered.unshared).1 _ hheartbeat other hin hshares
      obtain ⟨hb'', timer', hticks⟩ := h.ticking hin hshares
      have hother : timer' ≠ timer := by
        rintro rfl
        have hshares' := hticks.callback
        rw [huser] at hshares'
        cases hshares'
      have hfound : (s.queue.insertTimer timer).timersById hb''.timerId = some timer' :=
        ((KeepsTimers.insertTimer h.indexed hcreated huser).stay hticks.found hticks.callback
          hticks.repeats).1
      exact ⟨hb'', timer', (hlook hne).trans hticks.there, hticks.valid, hfound,
        (hcallback hother).trans hticks.callback, hticks.repeats⟩
  · intro timer' otherHeartbeat hlisted hshares
    rcases (h.indexed.list_iff hlive timer').mp hlisted with rfl | hbefore
    · change Function.update s.callback timer' (some heartbeat) timer' = some otherHeartbeat at hshares
      rw [Function.update_self] at hshares
      cases hshares
      exact ⟨hb', Function.update_self _ _ _, htimer.symm ▸ hid, htimer.symm⟩
    · have hother : timer' ≠ timer := by
        rintro rfl
        exact (h.indexed.pending hcreated).2 hbefore
      have hshares' := (hcallback hother).symm.trans hshares
      have hne : otherHeartbeat ≠ heartbeat := by
        rintro rfl
        exact hnone hbefore hshares'
      obtain ⟨hb'', hthereOld, hrest⟩ := h.timers hbefore hshares'
      exact ⟨hb'', (hlook hne).trans hthereOld, hrest⟩
  · intro timer' hin
    have hmem := (h.indexed.createdNodup.mem_erase_iff).mp hin
    exact (hcallback hmem.1).trans (h.users hmem.2)

/-- `create_connection` registers its connection, and starts the heartbeat. -/
theorem Kept.registerConnection {s : HeartbeatLoop} (h : s.Kept s.records) {record : ConnectionRecord}
    (hcreating : s.creating = some record) {timer : Nat} (hnew : ¬s.queue.Live timer) :
    (s.registerConnection record timer).Kept (s.registerConnection record timer).records := by
  have hregistered := h.registered_creating hcreating
  have herase : s.records.eraseP (fun other => other.connection == record.connection) = s.records := by
    refine List.eraseP_of_forall_not fun other hin heq => ?_
    exact (List.nodup_cons.mp hregistered.distinct).1 (List.mem_map.mpr ⟨other, hin, by simpa using heq⟩)
  unfold HeartbeatLoop.registerConnection
  simp only [eraseRecord, herase]
  split
  · rename_i hnone
    refine ⟨h.indexed, h.nextId, h.enabled, hregistered, nofun, ?_, h.timers, h.users⟩
    intro other heartbeat hin hshares
    rcases List.mem_cons.mp hin with rfl | hin
    · rw [hnone] at hshares
      cases hshares
    · obtain ⟨hb, timer, hticks⟩ := h.ticking hin hshares
      exact ⟨hb, timer, hticks.move rfl rfl rfl⟩
  · rename_i heartbeat hsome
    obtain ⟨hb, hthere, hstopped, hzero, hcheck, hidle⟩ := h.fresh hcreating hsome
    unfold HeartbeatLoop.startHeartbeat
    simp only [hthere, hstopped, Bool.false_eq_true, if_false]
    have hvalid : ¬(hb.checkIntervalSeconds ≤ 0 ∨ hb.idleTimeoutSeconds ≤ 0) := by
      rw [not_or]
      exact ⟨Rat.not_le.mpr hcheck, Rat.not_le.mpr hidle⟩
    simp only [if_neg hvalid]
    unfold runEvery
    simp only
    generalize hinterval : (if toMilliseconds hb.checkIntervalSeconds ≤ 0 then 1
      else toMilliseconds hb.checkIntervalSeconds) = interval
    have hpos : 0 < interval := by
      rw [← hinterval]
      split
      · decide
      · omega
    generalize s.queue.wait.clock + interval * millisecond = expiration
    -- `add_timer` on the loop thread: the timer is made, and inserted at once
    have hmade := h.waited.createTimer hnew expiration interval
    have hself : (s.queue.wait.createTimer timer expiration interval).heap timer =
        ⟨s.queue.nextTimerId, expiration, interval⟩ := Function.update_self _ _ _
    have hticks := fun started : ConnectionHeartbeat => @Kept.started _ _ hmade _ hcreating _ hsome timer
      List.mem_cons_self (by rw [hself]; exact decide_eq_true hpos) (by rw [hself]; exact h.nextId.ne')
      _ started hthere
    have hkept := hticks { hb with
      lastActiveTime := s.queue.clock, timerId := s.queue.nextTimerId, running := true } rfl (by rw [hself])
    refine hkept.congr rfl ?_ rfl rfl rfl rfl
    simp only [HeartbeatLoop.setHeartbeat, Function.update_idem]

theorem Kept.setConnectionHeartbeat {s : HeartbeatLoop} {held : List ConnectionRecord} (h : s.Kept held)
    (checkIntervalSeconds idleTimeoutSeconds : ℚ) :
    (s.setConnectionHeartbeat checkIntervalSeconds idleTimeoutSeconds).Kept held := by
  have hoptions : ∀ {options : ConnectionHeartbeatOptions},
      (options.enabled = true → 0 < options.checkIntervalSeconds ∧ 0 < options.idleTimeoutSeconds) →
      Kept { s with options := options } held := by
    intro options hvalid
    refine ⟨h.indexed, h.nextId, hvalid, h.registered, h.fresh, fun hin hshares => ?_, h.timers, h.users⟩
    obtain ⟨hb, timer, hticks⟩ := h.ticking hin hshares
    exact ⟨hb, timer, hticks.move rfl rfl rfl⟩
  unfold HeartbeatLoop.setConnectionHeartbeat
  split
  · exact hoptions nofun
  · rename_i hvalid
    rw [not_or] at hvalid
    exact hoptions fun _ => ⟨Rat.not_le.mp hvalid.1, Rat.not_le.mp hvalid.2⟩

/-- A closed connection is destroyed. -/
theorem Kept.release {s : HeartbeatLoop} {held : List ConnectionRecord} (h : s.Kept held) {conn : Nat}
    (hclosed : s.status conn = .closed) : (s.setStatus conn .free).Kept held := by
  have hopened : ∀ other, Function.update s.status conn .free other = .open ↔ s.status other = .open := by
    intro other
    by_cases heq : other = conn
    · subst heq
      rw [Function.update_self, hclosed]
      exact iff_of_false nofun nofun
    · rw [Function.update_of_ne heq]
  have hregistered := h.registered
  refine ⟨h.indexed, h.nextId, h.enabled, ?_, h.fresh, fun hin hshares => ?_, h.timers, h.users⟩
  · exact ⟨hregistered.distinct, fun other => (hopened other).trans (hregistered.opened other),
      hregistered.unshared, hregistered.owned⟩
  · obtain ⟨hb, timer, hticks⟩ := h.ticking hin hshares
    exact ⟨hb, timer, hticks.move rfl rfl rfl⟩

/-- The timer queue takes a step that makes no timer. -/
theorem Kept.stepQueue {s : HeartbeatLoop} {held : List ConnectionRecord} (h : s.Kept held)
    {a : TimerStep} {queue : TimerQueue} (hs : s.queue.step a = some queue) (hown : s.cancelsOwn a)
    (hold : ∀ timer expiration interval, a ≠ .create timer expiration interval) :
    Kept { s with queue := queue } held := by
  refine h.moveQueue (h.indexed.step hs) (TimerQueue.nextTimerId_le_step hs) ?_ ?_
  · cases TimerQueue.step_ends hs with
    | create _ => exact absurd rfl (hold _ _ _)
    | insert _ hcreated => exact .insertTimer h.indexed hcreated (h.users hcreated)
    | @erase timerId _ =>
      unfold TimerQueue.eraseTimer
      split
      · rename_i timer hfound
        exact .drop h.indexed hfound (.inl (hown timer hfound)) rfl rfl
      · exact .same _ rfl rfl
    | callbackReturns hphase => exact .afterCallback h.indexed _ hphase
    | read _ | skip _ _ | call _ _ | sync _ | tick | holdUp | expire _ _ => exact .same _ rfl rfl
  · intro timer hcreated
    rcases h.indexed.pending_step hs ⟨hcreated, rfl⟩ with ⟨hpending, _⟩ | ⟨_, _, _, heq⟩
    · exact h.users hpending.1
    · exact absurd heq (hold _ _ _)

/-- **The timer queue takes a step**, and a heartbeat whose timer is called checks its connection. -/
theorem Kept.timerStep {s s' : HeartbeatLoop} (h : s.Kept s.records) {a : TimerStep}
    (hfree : s.creating = none ∨ elsewhere a = true) (hown : s.cancelsOwn a)
    (hs : s.timerStep a = some s') : s'.Kept s'.records := by
  unfold HeartbeatLoop.timerStep at hs
  split at hs
  · cases hs
  · rename_i queue hqueue
    split at hs
    · cases hs
      cases TimerQueue.step_ends hqueue with
      | create hnew => exact h.createTimer hnew _ _
    · have hmoved := h.stepQueue hqueue trivial nofun
      have hnone : s.creating = none := hfree.resolve_right nofun
      simp only at hs
      split at hs
      · rename_i timer expiredTimers hphase
        split at hs
        · rename_i heartbeat hcallback
          cases hs
          have hlisted : queue.Listed timer := by
            cases TimerQueue.step_ends hqueue with
            | skip => cases hphase
            | call hrunning hfound =>
              cases hphase
              have hlive : s.queue.Live timer := .inr (.inl (by rw [hrunning]; exact List.mem_cons_self))
              rw [h.indexed.found hlive hfound] at hfound
              exact hfound
          exact hmoved.checkTimeout hnone hlisted hcallback
        · cases hs
          exact hmoved
      · cases hs
        exact hmoved
    · rename_i hold _
      cases hs
      exact h.stepQueue hqueue hown fun timer expiration interval heq => hold timer expiration interval heq

theorem takesTurn_creating {s : HeartbeatLoop} (h : s.takesTurn = true) : s.creating = none := by
  unfold takesTurn at h
  rw [Bool.and_eq_true] at h
  exact Option.isNone_iff_eq_none.mp h.1

/-- **Step lemma**: whatever happens to the loop. -/
theorem Kept.step {s s' : HeartbeatLoop} {a : HeartbeatStep} (h : s.Kept s.records)
    (hs : s.step a = some s') : s'.Kept s'.records := by
  cases a with
  | setConnectionHeartbeat check idle =>
    cases hs
    rw [setConnectionHeartbeat_records]
    exact h.setConnectionHeartbeat check idle
  | stop =>
    cases hs
    exact h.congr rfl rfl rfl rfl rfl rfl
  | create conn heartbeat =>
    simp only [HeartbeatLoop.step] at hs
    split at hs
    · rename_i hguard
      obtain ⟨hturn, hconn, hheartbeat⟩ := hguard
      cases hs
      split
      · rw [makeConnection_records]
        exact h.makeConnection (takesTurn_creating hturn) hconn hheartbeat
      · exact h
    · cases hs
  | register timer =>
    simp only [HeartbeatLoop.step] at hs
    split at hs
    · cases hs
    · rename_i record hcreating
      split at hs
      · cases hs
      · rename_i hnew
        cases hs
        split
        · exact h.registerConnection hcreating hnew
        · rw [discard_records]
          exact h.discard hcreating
  | message conn =>
    simp only [HeartbeatLoop.step] at hs
    split at hs
    · cases hs
      exact h.refresh conn
    · cases hs
  | close conn =>
    simp only [HeartbeatLoop.step] at hs
    split at hs
    · rename_i hturn
      cases hs
      exact h.closeConnection (takesTurn_creating hturn) conn
    · cases hs
  | release conn =>
    simp only [HeartbeatLoop.step] at hs
    split at hs
    · rename_i hguard
      cases hs
      exact h.release hguard.1
    · cases hs
  | shutdown =>
    simp only [HeartbeatLoop.step] at hs
    split at hs
    · rename_i hguard
      cases hs
      exact h.shutdownTask (takesTurn_creating hguard.1)
    · cases hs
  | timers a =>
    simp only [HeartbeatLoop.step] at hs
    split at hs
    · rename_i hguard
      exact h.timerStep hguard.1 hguard.2 hs
    · cases hs

/-- **Registry, heartbeats and timers stay in step**, over every run of the loop. -/
theorem registry_in_step {now : Int} {s : HeartbeatLoop} (h : (heartbeatLoop now).Reachable s)
    (hidle : s.queue.phase = .idle) (hfree : s.creating = none) : s.InStep := by
  have hkept : s.Kept s.records := System.Reaches.invariant
    (I := fun s : HeartbeatLoop => s.Kept s.records) (Kept.create now)
    (fun _ _ _ hI _ hs => hI.step hs) h
  exact hkept.inStep hidle hfree

/-- Two connections with heartbeats; the first is silent, and its second tick closes it inside the callback
of its own timer. -/
def closedByTick : List HeartbeatStep :=
  [.setConnectionHeartbeat 1 2, .create 10 20, .register 30, .create 11 21, .register 31,
    .timers (.tick 1000000000), .timers .expire, .timers .read, .timers .next, .timers .callbackReturns,
    .timers .next, .timers .callbackReturns, .timers .sync, .message 11, .timers (.tick 1000000000),
    .timers .expire, .timers .read, .timers .next, .timers .callbackReturns, .timers .next,
    .timers .callbackReturns, .timers .sync]

theorem registry_in_step_closedByTick :
    ∃ s ∈ (heartbeatLoop 0).run (heartbeatLoop 0).init closedByTick,
      s.records = [⟨11, some 21⟩] ∧ ¬s.queue.Listed 30 ∧ s.InStep := by
  obtain ⟨s, hs, hidle, hfree, hrecords, hgone⟩ :
      ∃ s ∈ (heartbeatLoop 0).run (heartbeatLoop 0).init closedByTick,
        s.queue.phase = .idle ∧ s.creating = none ∧ s.records = [⟨11, some 21⟩] ∧ ¬s.queue.Listed 30 := by
    decide +kernel
  exact ⟨s, hs, hrecords, hgone, registry_in_step (.of_run _ hs) hidle hfree⟩

end HeartbeatLoop

end Tudou
