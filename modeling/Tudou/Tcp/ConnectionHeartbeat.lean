import Mathlib.Data.Rat.Defs
import Tudou.Tcp.ConnectionTable
import Tudou.Timer.TimerIndex

/-!
# One loop of a `TcpServer`: records, heartbeats and timers

`create_connection`, `remove_connection` and the functor of `shutdown_connections` in
`src/tudou/tcp/TcpServer.cpp`, `src/tudou/tcp/ConnectionHeartbeat.cpp` and the timer queue of the loop they
run on.

* `ConnectionHeartbeat`, `ConnectionRecord` — the objects, by address; a timer's callback is the heartbeat
  whose `check_timeout` it calls, if it is that of a heartbeat.
* `startHeartbeat`, `stopHeartbeat`, `checkTimeout`, `closeConnection`, `shutdownTask` — the code.
* `heartbeatLoop` — the transition system: what happens on the loop, user timers and the clock included.

A close runs to the end of `remove_connection`; what the user's callback does then are further steps, and
so is what a user's timer does. A heartbeat's own tick runs inside the callback of its timer. Seconds are
rational numbers and their products exact, where the code multiplies doubles.
-/

namespace Tudou

open Transition

structure ConnectionHeartbeatOptions where
  enabled : Bool
  checkIntervalSeconds : ℚ
  idleTimeoutSeconds : ℚ
  deriving DecidableEq

structure ConnectionHeartbeat where
  checkIntervalSeconds : ℚ
  idleTimeoutSeconds : ℚ
  lastActiveTime : Int
  /-- Zero is no timer. -/
  timerId : Nat
  /-- `conn_`, a `weak_ptr`. -/
  conn : Nat
  running : Bool
  deriving DecidableEq

structure ConnectionRecord where
  connection : Nat
  heartbeat : Option Nat
  deriving DecidableEq, Repr

structure HeartbeatLoop where
  queue : TimerQueue
  callback : Nat → Option Nat
  /-- `state_ == ServerState::Running`. -/
  running : Bool
  options : ConnectionHeartbeatOptions
  /-- The connections of the loop, with their `isClosed_`. -/
  status : Nat → ConnStatus
  /-- The heartbeats, as long as something refers to them. -/
  heartbeats : Nat → Option ConnectionHeartbeat
  /-- The loop's table in `connectionRecordsByLoop_`. -/
  records : List ConnectionRecord
  /-- `create_connection` has made a connection and its heartbeat and not read the state again. -/
  creating : Option ConnectionRecord

/-- What happens to the loop. -/
inductive HeartbeatStep where
  | setConnectionHeartbeat (checkIntervalSeconds idleTimeoutSeconds : ℚ)
  /-- `stop()`, or `shutdown_connections` on the main thread: the state is not `Running` any more. -/
  | stop
  /-- `create_connection` up to its second check; the connection and its heartbeat get free addresses. -/
  | create (conn heartbeat : Nat)
  /-- The rest of `create_connection`; the timer gets a free address. -/
  | register (timer : Nat)
  | message (conn : Nat)
  /-- `close_connection`, for the peer, an error or a `force_close`. -/
  | close (conn : Nat)
  /-- The last reference to a closed connection goes. -/
  | release (conn : Nat)
  /-- The functor of `shutdown_connections`. -/
  | shutdown
  /-- The timer queue: `on_timerfd_read`, the user's timers, the clock and the kernel. -/
  | timers (a : TimerStep)
  deriving DecidableEq

/-- `duration_cast<milliseconds>`, and `static_cast<long long>(seconds * 1000.0)`.  The code rounds the product
to a double before it truncates: just below a whole number it can come out one millisecond larger. -/
def toMilliseconds (seconds : ℚ) : Int := (seconds * 1000).num.tdiv (seconds * 1000).den

namespace ConnectionHeartbeat

/-- `is_timeout(now)`. -/
def isTimeout (h : ConnectionHeartbeat) (now : Int) : Bool :=
  toMilliseconds h.idleTimeoutSeconds ≤ (now - h.lastActiveTime).tdiv millisecond

end ConnectionHeartbeat

namespace HeartbeatLoop

def create (now : Int) : HeartbeatLoop where
  queue := TimerQueue.construct now
  callback _ := none
  running := true
  options := ⟨false, 0, 0⟩
  status _ := .free
  heartbeats _ := none
  records := []
  creating := none

def setHeartbeat (s : HeartbeatLoop) (heartbeat : Nat) (h : ConnectionHeartbeat) : HeartbeatLoop :=
  { s with heartbeats := Function.update s.heartbeats heartbeat (some h) }

def dropHeartbeat (s : HeartbeatLoop) (heartbeat : Nat) : HeartbeatLoop :=
  { s with heartbeats := Function.update s.heartbeats heartbeat none }

def setStatus (s : HeartbeatLoop) (conn : Nat) (status : ConnStatus) : HeartbeatLoop :=
  { s with status := Function.update s.status conn status }

/-- `set_connection_heartbeat(checkIntervalSeconds, idleTimeoutSeconds)`. -/
def setConnectionHeartbeat (s : HeartbeatLoop) (checkIntervalSeconds idleTimeoutSeconds : ℚ) :
    HeartbeatLoop :=
  if checkIntervalSeconds ≤ 0 ∨ idleTimeoutSeconds ≤ 0 then { s with options := ⟨false, 0, 0⟩ }
  else { s with options := ⟨true, checkIntervalSeconds, idleTimeoutSeconds⟩ }

@[simp] theorem setConnectionHeartbeat_records (s : HeartbeatLoop)
    (checkIntervalSeconds idleTimeoutSeconds : ℚ) :
    (s.setConnectionHeartbeat checkIntervalSeconds idleTimeoutSeconds).records = s.records := by
  unfold setConnectionHeartbeat
  split
  · rfl
  · rfl

/-- `run_every(intervalSeconds)` on the loop thread, with the callback of a heartbeat. -/
def runEvery (s : HeartbeatLoop) (timer heartbeat : Nat) (intervalSeconds : ℚ) : HeartbeatLoop :=
  let interval := toMilliseconds intervalSeconds
  let interval := if interval ≤ 0 then 1 else interval
  { s with
    queue := (s.queue.createTimer timer (s.queue.clock + interval * millisecond) interval).insertTimer timer
    callback := Function.update s.callback timer (some heartbeat) }

def stopHeartbeat (s : HeartbeatLoop) (heartbeat : Nat) : HeartbeatLoop :=
  match s.heartbeats heartbeat with
  | none => s
  | some h =>
    if h.timerId = 0 then s.setHeartbeat heartbeat { h with running := false }
    else { s.setHeartbeat heartbeat { h with running := false, timerId := 0 } with
      queue := s.queue.eraseTimer h.timerId }

/-- `ConnectionHeartbeat::start()`. -/
def startHeartbeat (s : HeartbeatLoop) (heartbeat timer : Nat) : HeartbeatLoop :=
  match s.heartbeats heartbeat with
  | none => s
  | some h =>
    let s := if h.running then s.stopHeartbeat heartbeat else s
    if h.checkIntervalSeconds ≤ 0 ∨ h.idleTimeoutSeconds ≤ 0 then s
    else
      -- `run_every` reads the clock again
      ({ s with queue := s.queue.wait }.runEvery timer heartbeat h.checkIntervalSeconds).setHeartbeat heartbeat
        { h with lastActiveTime := s.queue.clock, timerId := s.queue.nextTimerId, running := true }

/-- Stop a record's heartbeat and let go of it. -/
def stopRecord (s : HeartbeatLoop) (record : ConnectionRecord) : HeartbeatLoop :=
  match record.heartbeat with
  | none => s
  | some heartbeat => (s.stopHeartbeat heartbeat).dropHeartbeat heartbeat

def findRecord (s : HeartbeatLoop) (conn : Nat) : Option ConnectionRecord :=
  s.records.find? fun record => record.connection == conn

def eraseRecord (s : HeartbeatLoop) (conn : Nat) : HeartbeatLoop :=
  { s with records := s.records.eraseP fun record => record.connection == conn }

def removeConnection (s : HeartbeatLoop) (conn : Nat) : HeartbeatLoop :=
  match s.findRecord conn with
  | none => s
  | some record => (s.eraseRecord conn).stopRecord record

/-- `close_connection`, with `on_close` as its close callback. -/
def closeConnection (s : HeartbeatLoop) (conn : Nat) : HeartbeatLoop :=
  if s.status conn = .open then (s.setStatus conn .closed).removeConnection conn else s

/-- `create_connection`, after its first check: the connection, and `create_connection_heartbeat`. -/
def makeConnection (s : HeartbeatLoop) (conn heartbeat : Nat) : HeartbeatLoop :=
  if s.options.enabled then
    { (s.setStatus conn .open).setHeartbeat heartbeat
        ⟨s.options.checkIntervalSeconds, s.options.idleTimeoutSeconds, s.queue.clock, 0, conn, false⟩ with
      creating := some ⟨conn, some heartbeat⟩ }
  else { s.setStatus conn .open with creating := some ⟨conn, none⟩ }

@[simp] theorem makeConnection_records (s : HeartbeatLoop) (conn heartbeat : Nat) :
    (s.makeConnection conn heartbeat).records = s.records := by
  unfold makeConnection
  split
  · rfl
  · rfl

def discard (s : HeartbeatLoop) (record : ConnectionRecord) : HeartbeatLoop :=
  let s := { s.setStatus record.connection .free with creating := none }
  match record.heartbeat with
  | none => s
  | some heartbeat => s.dropHeartbeat heartbeat

@[simp] theorem discard_records (s : HeartbeatLoop) (record : ConnectionRecord) :
    (s.discard record).records = s.records := by
  unfold discard
  simp only
  split
  · rfl
  · rfl

/-- `create_connection`, from `localRecords[conn.get()] = …` on. -/
def registerConnection (s : HeartbeatLoop) (record : ConnectionRecord) (timer : Nat) : HeartbeatLoop :=
  let s := s.eraseRecord record.connection
  let s := { s with records := record :: s.records, creating := none }
  match record.heartbeat with
  | none => s
  | some heartbeat => s.startHeartbeat heartbeat timer

def refreshConnectionHeartbeat (s : HeartbeatLoop) (conn : Nat) : HeartbeatLoop :=
  if s.options.enabled = false then s
  else
    match (s.findRecord conn).bind fun record => record.heartbeat with
    | none => s
    | some heartbeat =>
      match s.heartbeats heartbeat with
      | none => s
      | some h => s.setHeartbeat heartbeat { h with lastActiveTime := s.queue.clock }

/-- The callback of a heartbeat's timer: `check_timeout`, if the heartbeat is still there. -/
def checkTimeout (s : HeartbeatLoop) (heartbeat : Nat) : HeartbeatLoop :=
  match s.heartbeats heartbeat with
  | none => s
  | some h =>
    if h.running = false then s
    else if s.status h.conn = .free then s.stopHeartbeat heartbeat
    else if h.isTimeout s.queue.clock then s.closeConnection h.conn
    else s

/-- The functor of `shutdown_connections` outside of the lock: the close callback is cleared before
`force_close`. -/
def shutRecord (s : HeartbeatLoop) (record : ConnectionRecord) : HeartbeatLoop :=
  let s := s.stopRecord record
  if s.status record.connection = .open then s.setStatus record.connection .closed else s

def shutdownTask (s : HeartbeatLoop) : HeartbeatLoop :=
  s.records.foldl shutRecord { s with records := [] }

/-- The loop thread can run a functor, an event handler or user code. -/
def takesTurn (s : HeartbeatLoop) : Bool := s.creating.isNone && s.queue.phase.runsFunctors

/-- What the timer queue does while the loop thread is in `create_connection`. -/
def elsewhere : TimerStep → Bool
  | .create _ _ _ | .tick _ | .holdUp _ | .expire => true
  | _ => false

/-- A user cancels the timers he has made. -/
def cancelsOwn (s : HeartbeatLoop) : TimerStep → Prop
  | .erase timerId => ∀ timer ∈ s.queue.timersById timerId, s.callback timer = none
  | _ => True

instance (s : HeartbeatLoop) (a : TimerStep) : Decidable (s.cancelsOwn a) := by
  cases a <;> unfold cancelsOwn <;> infer_instance

/-- A step of the timer queue; a heartbeat's callback runs when its timer is called. -/
def timerStep (s : HeartbeatLoop) (a : TimerStep) : Option HeartbeatLoop :=
  match s.queue.step a with
  | none => none
  | some queue =>
    match a with
    | .create timer _ _ =>
      some { s with queue := queue, callback := Function.update s.callback timer none }
    | .next =>
      let s := { s with queue := queue }
      match queue.phase with
      | .calling timer _ =>
        match s.callback timer with
        | some heartbeat => some (s.checkTimeout heartbeat)
        | none => some s
      | _ => some s
    | _ => some { s with queue := queue }

def step (s : HeartbeatLoop) : HeartbeatStep → Option HeartbeatLoop
  | .setConnectionHeartbeat check idle => some (s.setConnectionHeartbeat check idle)
  | .stop => some { s with running := false }
  | .create conn heartbeat =>
    if s.takesTurn ∧ s.status conn = .free ∧ s.heartbeats heartbeat = none then
      some (if s.running then s.makeConnection conn heartbeat else s)
    else none
  | .register timer =>
    match s.creating with
    | none => none
    | some record =>
      if s.queue.Live timer then none
      else some (if s.running then s.registerConnection record timer else s.discard record)
  | .message conn => if s.takesTurn then some (s.refreshConnectionHeartbeat conn) else none
  | .close conn => if s.takesTurn then some (s.closeConnection conn) else none
  | .release conn =>
    if s.status conn = .closed ∧ s.findRecord conn = none then some (s.setStatus conn .free) else none
  | .shutdown => if s.takesTurn ∧ s.running = false then some s.shutdownTask else none
  | .timers a =>
    if (s.creating = none ∨ elsewhere a) ∧ s.cancelsOwn a then s.timerStep a else none

end HeartbeatLoop

/-- **A loop with its connections, their heartbeats and its timers.** -/
def heartbeatLoop (now : Int) : System HeartbeatLoop HeartbeatStep where
  init := HeartbeatLoop.create now
  step := HeartbeatLoop.step

end Tudou
