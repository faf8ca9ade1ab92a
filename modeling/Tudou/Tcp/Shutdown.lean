import Mathlib.Algebra.BigOperators.Group.Finset.Basic
import Mathlib.Algebra.Order.BigOperators.Group.Finset
import Mathlib.Data.Fintype.Basic
import Tudou.Foundation.Run

/-!
# `TcpServer`: shutting the connections down

Model of `create_connection`, `remove_connection`, `shutdown_connections` and of the end of `start` in
`src/tudou/tcp/TcpServer.cpp`, from `ServerState::Running` on: the main thread, the threads of the I/O
loops and the threads that call `stop()`.  What two threads share is read and written in steps of its
own: the state, the counter, the mutex of the shutdown and the functor queues of the loops.

* `serverLoops` — the transition system, over any number of loops.
* `contribution` — what a loop has the counter at; `Accounted`, the invariant.
* `nothing_left_behind` — **once `shutdown_connections` has returned every connection table stays
  empty**, if its wait does not end while a loop is registering a connection.
* `left_behind_of_registering` — if it does, that connection ends up in its table.
* `registered_after_shutdown` — and it can.
-/

namespace Tudou

open Transition

inductive ServerState where
  | created
  | running
  | draining
  | stopped
  deriving DecidableEq, Repr

/-- The functors the main thread queues on an I/O loop. -/
inductive LoopTask where
  | create
  | shutdown
  deriving DecidableEq, Repr

/-- Where the thread of a loop is; a connection stands for its address. -/
inductive WorkerPhase where
  | idle
  /-- In `create_connection`, before the first check of the state. -/
  | creating
  /-- Before the second check. -/
  | made (conn : Nat)
  /-- The second check has read `Running`. -/
  | admitted (conn : Nat)
  /-- In the table, not counted. -/
  | inserted (conn : Nat)
  /-- `remove_connection` has erased a record and not counted it off. -/
  | removed
  /-- The functor of `shutdown_connections`, before its lock. -/
  | locking
  | sweeping
  /-- In the locked block, counted off and not erased. -/
  | countedOff (conn : Nat)
  | exited
  deriving DecidableEq, Repr

namespace WorkerPhase

/-- Between the last check of the state and the `fetch_add`. -/
def registering : WorkerPhase → Bool
  | admitted _ | inserted _ => true
  | _ => false

def sweeps : WorkerPhase → Bool
  | sweeping | countedOff _ => true
  | _ => false

/-- What the phase says about the loop's table. -/
def Fits (records : Finset Nat) : WorkerPhase → Prop
  | made conn | admitted conn => conn ∉ records
  | inserted conn | countedOff conn => conn ∈ records
  | _ => True

end WorkerPhase

/-- Where the main thread is in `start()`, with the loops it has yet to go over. -/
inductive MainPhase (L : Type*) where
  | serving
  | leaving
  /-- In `shutdown_connections`; with no loop left it waits. -/
  | posting (loops : List L)
  | returned
  | resettingPool (loops : List L)
  | joining (loop : L) (loops : List L)
  | cleared
  | stopped
  deriving DecidableEq

namespace MainPhase

variable {L : Type*}

def draining : MainPhase L → Bool
  | serving | leaving => false
  | _ => true

def afterShutdown : MainPhase L → Bool
  | serving | leaving | posting _ => false
  | _ => true

theorem draining_of_afterShutdown {phase : MainPhase L} (h : phase.afterShutdown = true) :
    phase.draining = true := by
  cases phase with
  | serving | leaving | posting _ => cases h
  | returned | resettingPool _ | joining _ _ | cleared | stopped => rfl

end MainPhase

structure ServerLoops (L : Type*) where
  state : ServerState
  isQuit : Bool
  /-- A `stop()` is between its exchange of the state and `quit()`. -/
  stopping : Bool
  main : MainPhase L
  worker : L → WorkerPhase
  tasks : L → List LoopTask
  records : L → Finset Nat
  activeConnectionCount : Nat
  /-- The loop whose thread holds `shutdownMutex_`. -/
  mutexHolder : Option L
  ioQuit : L → Bool

inductive WorkerStep where
  | take
  /-- The first check; a connection gets an address that is not in the table. -/
  | check (conn : Nat)
  | recheck
  | insert
  | count
  /-- A peer close, an error or a heartbeat: `remove_connection` up to the erased record. -/
  | close (conn : Nat)
  | countOff
  | lock
  | sweep (conn : Nat)
  | eraseSwept
  | unlock
  | exit
  deriving DecidableEq, Repr

inductive MainStep (L : Type*) where
  | accept (loop : L)
  | mainLoopReturns
  /-- `shutdown_connections` stores `Draining`; the map has the loops in some order. -/
  | drain (loops : List L)
  | post
  | waitReturns
  /-- `acceptor_.reset()`; the pool has the I/O loops in some order. -/
  | resetAcceptor (loops : List L)
  | quitLoop
  | join
  | clear
  | finish
  deriving DecidableEq

inductive ServerStep (L : Type*) where
  | main (a : MainStep L)
  | stop
  | quit
  | worker (loop : L) (a : WorkerStep)
  deriving DecidableEq

namespace ServerLoops

variable {L : Type*} [DecidableEq L]

/-- `start()` has stored `Running` and enters `mainLoop.loop()`. -/
def started : ServerLoops L where
  state := .running
  isQuit := false
  stopping := false
  main := .serving
  worker _ := .idle
  tasks _ := []
  records _ := ∅
  activeConnectionCount := 0
  mutexHolder := none
  ioQuit _ := false

def setWorker (s : ServerLoops L) (loop : L) (phase : WorkerPhase) : ServerLoops L :=
  { s with worker := Function.update s.worker loop phase }

def setRecords (s : ServerLoops L) (loop : L) (records : Finset Nat) : ServerLoops L :=
  { s with records := Function.update s.records loop records }

def queueInLoop (s : ServerLoops L) (loop : L) (task : LoopTask) : ServerLoops L :=
  { s with tasks := Function.update s.tasks loop (s.tasks loop ++ [task]) }

def begins : LoopTask → WorkerPhase
  | .create => .creating
  | .shutdown => .locking

/-- `run_in_loop` on the main thread: at once on the main loop, queued on an I/O loop. -/
def runInLoop (mainLoop : L) (s : ServerLoops L) (loop : L) (task : LoopTask) : ServerLoops L :=
  if loop = mainLoop then s.setWorker loop (begins task) else s.queueInLoop loop task

def workerStep (s : ServerLoops L) (loop : L) (a : WorkerStep) : Option (ServerLoops L) :=
  match a, s.worker loop with
  | .take, .idle =>
    match s.tasks loop with
    | [] => none
    | task :: tasks =>
      some { s.setWorker loop (begins task) with tasks := Function.update s.tasks loop tasks }
  | .check conn, .creating =>
    if conn ∈ s.records loop then none
    else some (s.setWorker loop (if s.state = .running then .made conn else .idle))
  | .recheck, .made conn =>
    some (s.setWorker loop (if s.state = .running then .admitted conn else .idle))
  | .insert, .admitted conn =>
    some ((s.setRecords loop (insert conn (s.records loop))).setWorker loop (.inserted conn))
  | .count, .inserted _ =>
    some { s.setWorker loop .idle with activeConnectionCount := s.activeConnectionCount + 1 }
  | .close conn, .idle =>
    -- a connection without a record is only logged
    if conn ∈ s.records loop then
      some ((s.setRecords loop ((s.records loop).erase conn)).setWorker loop .removed)
    else some s
  | .countOff, .removed =>
    some { s.setWorker loop .idle with activeConnectionCount := s.activeConnectionCount - 1 }
  | .lock, .locking =>
    if s.mutexHolder = none then some { s.setWorker loop .sweeping with mutexHolder := some loop }
    else none
  | .sweep conn, .sweeping =>
    if conn ∈ s.records loop then
      some { s.setWorker loop (.countedOff conn) with
        activeConnectionCount := s.activeConnectionCount - 1 }
    else none
  | .eraseSwept, .countedOff conn =>
    some ((s.setRecords loop ((s.records loop).erase conn)).setWorker loop .sweeping)
  | .unlock, .sweeping =>
    if s.records loop = ∅ then some { s.setWorker loop .idle with mutexHolder := none } else none
  | .exit, .idle => if s.ioQuit loop then some (s.setWorker loop .exited) else none
  | _, _ => none

variable [Fintype L] (mainLoop : L)

def mainStep (s : ServerLoops L) (a : MainStep L) : Option (ServerLoops L) :=
  match a, s.main with
  | .accept loop, .serving =>
    -- `get_next_loop` gives the main loop if there is no other
    if loop = mainLoop ∧ ∃ loop', loop' ≠ mainLoop then none
    else if s.state = .running then some (s.runInLoop mainLoop loop .create)
    else some s
  | .mainLoopReturns, .serving => if s.isQuit then some { s with main := .leaving } else none
  | .drain loops, .leaving =>
    if loops.Nodup ∧ ∀ loop, loop ∈ loops then
      some { s with state := .draining, main := .posting loops }
    else none
  | .post, .posting (loop :: loops) =>
    some { s.runInLoop mainLoop loop .shutdown with main := .posting loops }
  | .waitReturns, .posting [] =>
    if s.mutexHolder = none ∧ s.activeConnectionCount = 0 then some { s with main := .returned }
    else none
  | .resetAcceptor loops, .returned =>
    if loops.Nodup ∧ ∀ loop, loop ∈ loops ↔ loop ≠ mainLoop then
      some { s with main := .resettingPool loops }
    else none
  | .quitLoop, .resettingPool (loop :: loops) =>
    some { s with ioQuit := Function.update s.ioQuit loop true, main := .joining loop loops }
  | .join, .joining loop loops =>
    if s.worker loop = .exited then some { s with main := .resettingPool loops } else none
  | .clear, .resettingPool [] => some { s with records := fun _ => ∅, main := .cleared }
  | .finish, .cleared => some { s with state := .stopped, main := .stopped }
  | _, _ => none

/-- The main thread takes no event of its own loop any more. -/
def mainIsBusy (s : ServerLoops L) (loop : L) : WorkerStep → Bool
  | .close _ => decide (loop = mainLoop) && decide (s.main ≠ .serving)
  | _ => false

def step (s : ServerLoops L) (l : ServerStep L) : Option (ServerLoops L) :=
  match l with
  | .main a => if s.worker mainLoop = .idle then s.mainStep mainLoop a else none
  | .stop =>
    if s.state = .running then some { s with state := .draining, stopping := true } else some s
  | .quit => if s.stopping then some { s with isQuit := true, stopping := false } else none
  | .worker loop a => if s.mainIsBusy mainLoop loop a then none else s.workerStep loop a

end ServerLoops

/-- **The server among its loops and the callers of `stop()`**, from `Running` on. -/
def serverLoops {L : Type*} [DecidableEq L] [Fintype L] (mainLoop : L) :
    System (ServerLoops L) (ServerStep L) where
  init := ServerLoops.started
  step := ServerLoops.step mainLoop

namespace ServerLoops

variable {L : Type*} [DecidableEq L]

/-! ## Steps -/

/-- **What a step of a loop's thread does.** -/
inductive WorkerEnds (s : ServerLoops L) (loop : L) : WorkerStep → ServerLoops L → Prop where
  | take {task : LoopTask} {tasks : List LoopTask} : s.worker loop = .idle →
      s.tasks loop = task :: tasks →
      WorkerEnds s loop .take
        { s.setWorker loop (begins task) with tasks := Function.update s.tasks loop tasks }
  | made {conn : Nat} : s.worker loop = .creating → conn ∉ s.records loop →
      WorkerEnds s loop (.check conn) (s.setWorker loop (.made conn))
  | refused {conn : Nat} : s.worker loop = .creating →
      WorkerEnds s loop (.check conn) (s.setWorker loop .idle)
  | admitted {conn : Nat} : s.worker loop = .made conn → s.state = .running →
      WorkerEnds s loop .recheck (s.setWorker loop (.admitted conn))
  | dropped {conn : Nat} : s.worker loop = .made conn →
      WorkerEnds s loop .recheck (s.setWorker loop .idle)
  | insert {conn : Nat} : s.worker loop = .admitted conn →
      WorkerEnds s loop .insert
        ((s.setRecords loop (insert conn (s.records loop))).setWorker loop (.inserted conn))
  | count {conn : Nat} : s.worker loop = .inserted conn →
      WorkerEnds s loop .count
        { s.setWorker loop .idle with activeConnectionCount := s.activeConnectionCount + 1 }
  | close {conn : Nat} : s.worker loop = .idle → conn ∈ s.records loop →
      WorkerEnds s loop (.close conn)
        ((s.setRecords loop ((s.records loop).erase conn)).setWorker loop .removed)
  | unknown {conn : Nat} : conn ∉ s.records loop → WorkerEnds s loop (.close conn) s
  | countOff : s.worker loop = .removed →
      WorkerEnds s loop .countOff
        { s.setWorker loop .idle with activeConnectionCount := s.activeConnectionCount - 1 }
  | lock : s.worker loop = .locking → s.mutexHolder = none →
      WorkerEnds s loop .lock { s.setWorker loop .sweeping with mutexHolder := some loop }
  | sweep {conn : Nat} : s.worker loop = .sweeping → conn ∈ s.records loop →
      WorkerEnds s loop (.sweep conn)
        { s.setWorker loop (.countedOff conn) with
          activeConnectionCount := s.activeConnectionCount - 1 }
  | eraseSwept {conn : Nat} : s.worker loop = .countedOff conn →
      WorkerEnds s loop .eraseSwept
        ((s.setRecords loop ((s.records loop).erase conn)).setWorker loop .sweeping)
  | unlock : s.worker loop = .sweeping → s.records loop = ∅ →
      WorkerEnds s loop .unlock { s.setWorker loop .idle with mutexHolder := none }
  | exit : s.worker loop = .idle → WorkerEnds s loop .exit (s.setWorker loop .exited)

theorem workerStep_ends {s s' : ServerLoops L} {loop : L} {a : WorkerStep}
    (h : s.workerStep loop a = some s') : WorkerEnds s loop a s' := by
  unfold workerStep at h
  split at h
  · split at h
    · cases h
    · cases h; exact .take ‹_› ‹_›
  · split at h
    · cases h
    · cases h
      split
      · exact .made ‹_› ‹_›
      · exact .refused ‹_›
  · cases h
    split
    · exact .admitted ‹_› ‹_›
    · exact .dropped ‹_›
  · cases h; exact .insert ‹_›
  · cases h; exact .count ‹_›
  · split at h
    · cases h; exact .close ‹_› ‹_›
    · cases h; exact .unknown ‹_›
  · cases h; exact .countOff ‹_›
  · split at h
    · cases h; exact .lock ‹_› ‹_›
    · cases h
  · split at h
    · cases h; exact .sweep ‹_› ‹_›
    · cases h
  · cases h; exact .eraseSwept ‹_›
  · split at h
    · cases h; exact .unlock ‹_› ‹_›
    · cases h
  · split at h
    · cases h; exact .exit ‹_›
    · cases h
  · cases h

/-! ## What the counter counts -/

/-- What a loop with this table has added to the counter, less what it has taken off. -/
def contribution (phase : WorkerPhase) (records : Finset Nat) : Nat :=
  match phase with
  | .inserted _ | .countedOff _ => records.card - 1
  | .removed => records.card + 1
  | _ => records.card

/-- What holds at a loop. -/
structure AtLoop (s : ServerLoops L) (loop : L) : Prop where
  fits : (s.worker loop).Fits (s.records loop)
  locked : (s.worker loop).sweeps = true → s.mutexHolder = some loop
  after : s.main.afterShutdown = true →
    s.records loop = ∅ ∧ (s.worker loop).registering = false

/-- The counter has what the loops have added to it, and their tables are as their threads left them. -/
structure Counted [Fintype L] (s : ServerLoops L) : Prop where
  count : s.activeConnectionCount = ∑ loop, contribution (s.worker loop) (s.records loop)
  fits : ∀ loop, (s.worker loop).Fits (s.records loop)

/-- **The invariant.** -/
structure Accounted [Fintype L] (s : ServerLoops L) : Prop where
  count : s.activeConnectionCount = ∑ loop, contribution (s.worker loop) (s.records loop)
  atLoop : ∀ loop, s.AtLoop loop
  notRunning : s.main.draining = true → s.state ≠ .running

omit [DecidableEq L] in
theorem Accounted.counted [Fintype L] {s : ServerLoops L} (h : s.Accounted) : s.Counted :=
  ⟨h.count, fun loop => (h.atLoop loop).fits⟩

theorem sum_change [Fintype L] {f g : L → Nat} (loop : L) (h : ∀ l, l ≠ loop → g l = f l) :
    ∑ l, g l + f loop = ∑ l, f l + g loop := by
  have hf := Finset.add_sum_erase Finset.univ f (Finset.mem_univ loop)
  have hg := Finset.add_sum_erase Finset.univ g (Finset.mem_univ loop)
  have hrest : ∑ l ∈ Finset.univ.erase loop, g l = ∑ l ∈ Finset.univ.erase loop, f l :=
    Finset.sum_congr rfl fun l hl => h l (Finset.ne_of_mem_erase hl)
  omega

omit [DecidableEq L] in
theorem Accounted.started [Fintype L] : (started : ServerLoops L).Accounted where
  count := by simp [ServerLoops.started, contribution]
  atLoop _ := ⟨trivial, fun h => (by cases h), fun h => (by cases h)⟩
  notRunning h := by cases h

omit [DecidableEq L] in
theorem Counted.contribution_le [Fintype L] {s : ServerLoops L} (h : s.Counted) (loop : L) :
    contribution (s.worker loop) (s.records loop) ≤ s.activeConnectionCount := by
  rw [h.count]
  exact Finset.single_le_sum (f := fun l => contribution (s.worker l) (s.records l))
    (fun _ _ => Nat.zero_le _) (Finset.mem_univ loop)

/-- A step of one loop's thread: the other loops keep what they have, and the counter changes as the
loop's contribution does. -/
theorem Counted.worker [Fintype L] {s s' : ServerLoops L} (h : s.Counted) {loop : L}
    {phase : WorkerPhase} {records : Finset Nat}
    (hworker : s'.worker = Function.update s.worker loop phase)
    (hrecords : s'.records = Function.update s.records loop records) (hfits : phase.Fits records)
    (hcount : s'.activeConnectionCount + contribution (s.worker loop) (s.records loop) =
      s.activeConnectionCount + contribution phase records) : s'.Counted := by
  have hself : s'.worker loop = phase ∧ s'.records loop = records := by
    rw [hworker, hrecords]
    exact ⟨Function.update_self _ _ _, Function.update_self _ _ _⟩
  have hother : ∀ l, l ≠ loop → s'.worker l = s.worker l ∧ s'.records l = s.records l := by
    intro l hl
    rw [hworker, hrecords]
    exact ⟨Function.update_of_ne hl _ _, Function.update_of_ne hl _ _⟩
  refine ⟨?_, fun l => ?_⟩
  · have hsum := sum_change (f := fun l => contribution (s.worker l) (s.records l))
      (g := fun l => contribution (s'.worker l) (s'.records l)) loop
      (fun l hl => by rw [(hother l hl).1, (hother l hl).2])
    simp only [hself] at hsum
    have := h.count
    omega
  · by_cases heq : l = loop
    · rw [heq, hself.1, hself.2]
      exact hfits
    · rw [(hother l heq).1, (hother l heq).2]
      exact h.fits l

/-- A loop's thread moves on, and its table stays as it is. -/
theorem Counted.move [Fintype L] {s s' : ServerLoops L} (h : s.Counted) {loop : L}
    {phase : WorkerPhase} (hworker : s'.worker = Function.update s.worker loop phase)
    (hrecords : s'.records = s.records) (hfits : phase.Fits (s.records loop))
    (hcount : s'.activeConnectionCount + contribution (s.worker loop) (s.records loop) =
      s.activeConnectionCount + contribution phase (s.records loop)) : s'.Counted := by
  refine h.worker hworker ?_ hfits hcount
  rw [hrecords, Function.update_eq_self]

/-- **Step lemma** for the counter and the threads of the loops. -/
theorem Counted.workerStep [Fintype L] {s s' : ServerLoops L} (h : s.Counted) {loop : L}
    {a : WorkerStep} (hs : WorkerEnds s loop a s') : s'.Counted := by
  have hle := h.contribution_le loop
  have hfits := h.fits loop
  cases hs with
  | @take task tasks hph ht =>
    refine h.move rfl rfl ?_ ?_
    · cases task <;> trivial
    · rw [hph]
      cases task <;> rfl
  | made hph hnew => exact h.move rfl rfl hnew (by rw [hph]; rfl)
  | refused hph | dropped hph | exit hph => exact h.move rfl rfl trivial (by rw [hph]; rfl)
  | admitted hph hrunning =>
    rw [hph] at hfits
    exact h.move rfl rfl hfits (by rw [hph]; rfl)
  | @insert conn hph =>
    rw [hph] at hfits
    refine h.worker rfl rfl (Finset.mem_insert_self _ _) ?_
    rw [hph]
    show s.activeConnectionCount + (s.records loop).card =
      s.activeConnectionCount + ((insert conn (s.records loop)).card - 1)
    rw [Finset.card_insert_of_notMem hfits, Nat.add_sub_cancel]
  | @count conn hph =>
    rw [hph] at hfits
    have hpos : 0 < (s.records loop).card := Finset.card_pos.mpr ⟨conn, hfits⟩
    refine h.move rfl rfl trivial ?_
    rw [hph]
    simp only [contribution]
    omega
  | @close conn hph hmem =>
    have hcard := Finset.card_erase_add_one hmem
    refine h.worker rfl rfl trivial ?_
    rw [hph]
    show s.activeConnectionCount + (s.records loop).card =
      s.activeConnectionCount + (((s.records loop).erase conn).card + 1)
    omega
  | unknown _ => exact h
  | countOff hph =>
    rw [hph] at hle
    refine h.move rfl rfl trivial ?_
    rw [hph]
    simp only [contribution] at hle ⊢
    omega
  | lock hph hfree => exact h.move rfl rfl trivial (by rw [hph]; rfl)
  | @sweep conn hph hmem =>
    rw [hph] at hle
    have hpos : 0 < (s.records loop).card := Finset.card_pos.mpr ⟨conn, hmem⟩
    refine h.move rfl rfl hmem ?_
    rw [hph]
    simp only [contribution] at hle ⊢
    omega
  | @eraseSwept conn hph =>
    rw [hph] at hfits
    have hcard := Finset.card_erase_add_one (show conn ∈ s.records loop from hfits)
    refine h.worker rfl rfl trivial ?_
    rw [hph]
    show s.activeConnectionCount + ((s.records loop).card - 1) =
      s.activeConnectionCount + ((s.records loop).erase conn).card
    omega
  | unlock hph hempty => exact h.move rfl rfl trivial (by rw [hph]; rfl)

/-- A step of one loop's thread leaves the other loops and the main thread alone. -/
theorem WorkerEnds.frame {s s' : ServerLoops L} {loop : L} {a : WorkerStep}
    (hs : WorkerEnds s loop a s') : s'.main = s.main ∧ s'.state = s.state ∧
      ∀ l, l ≠ loop → s'.worker l = s.worker l ∧ s'.records l = s.records l := by
  have hother : ∀ {α : Type} (f : L → α) (x : α) (l : L), l ≠ loop → Function.update f loop x l = f l :=
    fun f x l hl => Function.update_of_ne hl x f
  cases hs with
  | insert _ | close _ _ | eraseSwept _ => exact ⟨rfl, rfl, fun l hl => ⟨hother _ _ l hl, hother _ _ l hl⟩⟩
  | unknown _ => exact ⟨rfl, rfl, fun _ _ => ⟨rfl, rfl⟩⟩
  | take _ _ | made _ _ | refused _ | admitted _ _ | dropped _ | count _ | countOff _ | lock _ _
  | sweep _ _ | unlock _ _ | exit _ => exact ⟨rfl, rfl, fun l hl => ⟨hother _ _ l hl, rfl⟩⟩

/-- A step of one loop's thread, as far as the mutex and the end of the shutdown are concerned. -/
theorem Accounted.worker [Fintype L] {s s' : ServerLoops L} (h : s.Accounted) (hcounted : s'.Counted)
    {loop : L} {phase : WorkerPhase} {records : Finset Nat} (hphase : s'.worker loop = phase)
    (hrecords : s'.records loop = records)
    (hother : ∀ l, l ≠ loop → s'.worker l = s.worker l ∧ s'.records l = s.records l)
    (hmain : s'.main = s.main) (hstate : s'.state = s.state)
    (hheld : ∀ l, l ≠ loop → s.mutexHolder = some l → s'.mutexHolder = some l)
    (hlocked : phase.sweeps = true → s'.mutexHolder = some loop)
    (hafter : s.main.afterShutdown = true → records = ∅ ∧ phase.registering = false) :
    s'.Accounted := by
  refine ⟨hcounted.count, fun l => ⟨hcounted.fits l, ?_, ?_⟩, ?_⟩
  · by_cases heq : l = loop
    · rw [heq, hphase]
      exact hlocked
    · rw [(hother l heq).1]
      exact fun hs => hheld l heq ((h.atLoop l).locked hs)
  · rw [hmain]
    by_cases heq : l = loop
    · rw [heq, hphase, hrecords]
      exact hafter
    · rw [(hother l heq).1, (hother l heq).2]
      exact (h.atLoop l).after
  · rw [hmain, hstate]
    exact h.notRunning

theorem Accounted.workerStep [Fintype L] {s s' : ServerLoops L} (h : s.Accounted) {loop : L}
    {a : WorkerStep} (hs : WorkerEnds s loop a s') : s'.Accounted := by
  have hcounted := h.counted.workerStep hs
  obtain ⟨hmain, hstate, hother⟩ := hs.frame
  obtain ⟨hfits, hlocked, hafter⟩ := h.atLoop loop
  have hself : ∀ {α : Type} (f : L → α) (x : α), Function.update f loop x loop = x :=
    fun f x => Function.update_self _ _ _
  have hsame : ∀ l, l ≠ loop → s.mutexHolder = some l → s.mutexHolder = some l := fun _ _ hm => hm
  cases hs with
  | @take task tasks hph ht =>
    refine h.worker hcounted (hself _ _) rfl hother hmain hstate hsame (fun hs => ?_) fun ha =>
      ⟨(hafter ha).1, ?_⟩
    · cases task <;> cases hs
    · cases task <;> rfl
  | made hph _ | refused hph | dropped hph | exit hph | count hph | countOff hph =>
    exact h.worker hcounted (hself _ _) rfl hother hmain hstate hsame (fun hs => by cases hs)
      fun ha => ⟨(hafter ha).1, rfl⟩
  | admitted hph hrunning =>
    refine h.worker hcounted (hself _ _) rfl hother hmain hstate hsame (fun hs => by cases hs)
      fun ha => ?_
    exact absurd hrunning (h.notRunning (MainPhase.draining_of_afterShutdown ha))
  | insert hph =>
    rw [hph] at hafter
    exact h.worker hcounted (hself _ _) (hself _ _) hother hmain hstate hsame (fun hs => by cases hs)
      fun ha => by cases (hafter ha).2
  | close hph hmem =>
    refine h.worker hcounted (hself _ _) (hself _ _) hother hmain hstate hsame (fun hs => by cases hs)
      fun ha => ?_
    rw [(hafter ha).1] at hmem
    cases hmem
  | unknown _ => exact h
  | lock hph hfree =>
    refine h.worker hcounted (hself _ _) rfl hother hmain hstate (fun l _ hm => ?_) (fun _ => rfl)
      fun ha => ⟨(hafter ha).1, rfl⟩
    rw [hfree] at hm
    cases hm
  | sweep hph hmem =>
    rw [hph] at hlocked
    exact h.worker hcounted (hself _ _) rfl hother hmain hstate hsame (fun _ => hlocked rfl)
      fun ha => ⟨(hafter ha).1, rfl⟩
  | eraseSwept hph =>
    rw [hph] at hfits hlocked
    refine h.worker hcounted (hself _ _) (hself _ _) hother hmain hstate hsame (fun _ => hlocked rfl)
      fun ha => ?_
    rw [(hafter ha).1] at hfits
    cases hfits
  | unlock hph hempty =>
    rw [hph] at hlocked
    refine h.worker hcounted (hself _ _) rfl hother hmain hstate (fun l hl hm => ?_)
      (fun hs => by cases hs) fun ha => ⟨(hafter ha).1, rfl⟩
    rw [hlocked rfl] at hm
    exact absurd (Option.some.inj hm).symm hl

/-! ## The main thread -/

/-- **What a step of the main thread does.** -/
inductive MainEnds (mainLoop : L) (s : ServerLoops L) : MainStep L → ServerLoops L → Prop where
  | accept {loop : L} : s.main = .serving →
      MainEnds mainLoop s (.accept loop) (s.runInLoop mainLoop loop .create)
  | refused {loop : L} : MainEnds mainLoop s (.accept loop) s
  | mainLoopReturns : s.main = .serving →
      MainEnds mainLoop s .mainLoopReturns { s with main := .leaving }
  | drain {loops : List L} : s.main = .leaving →
      MainEnds mainLoop s (.drain loops) { s with state := .draining, main := .posting loops }
  | post {loop : L} {loops : List L} : s.main = .posting (loop :: loops) →
      MainEnds mainLoop s .post
        { s.runInLoop mainLoop loop .shutdown with main := .posting loops }
  | waitReturns : s.main = .posting [] → s.mutexHolder = none → s.activeConnectionCount = 0 →
      MainEnds mainLoop s .waitReturns { s with main := .returned }
  | resetAcceptor {loops : List L} : s.main = .returned →
      MainEnds mainLoop s (.resetAcceptor loops) { s with main := .resettingPool loops }
  | quitLoop {loop : L} {loops : List L} : s.main = .resettingPool (loop :: loops) →
      MainEnds mainLoop s .quitLoop
        { s with ioQuit := Function.update s.ioQuit loop true, main := .joining loop loops }
  | join {loop : L} {loops : List L} : s.main = .joining loop loops → s.worker loop = .exited →
      MainEnds mainLoop s .join { s with main := .resettingPool loops }
  | clear : s.main = .resettingPool [] →
      MainEnds mainLoop s .clear { s with records := fun _ => ∅, main := .cleared }
  | finish : s.main = .cleared →
      MainEnds mainLoop s .finish { s with state := .stopped, main := .stopped }

variable [Fintype L] {mainLoop : L}

theorem mainStep_ends {s s' : ServerLoops L} {a : MainStep L}
    (h : s.mainStep mainLoop a = some s') : MainEnds mainLoop s a s' := by
  unfold mainStep at h
  split at h
  · split at h
    · cases h
    · split at h
      · cases h; exact .accept ‹_›
      · cases h; exact .refused
  · split at h
    · cases h; exact .mainLoopReturns ‹_›
    · cases h
  · split at h
    · cases h; exact .drain ‹_›
    · cases h
  · cases h; exact .post ‹_›
  · split at h
    · rename_i hg
      cases h; exact .waitReturns ‹_› hg.1 hg.2
    · cases h
  · split at h
    · cases h; exact .resetAcceptor ‹_›
    · cases h
  · cases h; exact .quitLoop ‹_›
  · split at h
    · cases h; exact .join ‹_› ‹_›
    · cases h
  · cases h; exact .clear ‹_›
  · cases h; exact .finish ‹_›
  · cases h

omit [DecidableEq L] in
/-- A step that leaves the threads of the loops, their tables and the counter alone. -/
theorem Accounted.elsewhere {s s' : ServerLoops L} (h : s.Accounted) (hworker : s'.worker = s.worker)
    (hrecords : s'.records = s.records)
    (hcount : s'.activeConnectionCount = s.activeConnectionCount)
    (hheld : s'.mutexHolder = s.mutexHolder) (hstate : s'.main.draining = true → s'.state ≠ .running)
    (hafter : s'.main.afterShutdown = true →
      ∀ loop, s.records loop = ∅ ∧ (s.worker loop).registering = false) : s'.Accounted := by
  refine ⟨?_, fun loop => ⟨?_, ?_, ?_⟩, hstate⟩
  · rw [hcount, hworker, hrecords]
    exact h.count
  · rw [hworker, hrecords]
    exact (h.atLoop loop).fits
  · rw [hworker, hheld]
    exact (h.atLoop loop).locked
  · rw [hworker, hrecords]
    exact fun ha => hafter ha loop

/-- The main thread hands a functor to a loop. -/
theorem Counted.runInLoop {s : ServerLoops L} (h : s.Counted) (hidle : s.worker mainLoop = .idle)
    (loop : L) (task : LoopTask) : (s.runInLoop mainLoop loop task).Counted := by
  unfold ServerLoops.runInLoop
  split
  · rename_i heq
    subst heq
    refine h.move rfl rfl ?_ ?_
    · cases task <;> trivial
    · rw [hidle]
      cases task <;> rfl
  · exact ⟨h.count, h.fits⟩

theorem Accounted.runInLoop {s : ServerLoops L} (h : s.Accounted) (hidle : s.worker mainLoop = .idle)
    (loop : L) (task : LoopTask) : (s.runInLoop mainLoop loop task).Accounted := by
  have hcounted := h.counted.runInLoop hidle loop task
  unfold ServerLoops.runInLoop at hcounted ⊢
  split at hcounted
  · rename_i heq
    subst heq
    rw [if_pos rfl]
    refine h.worker hcounted (Function.update_self _ _ _) rfl
      (fun l hl => ⟨Function.update_of_ne hl _ _, rfl⟩) rfl rfl (fun _ _ hm => hm) (fun hs => ?_)
      fun ha => ⟨((h.atLoop loop).after ha).1, ?_⟩
    · cases task <;> cases hs
    · cases task <;> rfl
  · rename_i hne
    rw [if_neg hne]
    exact h.elsewhere rfl rfl rfl rfl h.notRunning fun ha loop => (h.atLoop loop).after ha

omit [DecidableEq L] in
/-- **With the counter at zero and the mutex free, the tables are empty**, unless a connection is
being registered. -/
theorem Accounted.empty_of_count {s : ServerLoops L} (h : s.Accounted)
    (hcount : s.activeConnectionCount = 0) (hfree : s.mutexHolder = none) {loop : L}
    (hreg : (s.worker loop).registering = false) : s.records loop = ∅ := by
  have hle := h.counted.contribution_le loop
  have hlocked := (h.atLoop loop).locked
  rw [hcount] at hle
  rw [hfree] at hlocked
  rw [← Finset.card_eq_zero]
  cases hph : s.worker loop with
  | admitted conn | inserted conn =>
    rw [hph] at hreg
    cases hreg
  | countedOff conn =>
    rw [hph] at hlocked
    cases hlocked rfl
  | idle | creating | made _ | removed | locking | sweeping | exited =>
    rw [hph] at hle
    simp only [contribution] at hle
    omega

/-- No loop is between its last check of the state and its `fetch_add` when the wait of
`shutdown_connections` ends. -/
def WaitsForRegistering (s : ServerLoops L) (l : ServerStep L) : Prop :=
  l = .main .waitReturns → ∀ loop, (s.worker loop).registering = false

instance (s : ServerLoops L) (l : ServerStep L) : Decidable (s.WaitsForRegistering l) :=
  inferInstanceAs (Decidable (_ → _))

/-- **Step lemma** for the main thread. -/
theorem Accounted.mainStep {s s' : ServerLoops L} {a : MainStep L} (h : s.Accounted)
    (hg : s.WaitsForRegistering (.main a)) (hidle : s.worker mainLoop = .idle)
    (hs : MainEnds mainLoop s a s') : s'.Accounted := by
  cases hs with
  | accept _ => exact h.runInLoop hidle _ _
  | refused => exact h
  | mainLoopReturns _ =>
    exact h.elsewhere rfl rfl rfl rfl (fun hd => by cases hd) (fun ha => by cases ha)
  | drain _ =>
    exact h.elsewhere rfl rfl rfl rfl (fun _ hr => by cases hr) (fun ha => by cases ha)
  | @post loop loops hph =>
    have hd : s.state ≠ .running := h.notRunning (by rw [hph]; rfl)
    have hposted := h.runInLoop hidle loop .shutdown
    refine hposted.elsewhere rfl rfl rfl rfl (fun _ => ?_) (fun ha => by cases ha)
    unfold ServerLoops.runInLoop
    split
    · exact hd
    · exact hd
  | waitReturns hph hfree hcount =>
    have hreg : ∀ loop, (s.worker loop).registering = false := hg rfl
    exact h.elsewhere rfl rfl rfl rfl (fun _ => h.notRunning (by rw [hph]; rfl))
      fun _ loop => ⟨h.empty_of_count hcount hfree (hreg loop), hreg loop⟩
  | resetAcceptor hph | quitLoop hph | join hph _ =>
    exact h.elsewhere rfl rfl rfl rfl (fun _ => h.notRunning (by rw [hph]; rfl))
      fun _ loop => (h.atLoop loop).after (by rw [hph]; rfl)
  | clear hph =>
    have hafter : ∀ loop, s.records loop = ∅ ∧ (s.worker loop).registering = false :=
      fun loop => (h.atLoop loop).after (by rw [hph]; rfl)
    have hempty : (fun _ => ∅) = s.records := funext fun loop => (hafter loop).1.symm
    exact h.elsewhere rfl hempty rfl rfl (fun _ => h.notRunning (by rw [hph]; rfl)) fun _ => hafter
  | finish hph =>
    exact h.elsewhere rfl rfl rfl rfl (fun _ hr => by cases hr)
      fun _ loop => (h.atLoop loop).after (by rw [hph]; rfl)

/-- **Step lemma.** -/
theorem Accounted.step {s s' : ServerLoops L} {l : ServerStep L} (h : s.Accounted)
    (hg : s.WaitsForRegistering l) (hs : s.step mainLoop l = some s') : s'.Accounted := by
  have hafter : s.main.afterShutdown = true →
      ∀ loop, s.records loop = ∅ ∧ (s.worker loop).registering = false :=
    fun ha loop => (h.atLoop loop).after ha
  cases l with
  | main a =>
    simp only [ServerLoops.step] at hs
    split at hs
    · exact h.mainStep hg ‹_› (mainStep_ends hs)
    · cases hs
  | stop =>
    simp only [ServerLoops.step] at hs
    split at hs
    · cases hs
      exact h.elsewhere rfl rfl rfl rfl (fun _ hr => by cases hr) hafter
    · cases hs
      exact h
  | quit =>
    simp only [ServerLoops.step] at hs
    split at hs
    · cases hs
      exact h.elsewhere rfl rfl rfl rfl h.notRunning hafter
    · cases hs
  | worker loop a =>
    simp only [ServerLoops.step] at hs
    split at hs
    · cases hs
    · exact h.workerStep (workerStep_ends hs)

/-- Once `shutdown_connections` has returned, every table is empty. -/
def LeavesNothing (s : ServerLoops L) : Prop :=
  s.main.afterShutdown = true → ∀ loop, s.records loop = ∅

/-- **Shutdown leaves nothing behind**: in every run in which the wait of `shutdown_connections` does
not end while a loop is registering a connection, all tables are empty from its return on. -/
theorem nothing_left_behind {s : ServerLoops L}
    (h : (serverLoops mainLoop).Reaches (fun s l => s.WaitsForRegistering l) s) :
    s.LeavesNothing := by
  have hinit : (serverLoops mainLoop).init.Accounted := Accounted.started
  have hinv : s.Accounted := h.invariant hinit fun s l s' hI hg hs => hI.step hg hs
  exact fun ha loop => ((hinv.atLoop loop).after ha).1

/-- An I/O loop has one connection and a second accept queued when the server is stopped. -/
def stopWithQueuedAccept : List (ServerStep (Fin 2)) :=
  [.main (.accept 1), .worker 1 .take, .worker 1 (.check 7), .worker 1 .recheck, .worker 1 .insert,
    .worker 1 .count, .main (.accept 1), .stop, .quit, .main .mainLoopReturns, .main (.drain [0, 1]),
    .main .post, .worker 0 .lock, .worker 0 .unlock, .main .post, .worker 1 .take,
    .worker 1 (.check 8), .worker 1 .take, .worker 1 .lock, .worker 1 (.sweep 7),
    .worker 1 .eraseSwept, .worker 1 .unlock, .main .waitReturns, .main (.resetAcceptor [1]),
    .main .quitLoop]

theorem nothing_left_behind_stopWithQueuedAccept :
    ∃ s ∈ (serverLoops (0 : Fin 2)).run (serverLoops (0 : Fin 2)).init stopWithQueuedAccept,
      s.main = .joining 1 [] ∧ s.LeavesNothing := by
  have hg : (serverLoops (0 : Fin 2)).Admits (fun s l => s.WaitsForRegistering l)
      (serverLoops (0 : Fin 2)).init stopWithQueuedAccept := by
    decide
  obtain ⟨s, hs, hmain⟩ :
      ∃ s ∈ (serverLoops (0 : Fin 2)).run (serverLoops (0 : Fin 2)).init stopWithQueuedAccept,
        s.main = .joining 1 [] := by
    decide
  exact ⟨s, hs, hmain, nothing_left_behind (.of_run _ hs hg)⟩

/-- **The condition is what it takes**: a connection that is being registered when the wait ends is
in its table then or after one more step of its loop. -/
theorem left_behind_of_registering {s s' : ServerLoops L} (h : s.Accounted)
    (hs : s.step mainLoop (.main .waitReturns) = some s') {loop : L}
    (hreg : (s.worker loop).registering = true) :
    ∃ as t, (serverLoops mainLoop).run s' as = some t ∧ ¬t.LeavesNothing := by
  have hends : s' = { s with main := .returned } := by
    simp only [ServerLoops.step] at hs
    split at hs
    · cases mainStep_ends hs with
      | waitReturns _ _ _ => rfl
    · cases hs
  subst hends
  have hfits := (h.atLoop loop).fits
  cases hph : s.worker loop with
  | inserted conn =>
    rw [hph] at hfits
    refine ⟨[], _, rfl, fun hleft => ?_⟩
    have hempty : s.records loop = ∅ := hleft rfl loop
    rw [hempty] at hfits
    cases hfits
  | admitted conn =>
    have hrun : (serverLoops mainLoop).run { s with main := .returned } [.worker loop .insert] =
        some { s with
          main := .returned
          worker := Function.update s.worker loop (.inserted conn)
          records := Function.update s.records loop (insert conn (s.records loop)) } := by
      simp only [System.run, serverLoops, ServerLoops.step, mainIsBusy, workerStep, hph]
      rfl
    refine ⟨_, _, hrun, fun hleft => ?_⟩
    have hempty := hleft rfl loop
    change Function.update s.records loop (insert conn (s.records loop)) loop = ∅ at hempty
    rw [Function.update_self] at hempty
    exact Finset.insert_ne_empty _ _ hempty
  | idle | creating | made _ | removed | locking | sweeping | countedOff _ | exited =>
    rw [hph] at hreg
    cases hreg

/-- **A connection can be registered after the shutdown**: its loop passes the last check just before
`stop()`, the counter is at zero, and `shutdown_connections` returns before the record is inserted. -/
theorem registered_after_shutdown :
    ¬∀ s : ServerLoops (Fin 2), (serverLoops 0).Reachable s → s.LeavesNothing := by
  intro h
  obtain ⟨s, hs, hmain, hrecords⟩ :
      ∃ s ∈ (serverLoops (0 : Fin 2)).run (serverLoops (0 : Fin 2)).init
          [.main (.accept 1), .worker 1 .take, .worker 1 (.check 7), .worker 1 .recheck, .stop, .quit,
            .main .mainLoopReturns, .main (.drain [0, 1]), .main .post, .worker 0 .lock,
            .worker 0 .unlock, .main .post, .main .waitReturns, .worker 1 .insert],
        s.main = .returned ∧ s.records 1 = {7} := by
    decide
  have hempty := h s (.of_run _ hs) (by rw [hmain]; rfl) 1
  rw [hrecords] at hempty
  exact absurd hempty (by decide)

end ServerLoops

end Tudou
