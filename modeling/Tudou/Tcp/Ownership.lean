import Mathlib.Data.List.Nodup
import Tudou.Foundation.Run

/-!
# Who holds a `TcpConnection`, and where the last reference goes

Model of the references to the connections of one `EventLoop`: the table of `TcpServer`, the
`shared_ptr`s on the stack of the loop thread, the functors that `send`, `send_file` and
`force_close` of `src/tudou/tcp/TcpConnection.cpp` queue from other threads, and the copies user code
keeps on any thread.  The last reference takes the connection and its `Channel` with it, and
`~Channel` of `src/tudou/reactor/Channel.cpp` unregisters with the loop.

* `Ownership` — who refers to which connection, and where connections have died so far.
* `ownership` — the transition system: the loop thread, any number of other threads, and the end of
  the loop, with the functors that are queued then.
* `StepEnds` — a step makes a connection, keeps what is referred to, or gives one reference up.
* `die_on_loop` — **connections die on their own loop**, if no other thread gives up a last reference
  and nothing refers to a connection when the poller goes.
* `dropped_by_worker` — a worker thread with the last copy; `violation_of_drop` and
  `violation_of_destroyPoller`, the condition leaves out nothing else.
-/

namespace Tudou

open Transition

/-- What a functor with a reference to a connection does. -/
inductive ConnTask where
  | sendInLoop
  | sendFileInLoop
  | sendFileWithHeaderInLoop
  | forceCloseInLoop
  /-- Whatever user code has queued. -/
  | user
  deriving DecidableEq, Repr

/-- A functor, and the connection whose `self` it captures. -/
structure ConnFunctor where
  task : ConnTask
  conn : Nat
  deriving DecidableEq, Repr

inductive LoopLife where
  /-- From the constructor of the `EventLoop` to its destructor. -/
  | alive
  /-- `~EventLoop` is destroying the members behind the poller. -/
  | destructing
  /-- The poller is gone. -/
  | gone
  deriving DecidableEq, Repr

/-- The last reference to a connection has gone: `~Channel` unregisters on this thread (`none` is the
loop thread), with the poller of the loop there or not. -/
structure Unregistration (T : Type*) where
  conn : Nat
  thread : Option T
  pollerAlive : Bool
  deriving DecidableEq, Repr

/-- The references to the connections of one loop. -/
structure Ownership (T : Type*) where
  life : LoopLife
  /-- Connections created so far. -/
  created : Nat
  /-- `connectionRecordsByLoop_` of this loop. -/
  records : List Nat
  /-- On the stack of the loop thread: the connection being created, the tie and the
  `shared_from_this()` of a callback, the one a heartbeat has locked, the records being shut down. -/
  guards : List Nat
  /-- Copies in user code, each with the thread that will give it up. -/
  copies : List (Option T × Nat)
  /-- `pendingFunctors_`, as far as they capture a connection. -/
  pendingFunctors : List ConnFunctor
  /-- What `do_pending_functors` has swapped out and not started. -/
  batch : List ConnFunctor
  running : Option ConnFunctor
  /-- `isClosed_`. -/
  closed : List Nat
  unregistered : List (Unregistration T)

inductive OwnershipLabel (T : Type*) where
  /-- `create_connection`, up to its last check of the state. -/
  | create
  /-- `create_connection` puts it into the table. -/
  | insertRecord (c : Nat)
  /-- The loop thread takes a reference: a dispatch, a callback, a heartbeat. -/
  | guard (c : Nat)
  | unguard (c : Nat)
  /-- `close_connection`, down to `remove_connection`. -/
  | close (c : Nat)
  /-- The functor of `shutdown_connections` takes the records out of the table. -/
  | drain
  /-- Thread `x` passes a copy on to user code of thread `y`. -/
  | copy (x : Option T) (c : Nat) (y : Option T)
  /-- User code of thread `x` gives a copy up. -/
  | drop (x : Option T) (c : Nat)
  /-- Thread `x` queues a functor, in `send` and so on or by itself. -/
  | queue (x : Option T) (c : Nat) (task : ConnTask)
  | takeBatch
  | runFunctor
  /-- The functor returns and is destroyed. -/
  | functorDone
  /-- `~EventLoop` is entered. -/
  | destroyLoop
  /-- `~EventLoop` destroys a functor of the queue. -/
  | discard
  | destroyPoller
  /-- `connectionRecordsByLoop_.clear()` in `start()`, on thread `x`. -/
  | clearRecord (x : Option T) (c : Nat)
  deriving DecidableEq, Repr

namespace Ownership

variable {T : Type*} [DecidableEq T]

/-- Some `shared_ptr` to the connection exists. -/
def refersTo (s : Ownership T) (c : Nat) : Bool :=
  c ∈ s.records ∨ c ∈ s.guards ∨ c ∈ s.copies.map (·.2) ∨ c ∈ s.pendingFunctors.map (·.conn) ∨
    c ∈ s.batch.map (·.conn) ∨ c ∈ s.running.map (·.conn)

/-- A reference to `c` has gone on thread `x`; with the last one the connection is destroyed. -/
def settle (s : Ownership T) (x : Option T) (c : Nat) : Ownership T :=
  if s.refersTo c then s
  else { s with unregistered := s.unregistered ++ [⟨c, x, s.life ≠ .gone⟩] }

/-- Code on thread `x` has a reference at hand: its own copy, or on the loop thread the argument of a
callback or the capture of the running functor. -/
def hasAtHand (s : Ownership T) (x : Option T) (c : Nat) : Bool :=
  (x, c) ∈ s.copies ∨ x = none ∧ (c ∈ s.guards ∨ c ∈ s.running.map (·.conn))

/-- `close_connection`: the first call takes the record out of the table. -/
def closeConnection (s : Ownership T) (c : Nat) : Ownership T :=
  if c ∈ s.closed then s else { s with closed := c :: s.closed, records := s.records.erase c }

/-- A thread other than the loop's queues in the calls of a connection, any thread by itself. -/
def mayQueue (x : Option T) (task : ConnTask) : Bool := x ≠ none || task = .user

def step (s : Ownership T) : OwnershipLabel T → Option (Ownership T)
  | .create =>
    if s.life = .alive then
      some { s with created := s.created + 1, guards := s.created :: s.guards }
    else none
  | .insertRecord c =>
    if s.life = .alive ∧ c ∈ s.guards ∧ c ∉ s.records ∧ c ∉ s.closed then
      some { s with records := c :: s.records }
    else none
  | .guard c =>
    if s.life = .alive ∧ s.refersTo c then some { s with guards := c :: s.guards } else none
  | .unguard c =>
    if c ∈ s.guards then some ({ s with guards := s.guards.erase c }.settle none c) else none
  | .close c => if s.life = .alive ∧ s.hasAtHand none c then some (s.closeConnection c) else none
  | .drain =>
    if s.life = .alive then some { s with records := [], guards := s.records ++ s.guards } else none
  | .copy x c y => if s.hasAtHand x c then some { s with copies := (y, c) :: s.copies } else none
  | .drop x c =>
    if (x, c) ∈ s.copies then some ({ s with copies := s.copies.erase (x, c) }.settle x c) else none
  | .queue x c task =>
    if s.life = .alive ∧ s.hasAtHand x c ∧ mayQueue x task then
      some { s with pendingFunctors := s.pendingFunctors ++ [⟨task, c⟩] }
    else none
  | .takeBatch =>
    if s.life = .alive ∧ s.batch = [] ∧ s.running = none then
      some { s with pendingFunctors := [], batch := s.pendingFunctors }
    else none
  | .runFunctor =>
    match s.running, s.batch with
    | none, f :: rest =>
      let s' := { s with batch := rest, running := some f }
      some (if f.task = .forceCloseInLoop then s'.closeConnection f.conn else s')
    | _, _ => none
  | .functorDone =>
    match s.running with
    | none => none
    | some f => some ({ s with running := none }.settle none f.conn)
  | .destroyLoop =>
    if s.life = .alive ∧ s.guards = [] ∧ s.batch = [] ∧ s.running = none then
      some { s with life := .destructing }
    else none
  | .discard =>
    match s.life, s.pendingFunctors with
    | .destructing, f :: rest => some ({ s with pendingFunctors := rest }.settle none f.conn)
    | _, _ => none
  | .destroyPoller =>
    if s.life = .destructing ∧ s.pendingFunctors = [] then some { s with life := .gone } else none
  | .clearRecord x c =>
    if s.life = .gone ∧ c ∈ s.records then
      some ({ s with records := s.records.erase c }.settle x c)
    else none

def init : Ownership T where
  life := .alive
  created := 0
  records := []
  guards := []
  copies := []
  pendingFunctors := []
  batch := []
  running := none
  closed := []
  unregistered := []

/-- **Connections die on their own loop.** -/
structure DieOnLoop (s : Ownership T) : Prop where
  /-- A connection has been unregistered exactly if the last reference to it has gone, -/
  unregistered_iff : ∀ c < s.created, c ∈ s.unregistered.map (·.conn) ↔ s.refersTo c = false
  /-- and once. -/
  once : (s.unregistered.map (·.conn)).Nodup
  onLoop : ∀ e ∈ s.unregistered, e.thread = none ∧ e.pollerAlive = true

/-- A thread other than the loop's gives a copy up only while something else refers to the connection:
its record, a queued or running functor, a callback on the loop, another copy.  When the poller goes,
nothing refers to a connection. -/
def Proper (s : Ownership T) : OwnershipLabel T → Prop
  | .drop (some t) c => { s with copies := s.copies.erase (some t, c) }.refersTo c = true
  | .destroyPoller => ∀ c < s.created, s.refersTo c = false
  | _ => True

instance (s : Ownership T) (l : OwnershipLabel T) : Decidable (s.Proper l) := by
  unfold Proper
  split <;> exact inferInstance

end Ownership

/-- **The connections of one loop, and any number of other threads.** -/
def ownership (T : Type*) [DecidableEq T] : System (Ownership T) (OwnershipLabel T) where
  init := Ownership.init
  step := Ownership.step

namespace Ownership

variable {T : Type*}

/-! ## References -/

theorem refersTo_iff {s : Ownership T} {c : Nat} : s.refersTo c = true ↔
    c ∈ s.records ∨ c ∈ s.guards ∨ c ∈ s.copies.map (·.2) ∨ c ∈ s.pendingFunctors.map (·.conn) ∨
      c ∈ s.batch.map (·.conn) ∨ c ∈ s.running.map (·.conn) :=
  decide_eq_true_iff

theorem refersTo_congr {s s' : Ownership T} {c : Nat}
    (h : s'.refersTo c = true ↔ s.refersTo c = true) : s'.refersTo c = s.refersTo c :=
  Bool.eq_iff_iff.mpr h

/-- A step that touches references to one connection only, which keeps some. -/
theorem refersTo_of_one {s s' : Ownership T} {c : Nat} (hc : s.refersTo c = true)
    (hc' : s'.refersTo c = true)
    (hother : ∀ c' ≠ c, s'.refersTo c' = true ↔ s.refersTo c' = true) (c' : Nat) :
    s'.refersTo c' = s.refersTo c' := by
  by_cases heq : c' = c
  · rw [heq, hc, hc']
  · exact refersTo_congr (hother c' heq)

@[simp] theorem settle_created (s : Ownership T) (x : Option T) (c : Nat) :
    (s.settle x c).created = s.created := by
  unfold settle
  split <;> rfl

@[simp] theorem settle_life (s : Ownership T) (x : Option T) (c : Nat) :
    (s.settle x c).life = s.life := by
  unfold settle
  split <;> rfl

@[simp] theorem settle_refersTo (s : Ownership T) (x : Option T) (c c' : Nat) :
    (s.settle x c).refersTo c' = s.refersTo c' := by
  unfold settle
  split <;> rfl

theorem settle_of_refersTo {s : Ownership T} {x : Option T} {c : Nat} (h : s.refersTo c = true) :
    s.settle x c = s :=
  if_pos h

theorem settle_unregistered {s : Ownership T} {x : Option T} {c : Nat} (h : s.refersTo c = false) :
    (s.settle x c).unregistered = s.unregistered ++ [⟨c, x, s.life ≠ .gone⟩] := by
  rw [settle, if_neg (by simp [h])]

@[simp] theorem closeConnection_created (s : Ownership T) (c : Nat) :
    (s.closeConnection c).created = s.created := by
  unfold closeConnection
  split <;> rfl

@[simp] theorem closeConnection_life (s : Ownership T) (c : Nat) :
    (s.closeConnection c).life = s.life := by
  unfold closeConnection
  split <;> rfl

@[simp] theorem closeConnection_unregistered (s : Ownership T) (c : Nat) :
    (s.closeConnection c).unregistered = s.unregistered := by
  unfold closeConnection
  split <;> rfl

/-- The first close takes the record away, and whoever closes still has a reference. -/
theorem closeConnection_refersTo {s : Ownership T} {c : Nat}
    (h : c ∈ s.guards ∨ c ∈ s.copies.map (·.2) ∨ c ∈ s.running.map (·.conn)) (c' : Nat) :
    (s.closeConnection c).refersTo c' = s.refersTo c' := by
  unfold closeConnection
  split
  · rfl
  · have hlater : ∀ {r : Ownership T}, r.guards = s.guards → r.copies = s.copies →
        r.running = s.running → r.refersTo c = true := fun hg hco hr => by
      rw [refersTo_iff, hg, hco, hr]
      rcases h with h | h | h
      · exact .inr (.inl h)
      · exact .inr (.inr (.inl h))
      · exact .inr (.inr (.inr (.inr (.inr h))))
    refine refersTo_of_one (c := c) ?_ ?_ (fun c' hne => ?_) c'
    · exact hlater rfl rfl rfl
    · exact hlater rfl rfl rfl
    · simp only [refersTo_iff]
      rw [List.mem_erase_of_ne hne]

variable [DecidableEq T]

/-- What code has at hand is referred to. -/
theorem refersTo_of_hasAtHand {s : Ownership T} {x : Option T} {c : Nat} (h : s.hasAtHand x c = true) :
    s.refersTo c = true := by
  rw [refersTo_iff]
  rcases of_decide_eq_true h with hcopy | ⟨-, hguard | hrun⟩
  · exact .inr (.inr (.inl (List.mem_map_of_mem hcopy)))
  · exact .inr (.inl hguard)
  · exact .inr (.inr (.inr (.inr (.inr hrun))))

/-- Dropping a copy of one connection leaves the copies of the others. -/
theorem mem_map_erase_of_ne {x : Option T} {c c' : Nat} (h : c' ≠ c) {copies : List (Option T × Nat)} :
    c' ∈ (copies.erase (x, c)).map (·.2) ↔ c' ∈ copies.map (·.2) := by
  simp only [List.mem_map]
  constructor
  · rintro ⟨p, hp, rfl⟩
    exact ⟨p, List.mem_of_mem_erase hp, rfl⟩
  · rintro ⟨p, hp, rfl⟩
    refine ⟨p, (List.mem_erase_of_ne ?_).mpr hp, rfl⟩
    rintro rfl
    exact h rfl

/-! ## What a step does -/

/-- The loop goes on, or its destructor begins, or its poller goes. -/
def LifeStep (s : Ownership T) (l : OwnershipLabel T) (s' : Ownership T) : Prop :=
  s'.life = s.life ∨ l = .destroyLoop ∧ s.life = .alive ∧ s'.life = .destructing ∨
    l = .destroyPoller ∧ s.life = .destructing ∧ s'.life = .gone

/-- **A step** makes a connection, leaves unchanged which connections are referred to, or takes one
reference away. -/
inductive StepEnds (s : Ownership T) : OwnershipLabel T → Ownership T → Prop where
  | made {s' : Ownership T} : s'.created = s.created + 1 → s'.unregistered = s.unregistered →
      s.life = .alive → s'.life = s.life → s'.refersTo s.created = true →
      (∀ c ≠ s.created, s'.refersTo c = s.refersTo c) → StepEnds s .create s'
  | kept {l : OwnershipLabel T} {s' : Ownership T} : s'.created = s.created →
      s'.unregistered = s.unregistered → LifeStep s l s' →
      (∀ c, s'.refersTo c = s.refersTo c) → StepEnds s l s'
  /-- The state `r` has a reference to `c` less, given up on thread `x`: the loop's, or another one
  that drops its copy, or whichever clears the tables when the loop is gone. -/
  | released {l : OwnershipLabel T} {x : Option T} {c : Nat} {r : Ownership T} :
      r.created = s.created → r.unregistered = s.unregistered → r.life = s.life →
      s.refersTo c = true → (∀ c' ≠ c, r.refersTo c' = s.refersTo c') →
      (x = none ∨ s.life = .gone ∨
        l = .drop x c ∧ r = { s with copies := s.copies.erase (x, c) }) →
      StepEnds s l (r.settle x c)

/-- A close: who closes still has a reference. -/
theorem close_ends {s s' : Ownership T} {c : Nat} (h : s.step (.close c) = some s') :
    StepEnds s (.close c) s' := by
  simp only [step] at h
  split at h
  · rename_i hc
    cases h
    have hhand : c ∈ s.guards ∨ c ∈ s.copies.map (·.2) ∨ c ∈ s.running.map (·.conn) := by
      rcases of_decide_eq_true hc.2 with hcopy | ⟨-, hguard | hrun⟩
      · exact .inr (.inl (List.mem_map_of_mem hcopy))
      · exact .inl hguard
      · exact .inr (.inr hrun)
    exact .kept (closeConnection_created s c) (closeConnection_unregistered s c)
      (.inl (closeConnection_life s c)) (closeConnection_refersTo hhand)
  · cases h

theorem copy_ends {s s' : Ownership T} {x y : Option T} {c : Nat} (h : s.step (.copy x c y) = some s') :
    StepEnds s (.copy x c y) s' := by
  simp only [step] at h
  split at h
  · rename_i hc
    cases h
    refine .kept rfl rfl (.inl rfl) (refersTo_of_one (refersTo_of_hasAtHand hc)
      (refersTo_iff.mpr (.inr (.inr (.inl (by simp))))) fun c' hne => ?_)
    simp only [refersTo_iff, List.map_cons, List.mem_cons, hne, false_or]
  · cases h

theorem drop_ends {s s' : Ownership T} {x : Option T} {c : Nat} (h : s.step (.drop x c) = some s') :
    StepEnds s (.drop x c) s' := by
  simp only [step] at h
  split at h
  · rename_i hc
    cases h
    refine .released rfl rfl rfl (refersTo_iff.mpr (.inr (.inr (.inl (List.mem_map_of_mem hc)))))
      (fun c' hne => ?_) (.inr (.inr ⟨rfl, rfl⟩))
    refine refersTo_congr ?_
    simp only [refersTo_iff]
    rw [mem_map_erase_of_ne hne]
  · cases h

theorem queue_ends {s s' : Ownership T} {x : Option T} {c : Nat} {task : ConnTask}
    (h : s.step (.queue x c task) = some s') : StepEnds s (.queue x c task) s' := by
  simp only [step] at h
  split at h
  · rename_i hc
    cases h
    refine .kept rfl rfl (.inl rfl) (refersTo_of_one (refersTo_of_hasAtHand hc.2.1)
      (refersTo_iff.mpr (.inr (.inr (.inr (.inl (by simp)))))) fun c' hne => ?_)
    simp only [refersTo_iff, List.map_append, List.map_cons, List.map_nil, List.mem_append,
      List.mem_singleton, hne, or_false]
  · cases h

/-- The functor at the head of the batch keeps its connection while it runs. -/
theorem runFunctor_ends {s s' : Ownership T} (h : s.step .runFunctor = some s') :
    StepEnds s .runFunctor s' := by
  simp only [step] at h
  split at h
  · rename_i f rest hrun hbatch
    have hmoved : ∀ c, ({ s with batch := rest, running := some f } : Ownership T).refersTo c =
        s.refersTo c := fun c => refersTo_congr (by
      simp only [refersTo_iff, hrun, hbatch, List.map_cons, List.mem_cons, Option.map_some,
        Option.map_none, Option.mem_some_iff, Option.not_mem_none, or_false]
      rw [or_comm (a := c ∈ rest.map (·.conn)), eq_comm])
    split at h
    · cases h
      refine .kept (closeConnection_created _ _) (closeConnection_unregistered _ _)
        (.inl (closeConnection_life _ _)) fun c => ?_
      rw [closeConnection_refersTo (.inr (.inr rfl)), hmoved]
    · cases h
      exact .kept rfl rfl (.inl rfl) hmoved
  · cases h

theorem functorDone_ends {s s' : Ownership T} (h : s.step .functorDone = some s') :
    StepEnds s .functorDone s' := by
  simp only [step] at h
  split at h
  · cases h
  · rename_i f hrun
    cases h
    refine .released rfl rfl rfl ?_ (fun c' hne => ?_) (.inl rfl)
    · rw [refersTo_iff, hrun]
      exact .inr (.inr (.inr (.inr (.inr rfl))))
    · refine refersTo_congr ?_
      simp only [refersTo_iff, hrun, Option.map_some, Option.map_none, Option.mem_some_iff,
        Option.not_mem_none, hne.symm]

theorem discard_ends {s s' : Ownership T} (h : s.step .discard = some s') :
    StepEnds s .discard s' := by
  simp only [step] at h
  split at h
  · rename_i f rest hlife hpending
    cases h
    refine .released rfl rfl rfl ?_ (fun c' hne => ?_) (.inl rfl)
    · rw [refersTo_iff, hpending]
      exact .inr (.inr (.inr (.inl (by simp))))
    · refine refersTo_congr ?_
      simp only [refersTo_iff, hpending, List.map_cons, List.mem_cons, hne, false_or]
  · cases h

theorem step_ends {s s' : Ownership T} {l : OwnershipLabel T} (h : s.step l = some s') :
    StepEnds s l s' := by
  cases l with
  | create =>
    simp only [step] at h
    split at h
    · rename_i halive
      cases h
      refine .made rfl rfl halive rfl (refersTo_iff.mpr (.inr (.inl List.mem_cons_self))) fun c hc => ?_
      refine refersTo_congr ?_
      simp only [refersTo_iff, List.mem_cons, hc, false_or]
    · cases h
  | insertRecord c =>
    simp only [step] at h
    split at h
    · rename_i hc
      cases h
      refine .kept rfl rfl (.inl rfl) (refersTo_of_one (refersTo_iff.mpr (.inr (.inl hc.2.1)))
        (refersTo_iff.mpr (.inl List.mem_cons_self)) fun c' hne => ?_)
      simp only [refersTo_iff, List.mem_cons, hne, false_or]
    · cases h
  | guard c =>
    simp only [step] at h
    split at h
    · rename_i hc
      cases h
      refine .kept rfl rfl (.inl rfl) (refersTo_of_one hc.2
        (refersTo_iff.mpr (.inr (.inl List.mem_cons_self))) fun c' hne => ?_)
      simp only [refersTo_iff, List.mem_cons, hne, false_or]
    · cases h
  | unguard c =>
    simp only [step] at h
    split at h
    · rename_i hc
      cases h
      refine .released rfl rfl rfl (refersTo_iff.mpr (.inr (.inl hc))) (fun c' hne => ?_) (.inl rfl)
      refine refersTo_congr ?_
      simp only [refersTo_iff, List.mem_erase_of_ne hne]
    · cases h
  | close c => exact close_ends h
  | drain =>
    simp only [step] at h
    split at h
    · cases h
      refine .kept rfl rfl (.inl rfl) fun c => refersTo_congr ?_
      simp only [refersTo_iff, List.mem_append, List.not_mem_nil, false_or, or_assoc]
    · cases h
  | copy x c y => exact copy_ends h
  | drop x c => exact drop_ends h
  | queue x c task => exact queue_ends h
  | takeBatch =>
    simp only [step] at h
    split at h
    · rename_i hc
      cases h
      refine .kept rfl rfl (.inl rfl) fun c => refersTo_congr ?_
      simp only [refersTo_iff, hc.2.1, hc.2.2, List.map_nil, List.not_mem_nil, false_or]
    · cases h
  | runFunctor => exact runFunctor_ends h
  | functorDone => exact functorDone_ends h
  | destroyLoop =>
    simp only [step] at h
    split at h
    · rename_i hc
      cases h
      exact .kept rfl rfl (.inr (.inl ⟨rfl, hc.1, rfl⟩)) fun _ => rfl
    · cases h
  | discard => exact discard_ends h
  | destroyPoller =>
    simp only [step] at h
    split at h
    · rename_i hc
      cases h
      exact .kept rfl rfl (.inr (.inr ⟨rfl, hc.1, rfl⟩)) fun _ => rfl
    · cases h
  | clearRecord x c =>
    simp only [step] at h
    split at h
    · rename_i hc
      cases h
      refine .released rfl rfl rfl (refersTo_iff.mpr (.inl hc.2)) (fun c' hne => ?_)
        (.inr (.inl hc.1))
      refine refersTo_congr ?_
      simp only [refersTo_iff, List.mem_erase_of_ne hne]
    · cases h

/-! ## Each connection dies once -/

/-- The connections made so far are referred to or have been unregistered, once. -/
structure Accounted (s : Ownership T) : Prop where
  fresh : ∀ c, s.created ≤ c → s.refersTo c = false ∧ c ∉ s.unregistered.map (·.conn)
  unregistered_iff : ∀ c < s.created, c ∈ s.unregistered.map (·.conn) ↔ s.refersTo c = false
  once : (s.unregistered.map (·.conn)).Nodup

omit [DecidableEq T] in
theorem Accounted.settle {s r : Ownership T} {x : Option T} {c : Nat} (h : s.Accounted)
    (hcreated : r.created = s.created) (hunreg : r.unregistered = s.unregistered)
    (hc : s.refersTo c = true) (hother : ∀ c' ≠ c, r.refersTo c' = s.refersTo c') :
    (r.settle x c).Accounted := by
  have hlt : c < s.created := by
    refine Nat.lt_of_not_le fun hge => ?_
    rw [(h.fresh c hge).1] at hc
    cases hc
  have hnot : c ∉ s.unregistered.map (·.conn) := by
    rw [h.unregistered_iff c hlt, hc]
    exact Bool.noConfusion
  cases hr : r.refersTo c with
  | true =>
    rw [settle_of_refersTo hr]
    have hsame : ∀ c', r.refersTo c' = s.refersTo c' := fun c' => by
      by_cases heq : c' = c
      · rw [heq, hr, hc]
      · exact hother c' heq
    refine ⟨fun c' hge => ?_, fun c' hlt' => ?_, ?_⟩
    · rw [hsame, hunreg]
      exact h.fresh c' (hcreated ▸ hge)
    · rw [hsame, hunreg]
      exact h.unregistered_iff c' (hcreated ▸ hlt')
    · rw [hunreg]
      exact h.once
  | false =>
    have hlog : (r.settle x c).unregistered.map (·.conn) = s.unregistered.map (·.conn) ++ [c] := by
      rw [settle_unregistered hr, hunreg, List.map_append]
      rfl
    refine ⟨fun c' hge => ?_, fun c' hlt' => ?_, ?_⟩
    · rw [settle_created, hcreated] at hge
      have hne : c' ≠ c := by omega
      rw [settle_refersTo, hother c' hne, hlog]
      refine ⟨(h.fresh c' hge).1, fun hmem => ?_⟩
      rcases List.mem_append.mp hmem with hmem | hmem
      · exact (h.fresh c' hge).2 hmem
      · exact hne (List.mem_singleton.mp hmem)
    · rw [settle_created, hcreated] at hlt'
      rw [settle_refersTo, hlog, List.mem_append, List.mem_singleton]
      by_cases heq : c' = c
      · subst heq
        exact iff_of_true (.inr rfl) hr
      · rw [hother c' heq, h.unregistered_iff c' hlt']
        exact or_iff_left heq
    · rw [hlog]
      exact List.nodup_append.mpr ⟨h.once, List.nodup_singleton c, fun a ha b hb heq => by
        rw [List.mem_singleton.mp hb] at heq
        exact hnot (heq ▸ ha)⟩

/-- **Step lemma**, for any step. -/
theorem Accounted.step {s s' : Ownership T} {l : OwnershipLabel T} (h : s.Accounted)
    (hs : StepEnds s l s') : s'.Accounted := by
  cases hs with
  | made hcreated hunreg _ _ hnew hother =>
    have hfresh := h.fresh s.created (Nat.le_refl _)
    refine ⟨fun c hge => ?_, fun c hlt => ?_, by rw [hunreg]; exact h.once⟩
    · rw [hother c (by omega), hunreg]
      exact h.fresh c (by omega)
    · rw [hunreg]
      by_cases heq : c = s.created
      · rw [heq, hnew]
        exact iff_of_false hfresh.2 Bool.noConfusion
      · rw [hother c heq]
        exact h.unregistered_iff c (by omega)
  | kept hcreated hunreg _ hsame =>
    refine ⟨fun c hge => ?_, fun c hlt => ?_, by rw [hunreg]; exact h.once⟩
    · rw [hsame, hunreg]
      exact h.fresh c (hcreated ▸ hge)
    · rw [hsame, hunreg]
      exact h.unregistered_iff c (hcreated ▸ hlt)
  | released hcreated hunreg _ hc hother _ => exact h.settle hcreated hunreg hc hother

theorem accounted_of_reachable {s : Ownership T} {G : Ownership T → OwnershipLabel T → Prop}
    (h : (ownership T).Reaches G s) : s.Accounted := by
  have hinit : (ownership T).init.Accounted :=
    ⟨fun _ _ => ⟨rfl, List.not_mem_nil⟩, fun _ hlt => absurd hlt (Nat.not_lt_zero _), List.nodup_nil⟩
  exact h.invariant hinit fun s l s' hI _ hs => hI.step (step_ends hs)

/-! ## Where the last reference goes -/

/-- Unregistrations so far were the loop's, and with the poller everything has gone. -/
structure OnLoop (s : Ownership T) : Prop where
  onLoop : ∀ e ∈ s.unregistered, e.thread = none ∧ e.pollerAlive = true
  gone : s.life = .gone → ∀ c, s.refersTo c = false

omit [DecidableEq T] in
/-- A last reference given up by the loop thread with the poller there. -/
theorem OnLoop.settle {s r : Ownership T} {c : Nat} (h : s.OnLoop)
    (hunreg : r.unregistered = s.unregistered) (hlife : r.life = s.life) (halive : s.life ≠ .gone) :
    (r.settle none c).OnLoop := by
  refine ⟨fun e he => ?_, fun hgone => ?_⟩
  · cases hr : r.refersTo c with
    | true =>
      rw [settle_of_refersTo hr, hunreg] at he
      exact h.onLoop e he
    | false =>
      rw [settle_unregistered hr, hunreg] at he
      rcases List.mem_append.mp he with he | he
      · exact h.onLoop e he
      · rw [List.mem_singleton.mp he, hlife]
        exact ⟨rfl, decide_eq_true halive⟩
  · rw [settle_life, hlife] at hgone
    exact absurd hgone halive

/-- **Step lemma**, for a step that meets the condition. -/
theorem OnLoop.step {s s' : Ownership T} {l : OwnershipLabel T} (h : s.OnLoop) (hA : s.Accounted)
    (hg : s.Proper l) (hs : StepEnds s l s') : s'.OnLoop := by
  cases hs with
  | made _ hunreg halive hlife _ _ =>
    refine ⟨fun e he => h.onLoop e (hunreg ▸ he), fun hgone => ?_⟩
    rw [hlife, halive] at hgone
    cases hgone
  | kept _ hunreg hlife hsame =>
    refine ⟨fun e he => h.onLoop e (hunreg ▸ he), fun hgone c => ?_⟩
    rw [hsame]
    rcases hlife with hlife | ⟨-, -, hlife⟩ | ⟨rfl, -, -⟩
    · exact h.gone (hlife ▸ hgone) c
    · rw [hlife] at hgone
      cases hgone
    · by_cases hlt : c < s.created
      · exact hg c hlt
      · exact (hA.fresh c (Nat.le_of_not_lt hlt)).1
  | @released _ x c r _ hunreg hlife hc _ hcause =>
    have halive : s.life ≠ .gone := by
      intro hgone
      rw [h.gone hgone c] at hc
      cases hc
    rcases hcause with rfl | hgone | ⟨rfl, rfl⟩
    · exact h.settle hunreg hlife halive
    · exact absurd hgone halive
    · cases x with
      | none => exact h.settle hunreg hlife halive
      | some t =>
        -- another thread drops its copy: by the condition it is not the last
        rw [settle_of_refersTo hg]
        exact ⟨h.onLoop, fun hgone => absurd hgone halive⟩

/-- **Connections die on their own loop**: in every run in which threads other than the loop's give
up no last reference, and nothing refers to a connection any more when the poller goes, each
connection that has lost its last reference has been unregistered once, by the loop thread, with the
poller there. -/
theorem die_on_loop {s : Ownership T} (h : (ownership T).Reaches Proper s) : s.DieOnLoop := by
  have hA : s.Accounted := accounted_of_reachable h
  have hinit : (ownership T).init.Accounted ∧ (ownership T).init.OnLoop :=
    ⟨accounted_of_reachable (G := Proper) .init,
      ⟨fun _ he => absurd he List.not_mem_nil, fun hgone => by cases hgone⟩⟩
  have hinv : s.Accounted ∧ s.OnLoop :=
    h.invariant (I := fun s => s.Accounted ∧ s.OnLoop) hinit fun s l s' hI hg hs =>
      ⟨hI.1.step (step_ends hs), hI.2.step hI.1 hg (step_ends hs)⟩
  exact ⟨hA.unregistered_iff, hA.once, hinv.2.onLoop⟩

/-- A worker gets a copy in the message callback and answers with `send` and `force_close`; it drops
the copy while its functors are queued.  The loop closes the connection, destroys the functors, and
ends, with one of a second connection still queued. -/
def answerFromWorker : List (OwnershipLabel Nat) :=
  [.create, .insertRecord 0, .unguard 0, .create, .insertRecord 1, .unguard 1, .guard 0,
    .copy none 0 (some 7), .unguard 0, .queue (some 7) 0 .sendInLoop,
    .queue (some 7) 0 .forceCloseInLoop, .takeBatch, .drop (some 7) 0, .runFunctor, .functorDone,
    .runFunctor, .functorDone, .guard 1, .copy none 1 (some 7), .queue (some 7) 1 .sendFileInLoop,
    .drop (some 7) 1, .close 1, .unguard 1, .destroyLoop, .discard, .destroyPoller]

theorem die_on_loop_answerFromWorker :
    ∃ s ∈ (ownership Nat).run (ownership Nat).init answerFromWorker,
      s.unregistered = [⟨0, none, true⟩, ⟨1, none, true⟩] ∧ s.life = .gone ∧ s.DieOnLoop := by
  have hg : (ownership Nat).Admits Proper (ownership Nat).init answerFromWorker := by decide
  obtain ⟨s, hs, hunreg, hlife⟩ : ∃ s ∈ (ownership Nat).run (ownership Nat).init answerFromWorker,
      s.unregistered = [⟨0, none, true⟩, ⟨1, none, true⟩] ∧ s.life = .gone := by
    decide
  exact ⟨s, hs, hunreg, hlife, die_on_loop (.of_run _ hs hg)⟩

/-- **A worker can have the last copy**: it got it in a callback, the peer has closed, the record has
gone, and `~Channel` runs on the worker's thread; or the loop has gone meanwhile. -/
theorem dropped_by_worker :
    (∃ s ∈ (ownership Nat).run (ownership Nat).init
        [.create, .insertRecord 0, .unguard 0, .guard 0, .copy none 0 (some 7), .close 0, .unguard 0,
          .drop (some 7) 0],
      s.unregistered = [⟨0, some 7, true⟩]) ∧
    (∃ s ∈ (ownership Nat).run (ownership Nat).init
        [.create, .insertRecord 0, .unguard 0, .guard 0, .copy none 0 (some 7), .close 0, .unguard 0,
          .destroyLoop, .destroyPoller, .drop (some 7) 0],
      s.unregistered = [⟨0, some 7, false⟩]) ∧
    ¬∀ s : Ownership Nat, (ownership Nat).Reachable s → s.DieOnLoop := by
  have hworker : ∃ s ∈ (ownership Nat).run (ownership Nat).init
      [.create, .insertRecord 0, .unguard 0, .guard 0, .copy none 0 (some 7), .close 0, .unguard 0,
        .drop (some 7) 0],
      s.unregistered = [⟨0, some 7, true⟩] := by
    decide
  refine ⟨hworker, by decide, fun h => ?_⟩
  obtain ⟨s, hs, hunreg⟩ := hworker
  have hgood := (h s (.of_run _ hs)).onLoop ⟨0, some 7, true⟩ (by rw [hunreg]; exact List.mem_cons_self)
  cases hgood.1

/-! ## The condition is exact -/

/-- **Another thread that gives up a last reference** unregisters the channel. -/
theorem violation_of_drop {s s' : Ownership T} {t : T} {c : Nat}
    (hs : (ownership T).step s (.drop (some t) c) = some s') (hg : ¬s.Proper (.drop (some t) c)) :
    ¬s'.DieOnLoop := by
  have hlast : ({ s with copies := s.copies.erase (some t, c) } : Ownership T).refersTo c = false :=
    Bool.not_eq_true _ ▸ hg
  simp only [ownership, step] at hs
  split at hs
  · cases hs
    intro hgood
    have hevent := hgood.onLoop ⟨c, some t, s.life ≠ .gone⟩ (by
      rw [settle_unregistered hlast]
      exact List.mem_append_right _ (List.mem_singleton_self _))
    cases hevent.1
  · cases hs

/-- The poller is gone and `~Channel` of the connection will find none. -/
structure Late (c : Nat) (s : Ownership T) : Prop where
  gone : s.life = .gone
  created : c < s.created
  late : ∀ e ∈ s.unregistered, e.conn = c → e.pollerAlive = false

theorem Late.step {s s' : Ownership T} {l : OwnershipLabel T} {c : Nat} (h : s.Late c)
    (hs : StepEnds s l s') : s'.Late c := by
  cases hs with
  | made _ _ halive _ _ _ =>
    rw [h.gone] at halive
    cases halive
  | kept hcreated hunreg hlife _ =>
    refine ⟨?_, hcreated ▸ h.created, by rw [hunreg]; exact h.late⟩
    rcases hlife with hlife | ⟨-, halive, -⟩ | ⟨-, -, hlife⟩
    · rw [hlife, h.gone]
    · rw [h.gone] at halive
      cases halive
    · exact hlife
  | @released _ x c' r hcreated hunreg hlife _ _ _ =>
    refine ⟨by rw [settle_life, hlife, h.gone], by rw [settle_created, hcreated]; exact h.created,
      fun e he hec => ?_⟩
    cases hr : r.refersTo c' with
    | true =>
      rw [settle_of_refersTo hr, hunreg] at he
      exact h.late e he hec
    | false =>
      rw [settle_unregistered hr, hunreg] at he
      rcases List.mem_append.mp he with he | he
      · exact h.late e he hec
      · rw [List.mem_singleton.mp he]
        simp [hlife, h.gone]

/-- **A connection that outlives the poller dies too late**, whenever its last reference goes. -/
theorem violation_of_destroyPoller {s s' u : Ownership T} {c : Nat} (h : (ownership T).Reachable s)
    (hs : (ownership T).step s .destroyPoller = some s') (hc : s.refersTo c = true)
    (ls : List (OwnershipLabel T)) (hrun : (ownership T).run s' ls = some u)
    (hlast : u.refersTo c = false) : ¬u.DieOnLoop := by
  have hA := accounted_of_reachable h
  have hlt : c < s.created := by
    refine Nat.lt_of_not_le fun hge => ?_
    rw [(hA.fresh c hge).1] at hc
    cases hc
  have hnot : c ∉ s.unregistered.map (·.conn) := by
    rw [hA.unregistered_iff c hlt, hc]
    exact Bool.noConfusion
  have hu : (ownership T).Reachable u :=
    System.Reaches.append_run ls (h.step trivial hs) hrun (System.admits_true s' ls)
  simp only [ownership, step] at hs
  split at hs
  · cases hs
    have hstart : Late c { s with life := .gone } :=
      ⟨rfl, hlt, fun e he hec => absurd (hec ▸ List.mem_map_of_mem he) hnot⟩
    have hlate : u.Late c := System.run_invariant (G := fun _ _ => True) (I := Late c)
      (fun _ _ _ hI _ hs => hI.step (step_ends hs)) ls hstart hrun (System.admits_true _ ls)
    intro hgood
    obtain ⟨e, he, hec⟩ := List.mem_map.mp ((hgood.unregistered_iff c hlate.created).mpr hlast)
    have halive := (hgood.onLoop e he).2
    rw [hlate.late e he hec] at halive
    cases halive
  · cases hs

end Ownership

end Tudou
