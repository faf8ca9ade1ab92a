import Mathlib.Logic.Function.Basic
import Tudou.Foundation.Run
import Tudou.Reactor.Channel

/-!
# Channels, their owners and the descriptors of a process

Model of `update_channel` and `remove_channel` of `src/tudou/reactor/EpollPoller.cpp`, of the life of
a `Channel`, and of the classes that own a channel together with its descriptor: their destructor
bodies and the order in which their members are destroyed.  The descriptor table is the process's;
the kernel gives a number that is closed to whoever opens next, on any thread.

* `OwnerKind.destructor` — what the destructor of an owner does, from its body and its members.
* `epollCtl`, `updateChannel`, `removeChannel` — the poller against the kernel's interest list.
* `process` — the transition system: any threads, loops and owners, and descriptors of anyone else.
* `FdOutlivesRegistration` — what the poller relies on; `Proper` — which steps keep it.
* `orderly_iff` — **every owner but `BinaryRpcChannel` destroys its channel before it closes**.
-/

namespace Tudou

open Transition

/-! ## The owners of channels -/

/-- The classes that have a `Channel` and its descriptor as members. -/
inductive OwnerKind where
  | eventLoop
  | timerQueue
  | acceptor
  | tcpConnection
  /-- One that was given a loop; without a loop it has no channel. -/
  | binaryRpcChannel
  deriving DecidableEq, Repr

inductive Member where
  | poller
  /-- A `ScopedFd` or `Socket` with the descriptor of the channel. -/
  | scopedFd
  | rawFd
  | channel
  | timerQueue
  /-- Functions, functors, timers or requests: user code may run when they go. -/
  | userData
  deriving DecidableEq, Repr

inductive Teardown where
  | disableAll
  | closeFd
  | userCode
  | channel
  | timerQueue
  | poller
  deriving DecidableEq, Repr

def Member.destructor : Member → List Teardown
  | .poller => [.poller]
  | .scopedFd => [.closeFd]
  | .rawFd => []
  | .channel => [.channel]
  | .timerQueue => [.timerQueue]
  | .userData => [.userCode]

namespace OwnerKind

/-- The members, in the order of their declaration. -/
def members : OwnerKind → List Member
  -- poller_, wakeupFd_, wakeupChannel_, pendingFunctors_, timerQueue_
  | eventLoop => [.poller, .scopedFd, .channel, .userData, .timerQueue]
  -- timerFd_, timerChannel_, expireSet_ and timersById_
  | timerQueue => [.scopedFd, .channel, .userData]
  -- listenSocket_, channel_, newConnectCallback_
  | acceptor => [.scopedFd, .channel, .userData]
  -- connSocket_, channel_, pendingFile_ and the callbacks
  | tcpConnection => [.scopedFd, .channel, .userData]
  -- clientFd_, pendingRequests_, channel_
  | binaryRpcChannel => [.rawFd, .userData, .channel]

def destructorBody : OwnerKind → List Teardown
  -- cleanup_pending_requests resumes coroutines
  | binaryRpcChannel => [.disableAll, .closeFd, .userCode]
  | eventLoop | timerQueue | acceptor | tcpConnection => []

/-- The whole destructor: its body, then the members in reverse order. -/
def destructor (k : OwnerKind) : List Teardown :=
  k.destructorBody ++ k.members.reverse.flatMap Member.destructor

def ofLoop : OwnerKind → Bool
  | eventLoop | timerQueue => true
  | acceptor | tcpConnection | binaryRpcChannel => false

end OwnerKind

/-! ## The process -/

inductive FdHolder where
  | epoll (loop : Nat)
  | owner (o : Nat)
  /-- Anyone else: a socket on its way to a connection, the idle descriptor of an acceptor, files,
  user code. -/
  | other
  deriving DecidableEq, Repr

/-- An owner; its number stands for its `Channel*` too. -/
structure ChannelOwner where
  kind : OwnerKind
  loop : Nat
  fd : Nat
  channel : Option Channel
  /-- The thread that destroys it, and what is left of the destructor. -/
  destructor : Option (Nat × List Teardown)
  deriving DecidableEq, Repr

structure LoopPoller where
  thread : Nat
  epollFd : Nat
  channels : Nat → Option Nat
  /-- The interest list: `data.ptr` and the mask of each descriptor in it. -/
  interest : Nat → Option (Nat × EpollEvents)

inductive CtlOp where
  | add
  | mod
  | del
  deriving DecidableEq, Repr

inductive PollerAssertion where
  /-- `loop_->is_in_loop_thread()`. -/
  | inLoopThread
  | sameChannel
  | epollCtl
  deriving DecidableEq, Repr

inductive PollerEvent where
  | ctl (op : CtlOp) (fd channel : Nat) (opened : Bool) (mapped : Option Nat)
  /-- An owner has closed its descriptor; whether `channels_` had its channel for it. -/
  | closed (fd channel : Nat) (registered : Bool)
  | fired (a : PollerAssertion)
  | deadLoop (channel : Nat)
  deriving DecidableEq, Repr

structure Process where
  fds : Nat → Option FdHolder
  loops : Nat → Option LoopPoller
  loopsCreated : Nat
  owners : Nat → Option ChannelOwner
  created : Nat
  log : List PollerEvent

inductive InterestChange where
  | enableReading
  | enableWriting
  | disableReading
  | disableWriting
  | disableAll
  deriving DecidableEq, Repr

def InterestChange.apply : InterestChange → Channel → Channel
  | .enableReading => Channel.enableReading
  | .enableWriting => Channel.enableWriting
  | .disableReading => Channel.disableReading
  | .disableWriting => Channel.disableWriting
  | .disableAll => Channel.disableAll

inductive ProcessAction where
  | openFd (fd : Nat)
  | closeFd (fd : Nat)
  /-- `EventLoop::EventLoop`, up to `epoll_create1`. -/
  | createLoop (fd : Nat)
  /-- The constructor of an owner takes over a descriptor, constructs the channel and enables
  reading; `room` is false where the kernel has no memory left for `EPOLL_CTL_ADD`. -/
  | create (kind : OwnerKind) (loop fd : Nat) (room : Bool)
  /-- `enable_reading`, `disable_all` and so on. -/
  | change (o : Nat) (c : InterestChange)
  | destroy (o : Nat)
  /-- The next statement of a destructor, or its return. -/
  | teardown (o : Nat)
  deriving DecidableEq, Repr

/-- `epoll_ctl` on the interest list; `none` where it fails. -/
def epollCtl (interest : Nat → Option (Nat × EpollEvents)) (opened room : Bool) (op : CtlOp)
    (fd channel : Nat) (events : EpollEvents) : Option (Nat → Option (Nat × EpollEvents)) :=
  match op with
  | .add =>
    if opened ∧ room ∧ interest fd = none then
      some (Function.update interest fd (some (channel, events)))
    else none
  | .mod =>
    if opened ∧ interest fd ≠ none then
      some (Function.update interest fd (some (channel, events)))
    else none
  | .del => if opened ∧ interest fd ≠ none then some (Function.update interest fd none) else none

def assertThat (b : Bool) (a : PollerAssertion) : List PollerEvent := if b then [] else [.fired a]

namespace Process

def loopThread (s : Process) (loop : Nat) : Option Nat := (s.loops loop).map (·.thread)

def setOwner (s : Process) (o : Nat) (w : ChannelOwner) : Process :=
  { s with owners := Function.update s.owners o (some w) }

def setLoop (s : Process) (loop : Nat) (l : LoopPoller) : Process :=
  { s with loops := Function.update s.loops loop (some l) }

def record (s : Process) (es : List PollerEvent) : Process := { s with log := s.log ++ es }

def addOwner (s : Process) (w : ChannelOwner) : Process :=
  { s with
    fds := Function.update s.fds w.fd (some (.owner s.created))
    owners := Function.update s.owners s.created (some w)
    created := s.created + 1 }

def anyOwner (s : Process) (p : Nat → ChannelOwner → Bool) : Bool :=
  (List.range s.created).any fun o => (s.owners o).any (p o)

/-- `close(fd)`: the kernel forgets the descriptor in every interest list. -/
def close (s : Process) (fd : Nat) : Process :=
  { s with
    fds := Function.update s.fds fd none
    loops := fun loop => (s.loops loop).map fun l =>
      { l with interest := Function.update l.interest fd none } }

/-- `~EpollPoller`, but for its descriptor. -/
def dropLoop (s : Process) (loop : Nat) : Process :=
  { s with loops := Function.update s.loops loop none }

/-- `EpollPoller::update_channel`, through `EventLoop::update_channel`, on thread `t`. -/
def updateChannel (s : Process) (t loop fd channel : Nat) (events : EpollEvents) (room : Bool) :
    Process :=
  match s.loops loop with
  | none => s.record [.deadLoop channel]
  | some l =>
    let opened := (s.fds fd).isSome
    let mapped := l.channels fd
    let op := if mapped = none then CtlOp.add else .mod
    let interest := epollCtl l.interest opened room op fd channel events
    (s.setLoop loop { l with
        channels := if mapped = none then Function.update l.channels fd (some channel) else l.channels
        interest := interest.getD l.interest }).record
      (assertThat (l.thread = t) .inLoopThread ++
        assertThat (mapped = none ∨ mapped = some channel) .sameChannel ++
        .ctl op fd channel opened mapped :: assertThat interest.isSome .epollCtl)

/-- `EpollPoller::remove_channel`, through `EventLoop::remove_channel`, on thread `t`. -/
def removeChannel (s : Process) (t loop fd channel : Nat) : Process :=
  match s.loops loop with
  | none => s.record [.deadLoop channel]
  | some l =>
    let opened := (s.fds fd).isSome
    let interest := epollCtl l.interest opened true .del fd channel {}
    (s.setLoop loop { l with
        channels := Function.update l.channels fd none
        interest := interest.getD l.interest }).record
      (assertThat (l.thread = t) .inLoopThread ++
        .ctl .del fd channel opened (l.channels fd) :: assertThat interest.isSome .epollCtl)

def registered (s : Process) (o : Nat) (w : ChannelOwner) : Bool :=
  (s.loops w.loop).any fun l => l.channels w.fd = some o

def teardown (s : Process) (t o : Nat) (w : ChannelOwner) (rest : List Teardown) :
    Teardown → Option Process
  | .userCode => some (s.setOwner o { w with destructor := some (t, rest) })
  | .disableAll =>
    match w.channel with
    | none => some (s.setOwner o { w with destructor := some (t, rest) })
    | some c =>
      some ((s.setOwner o { w with
          channel := some c.disableAll, destructor := some (t, rest) }).updateChannel
        t w.loop w.fd o c.disableAll.events true)
  | .channel =>
    match w.channel with
    | none => some (s.setOwner o { w with destructor := some (t, rest) })
    | some c =>
      some (((s.setOwner o { w with
            channel := none, destructor := some (t, rest) }).updateChannel
          t w.loop w.fd o c.disableAll.events true).removeChannel t w.loop w.fd o)
  | .closeFd =>
    some (((s.setOwner o { w with destructor := some (t, rest) }).record
      [.closed w.fd o (s.registered o w)]).close w.fd)
  | .timerQueue =>
    -- its own destructor runs to the end first
    if s.anyOwner fun _ w' => w'.kind = .timerQueue ∧ w'.loop = w.loop then none
    else some (s.setOwner o { w with destructor := some (t, rest) })
  | .poller =>
    -- every destructor this one has called has returned
    if s.anyOwner fun o' w' => o' ≠ o ∧ w'.loop = w.loop ∧ w'.destructor.any (·.1 = t) then none
    else
      match s.loops w.loop with
      | none => some (s.setOwner o { w with destructor := some (t, rest) })
      | some l =>
        some (((s.setOwner o { w with destructor := some (t, rest) }).dropLoop w.loop).close l.epollFd)

/-- The destructor of a timer queue is called by that of its loop; the others by whoever owns the
object. -/
def mayDestroy (s : Process) (t : Nat) (w : ChannelOwner) : Bool :=
  w.kind ≠ .timerQueue ||
    s.anyOwner fun _ w' => w'.kind = .eventLoop ∧ w'.loop = w.loop ∧
      w'.destructor.any fun d => d.1 = t ∧ d.2.head? = some .timerQueue

def step (s : Process) : Nat × ProcessAction → Option Process
  | (_, .openFd fd) =>
    if s.fds fd = none then some { s with fds := Function.update s.fds fd (some .other) } else none
  | (_, .closeFd fd) => if s.fds fd = some .other then some (s.close fd) else none
  | (t, .createLoop fd) =>
    -- one loop per thread
    if s.fds fd = some .other ∧ ∀ loop < s.loopsCreated, s.loopThread loop ≠ some t then
      some { s with
        fds := Function.update s.fds fd (some (.epoll s.loopsCreated))
        loops := Function.update s.loops s.loopsCreated
          (some ⟨t, fd, fun _ => none, fun _ => none⟩)
        loopsCreated := s.loopsCreated + 1 }
    else none
  | (t, .create kind loop fd room) =>
    if s.fds fd = some .other ∧
        ¬(kind.ofLoop ∧ s.anyOwner fun _ w => w.kind = kind ∧ w.loop = loop) then
      let c := Channel.enableReading {}
      some ((s.addOwner ⟨kind, loop, fd, some c, none⟩).updateChannel t loop fd s.created c.events room)
    else none
  | (t, .change o change) =>
    match s.owners o with
    | none => none
    | some w =>
      match w.channel with
      | none => none
      | some c =>
        -- in callbacks and functors of the loop only
        if s.loopThread w.loop = some t then
          some ((s.setOwner o { w with channel := some (change.apply c) }).updateChannel
            t w.loop w.fd o (change.apply c).events true)
        else none
  | (t, .destroy o) =>
    match s.owners o with
    | none => none
    | some w =>
      if w.destructor = none ∧ s.mayDestroy t w then
        some (s.setOwner o { w with destructor := some (t, w.kind.destructor) })
      else none
  | (t, .teardown o) =>
    match s.owners o with
    | none => none
    | some w =>
      match w.destructor with
      | none => none
      | some (t', stmts) =>
        if t' = t then
          match stmts with
          | [] => some { s with owners := Function.update s.owners o none }
          | stmt :: rest => s.teardown t o w rest stmt
        else none

def create : Process where
  fds := fun _ => none
  loops := fun _ => none
  loopsCreated := 0
  owners := fun _ => none
  created := 0
  log := []

end Process

/-- **The descriptors of a process and the channels over them.** -/
def process : System Process (Nat × ProcessAction) where
  init := Process.create
  step := Process.step

namespace PollerEvent

/-- The poller and the descriptors are in step: a descriptor is closed after its channel has left
`channels_`, `EPOLL_CTL_MOD` and `EPOLL_CTL_DEL` act on an open descriptor of that very channel, and
no assertion fires. -/
def Ok : PollerEvent → Prop
  | ctl op _ channel opened mapped => op = .add ∨ opened = true ∧ mapped = some channel
  | closed _ _ registered => registered = false
  | fired _ | deadLoop _ => False

end PollerEvent

namespace Process

/-- **A channel's descriptor outlives its registration**, in what has happened so far and in what
`channels_` and the kernel have now. -/
structure FdOutlivesRegistration (s : Process) : Prop where
  /-- A descriptor has been closed only after its channel had left `channels_`. -/
  closed : ∀ fd o registered, .closed fd o registered ∈ s.log → registered = false
  /-- Each `epoll_ctl` but the first for a channel was on an open descriptor that `channels_` mapped
  to that channel. -/
  ctl : ∀ op fd o opened mapped, .ctl op fd o opened mapped ∈ s.log → op ≠ .add →
    opened = true ∧ mapped = some o
  asserted : ∀ a, .fired a ∉ s.log
  /-- No channel has called a loop that was gone. -/
  loopAlive : ∀ o, .deadLoop o ∉ s.log
  /-- What `channels_` has is a channel that exists, over the descriptor its owner holds open, and
  the kernel has its pointer and its mask. -/
  mapped : ∀ loop l fd o, s.loops loop = some l → l.channels fd = some o →
    ∃ w c, s.owners o = some w ∧ w.channel = some c ∧ w.loop = loop ∧ w.fd = fd ∧
      s.fds fd = some (.owner o) ∧ l.interest fd = some (o, c.events)
  /-- What `epoll_wait` may return is a channel that `channels_` has. -/
  interest : ∀ loop l fd o m, s.loops loop = some l → l.interest fd = some (o, m) →
    l.channels fd = some o

/-- The owners come and go on the thread of their loop while it exists, the kernel has memory for
their registration, and no `BinaryRpcChannel` of a loop is destroyed. -/
def Proper (s : Process) : Nat × ProcessAction → Prop
  | (t, .create _ loop _ room) => s.loopThread loop = some t ∧ room = true
  | (t, .destroy o) =>
    ∀ w ∈ s.owners o, w.kind ≠ .binaryRpcChannel ∧ s.loopThread w.loop = some t
  | _ => True

instance (s : Process) : ∀ l : Nat × ProcessAction, Decidable (s.Proper l)
  | (_, .create ..) => inferInstanceAs (Decidable (_ ∧ _))
  | (_, .destroy o) => inferInstanceAs (Decidable (∀ w ∈ s.owners o, _))
  | (_, .openFd _) | (_, .closeFd _) | (_, .createLoop _) | (_, .change ..) | (_, .teardown _) =>
    inferInstanceAs (Decidable True)

/-! ## The order of a destructor -/

/-- What is left of a destructor, run with the channel there or not and the descriptor held or not,
destroys the channel while the descriptor is held and then closes, and leaves no channel; a poller
goes last. -/
def orderly : (channel held : Bool) → List Teardown → Bool
  | channel, _, [] => !channel
  | channel, held, .channel :: rest => channel && held && orderly false held rest
  | channel, held, .closeFd :: rest => !channel && held && orderly channel false rest
  | channel, held, .disableAll :: rest => channel && held && orderly channel held rest
  | channel, held, .userCode :: rest => orderly channel held rest
  | channel, held, .timerQueue :: rest => orderly channel held rest
  | channel, _, .poller :: rest => !channel && rest.isEmpty

/-- **Bodies and member order**: every owner but `BinaryRpcChannel` destroys its channel before it
closes the descriptor. -/
theorem orderly_iff (k : OwnerKind) : orderly true true k.destructor = true ↔ k ≠ .binaryRpcChannel := by
  cases k <;> decide

end Process

end Tudou
