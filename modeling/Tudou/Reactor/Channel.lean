import Mathlib.Data.List.Basic

/-!
# `Channel`: interest in events and their dispatch order

Model of `src/tudou/reactor/Channel.{h,cpp}`, as far as one channel goes.

* `EpollEvents` — an epoll event mask, one flag for each bit the code uses.
* `Channel` — the interest mask `events_` with the operations that change it.
* `handleEventsWithGuard` — the handlers one `revents_` value dispatches, in order.
-/

namespace Tudou

/-- The bits of an epoll event mask. -/
structure EpollEvents where
  epollin : Bool := false
  epollpri : Bool := false
  epollout : Bool := false
  epollerr : Bool := false
  epollhup : Bool := false
  deriving DecidableEq, Repr

/-- `Channel::events_`; registration with the poller follows every change of it. -/
structure Channel where
  events : EpollEvents := {}
  deriving DecidableEq, Repr

namespace Channel

/-- `events_ |= kReadEvent_`, with `kReadEvent_ = EPOLLIN | EPOLLPRI`. -/
def enableReading (c : Channel) : Channel :=
  { c with events := { c.events with epollin := true, epollpri := true } }

/-- `events_ |= kWriteEvent_`, with `kWriteEvent_ = EPOLLOUT`. -/
def enableWriting (c : Channel) : Channel :=
  { c with events := { c.events with epollout := true } }

def disableReading (c : Channel) : Channel :=
  { c with events := { c.events with epollin := false, epollpri := false } }

def disableWriting (c : Channel) : Channel :=
  { c with events := { c.events with epollout := false } }

/-- `events_ = kNoneEvent_`. -/
def disableAll (_ : Channel) : Channel := {}

def isWriting (c : Channel) : Bool := c.events.epollout

def isReading (c : Channel) : Bool := c.events.epollin || c.events.epollpri

@[simp] theorem isWriting_enableWriting (c : Channel) : c.enableWriting.isWriting = true := rfl

@[simp] theorem isWriting_disableWriting (c : Channel) : c.disableWriting.isWriting = false := rfl

end Channel

/-- The four callbacks a channel can dispatch to. -/
inductive Handler where
  | close
  | error
  | read
  | write
  deriving DecidableEq, Repr

/-- `handle_events_with_guard()`: a hang-up without input only closes; otherwise the error, read
and write handlers run one after the other, each if its bits are set. -/
def handleEventsWithGuard (revents : EpollEvents) : List Handler :=
  if revents.epollhup && !revents.epollin then [.close]
  else
    (if revents.epollerr then [.error] else []) ++
    (if revents.epollin || revents.epollpri then [.read] else []) ++
    (if revents.epollout then [.write] else [])

end Tudou
