import Mathlib.Algebra.Order.Floor.Semifield
import Mathlib.Data.Rat.Floor
import Mathlib.Tactic.Ring
import Tudou.Foundation.Run
import Tudou.Reactor.Channel

/-!
# The event list of the poller

Model of `EpollPoller::{poll, collect_ready_num, collect_active_channels, resize_event_list}`.  The
list is handed to `epoll_wait`, and its size follows the number of ready events.

* `EpollPoller` — `eventList_` and `activeChannels_`.
* `epollPoller` — the transition system of the polls, one outcome of `epoll_wait` a step.
* `keepsBounds_iff` — **the bounds hold at every poll of a run iff no poll shrinks the list**: the
  clamp of a shrink is from above where it should be from below.
* `nine_le_length` — whatever the polls find, nine entries stay and a full list grows.
-/

namespace Tudou

open Transition

/-- An `epoll_event`: the channel `data.ptr` points to, if any, and the events ready on it. -/
structure EpollEvent where
  channel : Option Nat := none
  events : EpollEvents := {}
  deriving DecidableEq, Repr

/-- What `epoll_wait` reports. -/
inductive EpollWait where
  | ready (events : List EpollEvent)
  /-- It returns a negative number, `EINTR` or not. -/
  | failed
  deriving DecidableEq, Repr

/-- The events `epoll_wait` writes into the list. -/
def EpollWait.events : EpollWait → List EpollEvent
  | .ready events => events
  | .failed => []

def kInitEventListSize : Nat := 16

/-- What `EpollPoller` keeps from poll to poll, without the registrations. -/
structure EpollPoller where
  eventList : List EpollEvent
  /-- `activeChannels_`, with the `revents_` each channel gets. -/
  activeChannels : List EpollEvent
  deriving DecidableEq, Repr

namespace EpollPoller

/-- `EpollPoller::EpollPoller`. -/
def create : EpollPoller where
  eventList := List.replicate kInitEventListSize {}
  activeChannels := []

/-- `collect_ready_num`, with what `epoll_wait` writes into the list; an error counts as none ready. -/
def collectReadyNum (p : EpollPoller) (wait : EpollWait) : EpollPoller × Nat :=
  let numReady := wait.events.length
  ({ p with eventList := wait.events ++ p.eventList.drop numReady }, numReady)

/-- `collect_active_channels`. -/
def collectActiveChannels (p : EpollPoller) (numReady : Nat) : EpollPoller :=
  { p with activeChannels := p.eventList.take numReady }

/-- `eventList_.resize(size)`. -/
def resize (p : EpollPoller) (size : Nat) : EpollPoller :=
  { p with eventList := p.eventList.take size ++ List.replicate (size - p.eventList.length) {} }

def expandThreshold : ℚ := 9 / 10

def shrinkThreshold : ℚ := 1 / 4

def expandRatio : ℚ := 3 / 2

def shrinkRatio : ℚ := 1 / 2

/-- `resize_event_list`.  On sizes and counts below `INT_MAX` the comparisons and products of
`double`s are those of the exact fractions. -/
def resizeEventList (p : EpollPoller) (numReady : Nat) : EpollPoller :=
  let size := p.eventList.length
  let loadFactor : ℚ := numReady / size
  if expandThreshold ≤ loadFactor then p.resize ⌊size * expandRatio⌋₊
  else if kInitEventListSize < size ∧ loadFactor ≤ shrinkThreshold then
    p.resize (min kInitEventListSize ⌊size * shrinkRatio⌋₊)
  else p

/-- `poll`; `epoll_wait` reports at most as many events as the list has room for. -/
def poll (p : EpollPoller) (wait : EpollWait) : Option EpollPoller :=
  if wait.events.length ≤ p.eventList.length then
    let (p', numReady) := p.collectReadyNum wait
    some ((p'.collectActiveChannels numReady).resizeEventList numReady)
  else none

end EpollPoller

/-- The polls of one poller. -/
def epollPoller : System EpollPoller EpollWait where
  init := EpollPoller.create
  step := EpollPoller.poll

/-! ## The size after a poll -/

/-- The size `resize_event_list` leaves, in whole numbers. -/
def resizedLength (size numReady : Nat) : Nat :=
  if 9 * size ≤ 10 * numReady then 3 * size / 2
  else if kInitEventListSize < size ∧ 4 * numReady ≤ size then min kInitEventListSize (size / 2)
  else size

namespace EpollPoller

theorem length_resize (p : EpollPoller) (size : Nat) : (p.resize size).eventList.length = size := by
  simp only [resize, List.length_append, List.length_take, List.length_replicate]
  omega

section

variable {size numReady : Nat}

theorem expandThreshold_le_iff (h : 0 < size) :
    expandThreshold ≤ numReady / size ↔ 9 * size ≤ 10 * numReady := by
  have hpos : (0 : ℚ) < size := Nat.cast_pos.mpr h
  rw [expandThreshold, div_le_div_iff₀ (by norm_num) hpos, ← Nat.cast_le (α := ℚ)]
  push_cast
  rw [mul_comm (numReady : ℚ)]

theorem le_shrinkThreshold_iff (h : 0 < size) :
    numReady / size ≤ shrinkThreshold ↔ 4 * numReady ≤ size := by
  have hpos : (0 : ℚ) < size := Nat.cast_pos.mpr h
  rw [shrinkThreshold, div_le_div_iff₀ hpos (by norm_num), ← Nat.cast_le (α := ℚ)]
  push_cast
  rw [mul_comm (numReady : ℚ), one_mul]

theorem floor_expandRatio (size : Nat) : ⌊size * expandRatio⌋₊ = 3 * size / 2 := by
  rw [← Nat.floor_div_eq_div (K := ℚ)]
  congr 1
  push_cast
  rw [expandRatio]
  ring

theorem floor_shrinkRatio (size : Nat) : ⌊size * shrinkRatio⌋₊ = size / 2 := by
  rw [← Nat.floor_div_eq_div (K := ℚ)]
  congr 1
  push_cast
  rw [shrinkRatio]
  ring

end

theorem length_resizeEventList (p : EpollPoller) (numReady : Nat) (h : 0 < p.eventList.length) :
    (p.resizeEventList numReady).eventList.length = resizedLength p.eventList.length numReady := by
  simp only [resizeEventList, expandThreshold_le_iff h, le_shrinkThreshold_iff h, floor_expandRatio,
    floor_shrinkRatio]
  unfold resizedLength
  split
  · exact length_resize _ _
  · split
    · exact length_resize _ _
    · rfl

/-- What a poll does: the channels are those `epoll_wait` reports, none cut off, and the size
follows their number. -/
theorem poll_ends {p p' : EpollPoller} {wait : EpollWait} (h : p.poll wait = some p')
    (hp : 0 < p.eventList.length) :
    wait.events.length ≤ p.eventList.length ∧ p'.activeChannels = wait.events ∧
      p'.eventList.length = resizedLength p.eventList.length wait.events.length := by
  unfold poll at h
  split at h
  · rename_i hle
    cases h
    have hlen : (wait.events ++ p.eventList.drop wait.events.length).length = p.eventList.length := by
      rw [List.length_append, List.length_drop]
      omega
    refine ⟨hle, ?_, ?_⟩
    · simp only [resizeEventList]
      split
      · exact List.take_left
      · split
        · exact List.take_left
        · exact List.take_left
    · rw [length_resizeEventList] <;> simp only [collectActiveChannels, hlen]
      exact hp
  · cases h

/-! ## The bounds -/

/-- What a poll may do to a list of `before` entries of which `numReady` are filled. -/
def Bounds (before numReady after : Nat) : Prop :=
  kInitEventListSize ≤ after ∧ (numReady = before → before < after) ∧
    (after < before → before / 2 ≤ after)

/-- The poll leaves the list within the bounds. -/
def KeepsBounds (p : EpollPoller) (wait : EpollWait) : Prop :=
  ∀ p', p.poll wait = some p' →
    Bounds p.eventList.length wait.events.length p'.eventList.length

/-- The poll finds a list that has grown, and at most a quarter of it is filled. -/
def Shrinks (p : EpollPoller) (wait : EpollWait) : Prop :=
  kInitEventListSize < p.eventList.length ∧ 4 * wait.events.length ≤ p.eventList.length

instance (p : EpollPoller) (wait : EpollWait) : Decidable (p.Shrinks wait) := instDecidableAnd

/-- The sizes of a list that has only grown. -/
def Grown (size : Nat) : Prop := size = 16 ∨ size = 24 ∨ 36 ≤ size

theorem Grown.resized {size numReady : Nat} (h : Grown size)
    (hn : ¬(kInitEventListSize < size ∧ 4 * numReady ≤ size)) :
    Grown (resizedLength size numReady) := by
  unfold Grown resizedLength at *
  rw [if_neg hn]
  split
  · omega
  · exact h

/-- On a list that has only grown every shrink goes too far: from 24 entries below the initial
size, from any more below the half. -/
theorem Grown.bounds_iff {size numReady : Nat} (h : Grown size) (hle : numReady ≤ size) :
    Bounds size numReady (resizedLength size numReady) ↔
      ¬(kInitEventListSize < size ∧ 4 * numReady ≤ size) := by
  unfold Grown at h
  unfold Bounds resizedLength kInitEventListSize
  split
  · omega
  · split
    · omega
    · omega

theorem Grown.pos {size : Nat} (h : Grown size) : 0 < size := by
  unfold Grown at h
  omega

theorem Grown.poll {p p' : EpollPoller} {wait : EpollWait} (h : Grown p.eventList.length)
    (hn : ¬p.Shrinks wait) (hs : p.poll wait = some p') : Grown p'.eventList.length := by
  rw [(poll_ends hs h.pos).2.2]
  exact h.resized hn

theorem Grown.keeps_iff {p : EpollPoller} {wait : EpollWait} (h : Grown p.eventList.length) :
    p.KeepsBounds wait ↔ ¬p.Shrinks wait := by
  constructor
  · intro hk hshrinks
    have hle : wait.events.length ≤ p.eventList.length := by
      have := hshrinks.2
      omega
    obtain ⟨p', hs⟩ : ∃ p', p.poll wait = some p' := ⟨_, if_pos hle⟩
    have hb := hk p' hs
    rw [(poll_ends hs h.pos).2.2] at hb
    exact (h.bounds_iff hle).mp hb hshrinks
  · intro hn p' hs
    obtain ⟨hle, -, hlen⟩ := poll_ends hs h.pos
    rw [hlen]
    exact (h.bounds_iff hle).mpr hn

theorem Grown.admits_iff {p : EpollPoller} (h : Grown p.eventList.length) (polls : List EpollWait) :
    epollPoller.Admits KeepsBounds p polls ↔
      epollPoller.Admits (fun p wait => ¬p.Shrinks wait) p polls :=
  System.admits_congr (I := fun p => Grown p.eventList.length) (fun _ _ h => h.keeps_iff)
    (fun _ _ _ h hn hs => h.poll hn hs) polls h

/-- **The list keeps its bounds at every poll of a run iff no poll of the run shrinks it.** -/
theorem keepsBounds_iff (polls : List EpollWait) :
    epollPoller.Admits KeepsBounds epollPoller.init polls ↔
      epollPoller.Admits (fun p wait => ¬p.Shrinks wait) epollPoller.init polls :=
  Grown.admits_iff (.inl rfl) polls

/-- `numReady` ready events. -/
def readyEvents (numReady : Nat) : EpollWait := .ready (List.replicate numReady {})

/-- Sixteen ready events make the list 24 entries long; at the next poll none is ready, and 12 stay. -/
theorem keepsBounds_iff_burstThenIdle :
    ¬∀ polls, epollPoller.Admits KeepsBounds epollPoller.init polls := by
  intro h
  have hk := (Grown.admits_iff (.inl rfl) _).mp (h [readyEvents 16, readyEvents 0])
  revert hk
  decide +kernel

/-! ## What every run keeps -/

/-- No list of seventeen entries is ever made, and from eighteen a shrink leaves nine. -/
theorem nine_le_length {p : EpollPoller} (h : epollPoller.Reachable p) :
    9 ≤ p.eventList.length ∧ p.eventList.length ≠ 17 := by
  refine h.invariant (I := fun p => 9 ≤ p.eventList.length ∧ p.eventList.length ≠ 17)
    ⟨by decide, by decide⟩ ?_
  intro p wait p' hp _ hs
  rw [(poll_ends hs (by omega)).2.2]
  unfold resizedLength kInitEventListSize
  split
  · omega
  · split
    · omega
    · exact hp

/-- A poll that fills the list makes it larger, whatever came before. -/
theorem grows_of_full {p p' : EpollPoller} {wait : EpollWait} (h : epollPoller.Reachable p)
    (hs : p.poll wait = some p') (hfull : wait.events.length = p.eventList.length) :
    p.eventList.length < p'.eventList.length := by
  have hp := (nine_le_length h).1
  rw [(poll_ends hs (by omega)).2.2, hfull]
  unfold resizedLength
  split
  · omega
  · omega

end EpollPoller

end Tudou
