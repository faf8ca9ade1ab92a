import Mathlib.Logic.Function.Basic
import Tudou.Foundation.Run

/-!
# Dispatching a poll batch

Model of the batch loop of `EventLoop::loop`, of `EpollPoller::{poll, remove_channel}`, of the tie
of `Channel::handle_events`, and of who keeps a `TcpConnection` alive: its record in `TcpServer`,
the guard of its own dispatch, and whatever references user code holds.  The batch is a vector of
raw `Channel*`; a connection whose last reference goes takes its channel out of the poller and
destroys it.  So does a `BinaryRpcChannel` in loop mode, whose channel has no tie and which user
code destroys when it likes.

* `Reactor` — the poller's channels, the connections and their references, the rest of the batch.
* `reactor` — the transition system: batches, handlers and everything they may do to any connection
  and any RPC client of the loop.
* `registered_iff_exists` — the channel of a connection is registered exactly while it exists.
* `no_dead_dispatch` — **every channel `handle_events` is called on is registered**, if no handler
  destroys, itself or with a last reference, the owner of a channel that is still in the batch.
* `dead_dispatch_of_release` — and from a step that does, a dispatch to a destroyed channel follows.
-/

namespace Tudou

open Transition

/-- The channels of one loop; each owner has an identity of its own, whatever its address. -/
inductive ChannelId where
  | wakeup
  | timer
  | acceptor
  /-- Tied to its `TcpConnection`. -/
  | conn (c : Nat)
  /-- Not tied: the channel of a `BinaryRpcChannel` on this loop. -/
  | client (k : Nat)
  deriving DecidableEq, Repr

/-- What concerns the lifetime of one `TcpConnection`. -/
structure ConnectionRefs where
  isClosed : Bool
  /-- `TcpServer::connectionRecordsByLoop_` holds it. -/
  inRecords : Bool
  heartbeat : Bool
  /-- References held by user code and by functors. -/
  held : Nat
  deriving DecidableEq, Repr

/-- The loop thread during a batch. -/
structure Reactor where
  /-- `EpollPoller::channels_`. -/
  channels : List ChannelId
  conns : Nat → Option ConnectionRefs
  /-- Connections and RPC clients created so far. -/
  created : Nat
  /-- The part of `activeChannels_` not dispatched yet. -/
  activeChannels : List ChannelId
  /-- The channel whose handlers run; it is tied, if it is a connection's. -/
  current : Option ChannelId

inductive ReactorLabel where
  /-- `poll` returns; then the batch is dispatched and pending functors run. -/
  | poll (batch : List ChannelId)
  /-- `handle_events` of the next channel. -/
  | handleEvents
  /-- The handlers of the current channel are done. -/
  | handled
  | accept (heartbeat : Bool)
  /-- A handler or functor closes a connection, its own or another one. -/
  | forceClose (c : Nat)
  /-- The heartbeat timer of a connection finds it idle for too long. -/
  | checkTimeout (c : Nat)
  | hold (c : Nat)
  | drop (c : Nat)
  | connect
  /-- User code destroys one, possibly in a handler of its own channel. -/
  | destroy (k : Nat)
  deriving DecidableEq, Repr

namespace Reactor

/-- Something refers to the connection: its record, user code, or the guard of its dispatch. -/
def alive (s : Reactor) (c : Nat) (r : ConnectionRefs) : Bool :=
  r.inRecords || 0 < r.held || s.current == some (.conn c)

/-- `EpollPoller::remove_channel`, from `~Channel`. -/
def removeChannel (s : Reactor) (ch : ChannelId) : Reactor :=
  { s with channels := s.channels.filter (· ≠ ch) }

/-- Store the references of `c`, destroying it with the last of them. -/
def settle (s : Reactor) (c : Nat) (r : ConnectionRefs) : Reactor :=
  if s.alive c r then { s with conns := Function.update s.conns c (some r) }
  else { s.removeChannel (.conn c) with conns := Function.update s.conns c none }

/-- `force_close`, down to `TcpServer::remove_connection`: the record goes, the heartbeat stops. -/
def forceClose (s : Reactor) (c : Nat) : Option Reactor :=
  match s.conns c with
  | none => none
  | some r =>
    if r.isClosed then some s
    else some (s.settle c { r with isClosed := true, inRecords := false, heartbeat := false })

/-- User code runs: in a handler, or in a functor after the batch. -/
def inUserCode (s : Reactor) : Bool := s.current.isSome || s.activeChannels.isEmpty

def step (s : Reactor) (l : ReactorLabel) : Option Reactor :=
  match l with
  | .poll batch =>
    if s.current = none ∧ s.activeChannels = [] ∧ batch.Nodup ∧ batch ⊆ s.channels then
      some { s with activeChannels := batch }
    else none
  | .handleEvents =>
    match s.current, s.activeChannels with
    | none, ch :: rest =>
      -- on a destroyed channel the call is undefined
      if ch ∈ s.channels then some { s with current := some ch, activeChannels := rest } else none
    | _, _ => none
  | .handled =>
    match s.current with
    | none => none
    | some (.conn c) =>
      match s.conns c with
      | none => none
      | some r => some ({ s with current := none }.settle c r)
    | some _ => some { s with current := none }
  | .accept heartbeat =>
    if s.inUserCode then
      some { s with
        channels := .conn s.created :: s.channels
        conns := Function.update s.conns s.created (some ⟨false, true, heartbeat, 0⟩)
        created := s.created + 1 }
    else none
  | .forceClose c => if s.inUserCode then s.forceClose c else none
  | .checkTimeout c =>
    match s.conns c with
    | none => none
    | some r => if s.current = some .timer ∧ r.heartbeat then s.forceClose c else none
  | .hold c =>
    match s.conns c with
    | none => none
    | some r => if s.inUserCode then some (s.settle c { r with held := r.held + 1 }) else none
  | .drop c =>
    match s.conns c with
    | none => none
    | some r =>
      if s.inUserCode ∧ 0 < r.held then some (s.settle c { r with held := r.held - 1 }) else none
  | .connect =>
    -- the constructor enables reading and writing, which registers the channel
    if s.inUserCode then
      some { s with channels := .client s.created :: s.channels, created := s.created + 1 }
    else none
  | .destroy k =>
    if s.inUserCode ∧ .client k ∈ s.channels then some (s.removeChannel (.client k)) else none

/-- A loop that has only its own channels and, if it is the main loop, the acceptor's. -/
def create : Reactor where
  channels := [.wakeup, .timer, .acceptor]
  conns := fun _ => none
  created := 0
  activeChannels := []
  current := none

/-- `handle_events` is about to be called on a channel that is not registered any more. -/
def DeadDispatch (s : Reactor) : Prop :=
  s.current = none ∧ ∃ ch rest, s.activeChannels = ch :: rest ∧ ch ∉ s.channels

/-- The channel whose owner a step of user code destroys: a connection with its last reference, or
an RPC client. -/
def releases (s : Reactor) (l : ReactorLabel) : Option ChannelId :=
  match l with
  | .forceClose c | .checkTimeout c =>
    match s.conns c with
    | none => none
    | some r =>
      if r.isClosed = false ∧ r.held = 0 ∧ s.current ≠ some (.conn c) then some (.conn c) else none
  | .drop c =>
    match s.conns c with
    | none => none
    | some r =>
      if r.inRecords = false ∧ r.held = 1 ∧ s.current ≠ some (.conn c) then some (.conn c) else none
  | .destroy k => some (.client k)
  | _ => none

/-- The step destroys no owner of a channel that is still in the batch. -/
def KeepsBatch (s : Reactor) (l : ReactorLabel) : Prop :=
  ∀ ch ∈ s.releases l, ch ∉ s.activeChannels

instance (s : Reactor) (l : ReactorLabel) : Decidable (s.KeepsBatch l) :=
  inferInstanceAs (Decidable (∀ ch ∈ s.releases l, _))

end Reactor

/-- **One loop dispatching its batches.** -/
def reactor : System Reactor ReactorLabel where
  init := Reactor.create
  step := Reactor.step

namespace Reactor

/-! ## Steps -/

inductive StepEnds (s : Reactor) : ReactorLabel → Reactor → Prop where
  | poll {batch : List ChannelId} : s.current = none → s.activeChannels = [] → batch.Nodup →
      batch ⊆ s.channels → StepEnds s (.poll batch) { s with activeChannels := batch }
  | handleEvents {ch : ChannelId} {rest : List ChannelId} : s.current = none →
      s.activeChannels = ch :: rest → ch ∈ s.channels →
      StepEnds s .handleEvents { s with current := some ch, activeChannels := rest }
  | handledConn {c : Nat} {r : ConnectionRefs} : s.current = some (.conn c) → s.conns c = some r →
      StepEnds s .handled ({ s with current := none }.settle c r)
  | handledOther {ch : ChannelId} : s.current = some ch → (∀ c, ch ≠ .conn c) →
      StepEnds s .handled { s with current := none }
  | accept {heartbeat : Bool} :
      StepEnds s (.accept heartbeat)
        { s with
          channels := .conn s.created :: s.channels
          conns := Function.update s.conns s.created (some ⟨false, true, heartbeat, 0⟩)
          created := s.created + 1 }
  /-- A second close of the same connection. -/
  | closedAlready {l : ReactorLabel} : s.releases l = none → StepEnds s l s
  /-- The references of one connection change. -/
  | settles {l : ReactorLabel} {c : Nat} {r r' : ConnectionRefs} : s.conns c = some r →
      s.releases l = (if s.alive c r' then none else some (.conn c)) → StepEnds s l (s.settle c r')
  | connect :
      StepEnds s .connect
        { s with channels := .client s.created :: s.channels, created := s.created + 1 }
  | destroy {k : Nat} : StepEnds s (.destroy k) (s.removeChannel (.client k))

theorem alive_eq_false {s : Reactor} {c : Nat} {r : ConnectionRefs} :
    s.alive c r = false ↔ r.inRecords = false ∧ r.held = 0 ∧ s.current ≠ some (.conn c) := by
  simp [alive, and_assoc]

theorem ite_alive {s : Reactor} {c : Nat} {r : ConnectionRefs} {P : Prop} [Decidable P]
    (h : P ↔ s.alive c r = false) :
    (if P then some (ChannelId.conn c) else none) =
      if s.alive c r then none else some (.conn c) := by
  by_cases hP : P
  · rw [if_pos hP, if_neg (by simp [h.mp hP])]
  · rw [if_neg hP, if_pos (by simpa [h] using hP)]

theorem forceClose_ends {s s' : Reactor} {l : ReactorLabel} {c : Nat}
    (hl : l = .forceClose c ∨ l = .checkTimeout c) (h : s.forceClose c = some s') :
    StepEnds s l s' := by
  unfold forceClose at h
  split at h
  · cases h
  rename_i r hr
  have hrel : s.releases l =
      if r.isClosed = false ∧ r.held = 0 ∧ s.current ≠ some (.conn c) then some (.conn c)
      else none := by
    rcases hl with rfl | rfl <;> simp only [releases, hr]
  split at h
  · rename_i hc
    cases h
    refine .closedAlready ?_
    rw [hrel, if_neg (by simp [hc])]
  · rename_i hc
    cases h
    refine .settles hr ?_
    rw [hrel]
    refine ite_alive ?_
    rw [alive_eq_false]
    simp [hc]

theorem step_ends {s s' : Reactor} {l : ReactorLabel} (h : s.step l = some s') : StepEnds s l s' := by
  unfold step at h
  split at h
  · split at h
    · rename_i hp
      cases h
      exact .poll hp.1 hp.2.1 hp.2.2.1 hp.2.2.2
    · cases h
  · split at h
    · rename_i hcur hact
      split at h
      · rename_i hch
        cases h
        exact .handleEvents hcur hact hch
      · cases h
    · cases h
  · split at h
    · cases h
    · rename_i c hcur
      split at h
      · cases h
      · rename_i r hr
        cases h
        exact .handledConn hcur hr
    · rename_i ch hno hcur
      cases h
      exact .handledOther hcur fun c hc => hno c (by rw [← hc])
  · split at h
    · cases h
      exact .accept
    · cases h
  · split at h
    · exact forceClose_ends (.inl rfl) h
    · cases h
  · split at h
    · cases h
    · split at h
      · exact forceClose_ends (.inr rfl) h
      · cases h
  · rename_i c
    split at h
    · cases h
    rename_i r hr
    split at h
    · cases h
      refine .settles hr ?_
      rw [if_pos (by simp [alive])]
      rfl
    · cases h
  · rename_i c
    split at h
    · cases h
    rename_i r hr
    split at h
    · rename_i hu
      cases h
      refine .settles hr ?_
      simp only [releases, hr]
      refine ite_alive ?_
      rw [alive_eq_false]
      have hheld : r.held = 1 ↔ r.held - 1 = 0 := by omega
      rw [hheld]
    · cases h
  · split at h
    · cases h
      exact .connect
    · cases h
  · split at h
    · cases h
      exact .destroy
    · cases h

@[simp] theorem settle_activeChannels (s : Reactor) (c : Nat) (r : ConnectionRefs) :
    (s.settle c r).activeChannels = s.activeChannels := by
  unfold settle
  split <;> rfl

@[simp] theorem settle_current (s : Reactor) (c : Nat) (r : ConnectionRefs) :
    (s.settle c r).current = s.current := by
  unfold settle
  split <;> rfl

@[simp] theorem settle_created (s : Reactor) (c : Nat) (r : ConnectionRefs) :
    (s.settle c r).created = s.created := by
  unfold settle
  split <;> rfl

theorem mem_removeChannel {s : Reactor} {ch x : ChannelId} :
    x ∈ (s.removeChannel ch).channels ↔ x ∈ s.channels ∧ x ≠ ch := by
  simp [removeChannel]

theorem mem_settle_channels {s : Reactor} {c : Nat} {r : ConnectionRefs} {ch : ChannelId} :
    ch ∈ (s.settle c r).channels ↔ ch ∈ s.channels ∧ (s.alive c r = false → ch ≠ .conn c) := by
  unfold settle
  split
  · rename_i h
    simp [h]
  · rename_i h
    simp [removeChannel, h]

theorem settle_conns_of_ne {s : Reactor} {c c' : Nat} {r : ConnectionRefs} (h : c' ≠ c) :
    (s.settle c r).conns c' = s.conns c' := by
  unfold settle
  split
  · exact Function.update_of_ne h _ _
  · exact Function.update_of_ne h _ _

theorem settle_conns_self (s : Reactor) (c : Nat) (r : ConnectionRefs) :
    (s.settle c r).conns c = if s.alive c r then some r else none := by
  unfold settle
  split
  · exact Function.update_self ..
  · exact Function.update_self ..

/-! ## Registration follows existence -/

/-- Channels of connections are registered exactly while their connection exists. -/
structure Sound (s : Reactor) : Prop where
  registered : ∀ c, .conn c ∈ s.channels ↔ (s.conns c).isSome = true
  fresh : ∀ c, s.created ≤ c → s.conns c = none
  /-- The guard of a dispatch keeps its connection alive. -/
  tied : ∀ c, s.current = some (.conn c) → (s.conns c).isSome = true

theorem Sound.settle {s : Reactor} {c : Nat} {r : ConnectionRefs} (h : s.Sound)
    (hc : s.conns c = some r) (r' : ConnectionRefs) : (s.settle c r').Sound := by
  refine ⟨fun c' => ?_, fun c' hc' => ?_, fun c' hc' => ?_⟩
  · rw [mem_settle_channels, h.registered c']
    by_cases heq : c' = c
    · subst heq
      rw [settle_conns_self, hc]
      cases s.alive c' r' <;> simp
    · rw [settle_conns_of_ne heq]
      simp [heq]
  · rw [settle_created] at hc'
    have hnone := h.fresh c' hc'
    have hne : c' ≠ c := by
      rintro rfl
      rw [hc] at hnone
      cases hnone
    rw [settle_conns_of_ne hne, hnone]
  · rw [settle_current] at hc'
    by_cases heq : c' = c
    · subst heq
      rw [settle_conns_self, if_pos (by simp [alive, hc'])]
      rfl
    · rw [settle_conns_of_ne heq]
      exact h.tied c' hc'

theorem Sound.step {s s' : Reactor} {l : ReactorLabel} (h : s.Sound) (hs : StepEnds s l s') :
    s'.Sound := by
  have idle : Sound { s with current := none } := ⟨h.registered, h.fresh, fun _ hc => by cases hc⟩
  cases hs with
  | poll | closedAlready => exact ⟨h.registered, h.fresh, h.tied⟩
  | handleEvents _ _ hch =>
    refine ⟨h.registered, h.fresh, fun c hc => ?_⟩
    cases hc
    exact (h.registered c).mp hch
  | handledOther => exact idle
  | handledConn _ hr => exact idle.settle hr _
  | accept =>
    refine ⟨fun c => ?_, fun c hc => ?_, fun c hc => ?_⟩
    · by_cases heq : c = s.created
      · subst heq
        simp
      · simp [heq, h.registered c]
    · have hlt : s.created + 1 ≤ c := hc
      show Function.update s.conns s.created _ c = none
      rw [Function.update_of_ne (by omega), h.fresh c (by omega)]
    · show (Function.update s.conns s.created _ c).isSome = true
      by_cases heq : c = s.created
      · rw [heq, Function.update_self]
        rfl
      · rw [Function.update_of_ne heq]
        exact h.tied c hc
  | settles hr _ => exact h.settle hr _
  | connect =>
    exact ⟨fun c => by simp [h.registered c], fun c hc => h.fresh c (Nat.le_of_succ_le hc), h.tied⟩
  | destroy =>
    refine ⟨fun c => ?_, h.fresh, h.tied⟩
    rw [mem_removeChannel, h.registered c]
    simp [removeChannel]

theorem sound_of_reachable {s : Reactor} (h : reactor.Reachable s) : s.Sound := by
  have hinit : reactor.init.Sound :=
    ⟨fun c => by simp [reactor, create], fun _ _ => rfl, fun _ hc => by cases hc⟩
  exact h.invariant hinit fun s l s' hI _ hs => hI.step (step_ends hs)

/-- **The channel of a connection is registered exactly while the connection exists.** -/
theorem registered_iff_exists {s : Reactor} (h : reactor.Reachable s) (c : Nat) :
    .conn c ∈ s.channels ↔ (s.conns c).isSome = true :=
  (sound_of_reachable h).registered c

/-! ## The batch -/

/-- What is left of the batch is registered, and the current channel is not in it again. -/
structure Live (s : Reactor) : Prop where
  registered : ∀ ch ∈ s.activeChannels, ch ∈ s.channels
  nodup : s.activeChannels.Nodup
  current : ∀ ch ∈ s.current, ch ∉ s.activeChannels

/-- **Step lemma** for batches. -/
theorem Live.step {s s' : Reactor} {l : ReactorLabel} (h : s.Live) (hg : s.KeepsBatch l)
    (hs : StepEnds s l s') : s'.Live := by
  cases hs with
  | poll hcur _ hnodup hsub =>
    refine ⟨hsub, hnodup, fun ch hch => ?_⟩
    rw [show s.current = some ch from hch] at hcur
    cases hcur
  | handleEvents hcur hact hch =>
    have hreg := h.registered
    have hnodup := h.nodup
    rw [hact] at hreg hnodup
    obtain ⟨hnotin, hnodup⟩ := List.nodup_cons.mp hnodup
    refine ⟨fun ch' hch' => hreg ch' (List.mem_cons_of_mem _ hch'), hnodup, fun ch' hch' => ?_⟩
    cases hch'
    exact hnotin
  | @handledConn c r hcur hr =>
    -- the guard of the dispatch goes, and this channel is not in the batch
    refine ⟨fun ch hch => ?_, by simpa using h.nodup, fun ch hch => by simp at hch⟩
    rw [settle_activeChannels] at hch
    rw [mem_settle_channels]
    refine ⟨h.registered ch hch, fun _ heq => ?_⟩
    subst heq
    exact h.current _ hcur hch
  | handledOther _ _ => exact ⟨h.registered, h.nodup, fun ch hch => by cases hch⟩
  | accept | connect =>
    exact ⟨fun ch hch => List.mem_cons_of_mem _ (h.registered ch hch), h.nodup, h.current⟩
  | closedAlready _ => exact h
  | settles _ hrel =>
    refine ⟨fun ch hch => ?_, by simpa using h.nodup, ?_⟩
    · rw [settle_activeChannels] at hch
      rw [mem_settle_channels]
      refine ⟨h.registered ch hch, fun hdead heq => ?_⟩
      subst heq
      rw [hdead] at hrel
      exact hg _ hrel hch
    · simpa using h.current
  | @destroy k =>
    refine ⟨fun ch hch => mem_removeChannel.mpr ⟨h.registered ch hch, ?_⟩, h.nodup, h.current⟩
    rintro rfl
    exact hg _ rfl hch

/-- **No dispatch to a dead channel**: in every run whose handlers destroy no connection and no RPC
client whose channel is still in the batch, every channel `handle_events` is called on is registered
with the poller. -/
theorem no_dead_dispatch {s : Reactor} (h : reactor.Reaches KeepsBatch s) : ¬s.DeadDispatch := by
  have hinit : reactor.init.Live :=
    ⟨fun _ hch => (by cases hch), List.nodup_nil, fun _ hch => (by cases hch)⟩
  have hinv : s.Live := h.invariant hinit fun s l s' hI hg hs => hI.step hg (step_ends hs)
  rintro ⟨_, ch, rest, hact, hdead⟩
  exact hdead (hinv.registered ch (by rw [hact]; exact List.mem_cons_self))

/-- An RPC client and two connections are ready in one batch.  A handler of the client destroys it;
then the first connection's handlers close both, but the user holds a reference to the second. -/
def closeHeldPeer : List ReactorLabel :=
  [.accept true, .accept false, .connect, .hold 1, .poll [.client 2, .conn 0, .conn 1],
    .handleEvents, .destroy 2, .handled, .handleEvents, .forceClose 1, .forceClose 0, .handled]

theorem no_dead_dispatch_closeHeldPeer :
    ∃ s ∈ reactor.run reactor.init closeHeldPeer,
      s.activeChannels = [.conn 1] ∧ .conn 0 ∉ s.channels ∧ .client 2 ∉ s.channels ∧
        ¬s.DeadDispatch := by
  have hg : reactor.Admits KeepsBatch reactor.init closeHeldPeer := by decide
  obtain ⟨s, hs, hact, hgone, hclient⟩ : ∃ s ∈ reactor.run reactor.init closeHeldPeer,
      s.activeChannels = [.conn 1] ∧ .conn 0 ∉ s.channels ∧ .client 2 ∉ s.channels := by
    decide
  exact ⟨s, hs, hact, hgone, hclient, no_dead_dispatch (.of_run _ hs hg)⟩

/-- **A heartbeat can do it**: its timer and the connection are in one batch, the timer first, and
the record of the idle connection holds the last reference. -/
theorem dead_dispatch_after_heartbeat :
    ¬∀ s : Reactor, reactor.Reachable s → ¬s.DeadDispatch := by
  intro h
  obtain ⟨s, hs, hcur, hact, hdead⟩ :
      ∃ s ∈ reactor.run reactor.init
          [.accept true, .poll [.timer, .conn 0], .handleEvents, .checkTimeout 0, .handled],
        s.current = none ∧ s.activeChannels = [.conn 0] ∧ .conn 0 ∉ s.channels := by
    decide
  exact h s (.of_run _ hs) ⟨hcur, _, _, hact, hdead⟩

/-! ## The condition is exact -/

/-- The current handlers can finish, which registers nothing. -/
theorem exists_handled {s : Reactor} (h : reactor.Reachable s) :
    ∃ t, reactor.Reachable t ∧ t.current = none ∧ t.activeChannels = s.activeChannels ∧
      t.channels ⊆ s.channels := by
  cases hcur : s.current with
  | none => exact ⟨s, h, hcur, rfl, fun _ hm => hm⟩
  | some ch =>
    by_cases hconn : ∃ c, ch = .conn c
    · obtain ⟨c, rfl⟩ := hconn
      obtain ⟨r, hr⟩ := Option.isSome_iff_exists.mp ((sound_of_reachable h).tied c hcur)
      have hstep : reactor.step s .handled = some ({ s with current := none }.settle c r) := by
        simp only [reactor, step, hcur, hr]
      refine ⟨_, h.step trivial hstep, ?_, ?_, fun _ hm => (mem_settle_channels.mp hm).1⟩
      · rw [settle_current]
      · rw [settle_activeChannels]
    · refine ⟨{ s with current := none }, h.step (a := .handled) trivial ?_, rfl, rfl, fun _ hm => hm⟩
      cases ch with
      | conn c => exact absurd ⟨c, rfl⟩ hconn
      | wakeup | timer | acceptor | client => simp only [reactor, step, hcur]

/-- A dead channel in the batch is dispatched to, unless another one is before. -/
theorem exists_deadDispatch {ch : ChannelId} : ∀ (batch : List ChannelId) {s : Reactor},
    reactor.Reachable s → s.activeChannels = batch → ch ∈ batch → ch ∉ s.channels →
    ∃ t, reactor.Reachable t ∧ t.DeadDispatch
  | [], _, _, _, hmem, _ => by cases hmem
  | x :: rest, s, h, hact, hmem, hdead => by
    obtain ⟨t, ht, hcur, hact', hsub⟩ := exists_handled h
    have hdead' : ch ∉ t.channels := fun hm => hdead (hsub hm)
    rw [hact] at hact'
    by_cases hx : x ∈ t.channels
    · have hne : ch ≠ x := fun heq => hdead' (heq ▸ hx)
      have hstep : reactor.step t .handleEvents =
          some { t with current := some x, activeChannels := rest } := by
        simp only [reactor, step, hcur, hact', if_pos hx]
      exact exists_deadDispatch rest (ht.step trivial hstep) rfl
        ((List.mem_cons.mp hmem).resolve_left hne) hdead'
    · exact ⟨t, ht, hcur, x, rest, hact', hx⟩

/-- **From a step that destroys the owner of a channel of the batch, a dispatch to a destroyed channel
follows.** -/
theorem dead_dispatch_of_release {s s' : Reactor} {l : ReactorLabel} (h : reactor.Reachable s)
    (hs : reactor.step s l = some s') (hg : ¬s.KeepsBatch l) :
    ∃ t, reactor.Reachable t ∧ t.DeadDispatch := by
  obtain ⟨ch, hc, hact⟩ : ∃ ch, s.releases l = some ch ∧ ch ∈ s.activeChannels := by
    simpa [KeepsBatch] using hg
  have h' : reactor.Reachable s' := h.step trivial hs
  cases step_ends hs with
  | poll | handleEvents | handledConn | handledOther | accept | connect => cases hc
  | closedAlready hnone =>
    rw [hnone] at hc
    cases hc
  | settles _ hrel =>
    rw [hc] at hrel
    split at hrel
    · cases hrel
    · rename_i hdead
      cases hrel
      refine exists_deadDispatch _ h' rfl (by rw [settle_activeChannels]; exact hact) fun hm => ?_
      exact (mem_settle_channels.mp hm).2 (Bool.eq_false_iff.mpr hdead) rfl
  | destroy =>
    cases hc
    exact exists_deadDispatch _ h' rfl hact fun hm => (mem_removeChannel.mp hm).2 rfl

end Reactor

end Tudou
