import Tudou.Foundation.FdTable
import Tudou.Rpc.BinaryRpcChannel

/-!
# `BinaryRpcChannel`: the descriptor the receiver thread reads

The channel of thread mode with the descriptors of its process.  `~BinaryRpcChannel` clears
`running_`, shuts the socket down, closes `clientFd_` and only then joins the receiver, which tests
`running_` and calls `read` in two steps; other threads open and close descriptors all along.

* `ReceiverThread` — a channel, the descriptor table, and what every `read` found under `clientFd_`.
* `receiverThread` — the transition system: channel, receiver, destructor and the other threads.
* `reads_own` — **every read finds the channel's own socket, if the destructor never closes it while
  the receiver is between its test and its read**.
* `reads_other_of_close` — and where it does, a read of a closed or foreign descriptor follows before
  the destructor can end.
-/

namespace Tudou

open Transition Descriptors

/-- What a descriptor names: the channel's socket, or something of another thread. -/
inductive OpenFile where
  | clientSocket
  | foreign
  deriving DecidableEq, Repr

/-- How far the destructor has got with the socket. -/
inductive SocketState where
  | connected
  | shut
  | closed
  deriving DecidableEq, Repr

structure ReceiverThread where
  channel : BinaryRpcChannel
  fds : FdTable OpenFile
  clientFd : Nat
  socket : SocketState
  /-- What the `read` under way reads from. -/
  inRead : Option OpenFile
  /-- What `clientFd_` named at each call of `read`; `none` where it was closed. -/
  reads : List (Option OpenFile)

inductive ReceiverThreadStep where
  | channel (l : ChannelLabel)
  /-- The receiver calls `read(clientFd_)`. -/
  | callRead
  /-- `shutdown(clientFd_)` and `close(clientFd_)` of the destructor. -/
  | shutdown
  | close
  /-- Another thread opens a descriptor, or closes one of its own. -/
  | otherOpens
  | otherCloses (fd : Nat)
  deriving DecidableEq, Repr

namespace ReceiverThread

/-- The receiver has tested `running_` and not called `read` yet. -/
def aboutToRead (s : ReceiverThread) : Bool :=
  decide (s.channel.receiver = .reading) && s.inRead.isNone

/-- A read returns only after it was called, and the join comes after the close. -/
def blocks (s : ReceiverThread) : ChannelLabel → Bool
  | .receiver _ => s.aboutToRead
  | .destroyEnd => decide (s.socket ≠ .closed)
  | _ => false

/-- A step of the receiver, the return of a read among them, leaves no read under way. -/
def inReadAfter (s : ReceiverThread) : ChannelLabel → Option OpenFile
  | .receiver _ => none
  | _ => s.inRead

variable (parses : Nat → Bytes → Bool)

def step (s : ReceiverThread) : ReceiverThreadStep → Option ReceiverThread
  | .channel l =>
    if s.blocks l then none
    else (s.channel.step .thread parses l).map fun channel =>
      { s with channel := channel, inRead := s.inReadAfter l }
  | .callRead =>
    if s.aboutToRead then
      match s.fds.holder s.clientFd with
      | some file => some { s with inRead := some file, reads := some file :: s.reads }
      -- `EBADF`
      | none => (s.channel.step .thread parses (.receiver .readEnd)).map fun channel =>
        { s with channel := channel, reads := none :: s.reads }
    else none
  | .shutdown =>
    if s.channel.lifetime = .closing ∧ s.socket = .connected then some { s with socket := .shut }
    else none
  | .close =>
    if s.socket = .shut then some { s with fds := s.fds.closeFd s.clientFd, socket := .closed }
    else none
  | .otherOpens => (s.fds.openFd .foreign).map fun p => { s with fds := p.1 }
  | .otherCloses fd =>
    if s.fds.holder fd = some .foreign then some { s with fds := s.fds.closeFd fd } else none

/-- A connected channel; `others` are the descriptors the other threads have open. -/
def create (limit clientFd : Nat) (others : Nat → Bool) : ReceiverThread where
  channel := .create
  fds := {
    limit := limit
    holder := Function.update (fun fd => if others fd then some .foreign else none) clientFd
      (some .clientSocket) }
  clientFd := clientFd
  socket := .connected
  inRead := none
  reads := []

end ReceiverThread

/-- One channel of thread mode among the other threads of its process. -/
def receiverThread (parses : Nat → Bytes → Bool) (limit clientFd : Nat) (others : Nat → Bool) :
    System ReceiverThread ReceiverThreadStep where
  init := .create limit clientFd others
  step := ReceiverThread.step parses

/-! ## What the channel's own steps do to the receiver -/

namespace BinaryRpcChannel

variable {parses : Nat → Bytes → Bool} {s s' : BinaryRpcChannel}

/-- A round of `receive_loop` gets to its read only past a test that found `running_` set. -/
theorem receiverStep_reading {l : ReceiverLabel} (hs : s.receiverStep .thread parses l = some s')
    (hreading : s'.receiver = .reading) : s.running = true := by
  cases l with
  | check =>
    simp only [receiverStep] at hs
    split at hs
    · split at hs
      · assumption
      · cases hs
        cases hreading
    · cases hs
  | readData | readRetry | readEnd | halfPack | badFrame | deliver =>
    simp only [receiverStep] at hs
    split at hs
    · cases hs
      cases hreading
    · cases hs
  | checkParse | frame _ _ =>
    simp only [receiverStep] at hs
    split at hs
    · cases hs
      simp only at hreading
      split at hreading <;> cases hreading
    · cases hs
  | tearDown =>
    simp only [receiverStep] at hs
    split at hs
    · cases hs
      cases hreading
    · cases hs
      cases hreading
    · cases hs
      cases hreading
    · cases hs
  | writeError connecting =>
    simp only [receiverStep, reduceCtorEq, false_and, if_false] at hs

theorem step_reading {l : ReceiverLabel} (hs : s.step .thread parses (.receiver l) = some s')
    (hreading : s'.receiver = .reading) : s.running = true := by
  simp only [step] at hs
  split at hs
  · cases hs
  · exact receiverStep_reading hs hreading

/-- Only the receiver moves the receiver. -/
theorem step_receiver {l : ChannelLabel} (hs : s.step .thread parses l = some s')
    (hl : ∀ l', l ≠ .receiver l') : s'.receiver = s.receiver := by
  cases step_ends hs with
  | called _ _ | unheard | resumed _ _ _ _ | closing _ => rfl
  | caller _ h => cases h <;> rfl
  | receiver _ => exact absurd rfl (hl _)
  | destroyed => exact receiver_cleanup _ _

theorem destroyEnd_ends (hs : s.step .thread parses .destroyEnd = some s') :
    s.lifetime = .closing ∧ s.receiver = .stopped := by
  simp only [step, reduceCtorEq, false_and, or_false] at hs
  split at hs
  · assumption
  · cases hs

/-- `running_` is never set again. -/
theorem step_running {l : ChannelLabel} (hs : s.step .thread parses l = some s')
    (hstopped : s.running = false) : s'.running = false := by
  cases step_ends hs with
  | called _ _ | unheard | resumed _ _ _ _ => exact hstopped
  | closing _ => rfl
  | caller _ h =>
    cases h with
    | registered _ _ | withdrawn _ _ | goesOn _ _ _ _ _ => exact hstopped
  | receiver h =>
    cases h with
    | goesOn _ _ _ _ | arrives _ _ _ | delivers _ _ _ _ => exact hstopped
    | clears _ _ _ => rfl
    | fails _ _ _ =>
      rw [cleanup_eq]
      exact hstopped
  | destroyed =>
    rw [cleanup_eq]
    exact hstopped

/-- `running_` is clear from the beginning of the destructor on. -/
theorem step_lifetime {l : ChannelLabel} (hs : s.step .thread parses l = some s') :
    s'.lifetime = s.lifetime ∨ s'.lifetime ≠ .alive ∧ (s.lifetime ≠ .alive ∨ s'.running = false) := by
  cases hl : step_ends hs with
  | called _ _ | unheard | resumed _ _ _ _ => exact .inl rfl
  | caller _ h =>
    cases h with
    | registered _ _ | withdrawn _ _ | goesOn _ _ _ _ _ => exact .inl rfl
  | receiver h =>
    cases h with
    | goesOn _ _ _ _ | arrives _ _ _ | delivers _ _ _ _ | clears _ _ _ => exact .inl rfl
    | fails _ _ _ =>
      rw [cleanup_eq]
      exact .inl rfl
  | closing _ => exact .inr ⟨by simp, .inr rfl⟩
  | destroyed =>
    refine .inr ⟨by simp, .inl ?_⟩
    rw [(destroyEnd_ends hs).1]
    simp

/-- The destructor ends with the receiver joined, and it stays so. -/
theorem step_destroyed {l : ChannelLabel} (hs : s.step .thread parses l = some s')
    (h : s.lifetime = .destroyed → s.receiver = .stopped) (hd : s'.lifetime = .destroyed) :
    s'.receiver = .stopped := by
  cases hl : step_ends hs with
  | called halive _ =>
    simp only [halive] at hd
    cases hd
  | unheard | resumed _ _ _ _ => exact h hd
  | caller _ hc => cases hc <;> exact h hd
  | receiver hr =>
    simp only [step] at hs
    split at hs
    · cases hs
    · rename_i hne
      refine absurd ?_ hne
      cases hr with
      | goesOn _ _ _ _ | arrives _ _ _ | delivers _ _ _ _ | clears _ _ _ => exact hd
      | fails _ _ _ =>
        rw [cleanup_eq] at hd
        exact hd
  | closing _ => cases hd
  | destroyed =>
    rw [← (destroyEnd_ends hs).2]
    exact receiver_cleanup _ _

end BinaryRpcChannel

namespace ReceiverThread

variable {parses : Nat → Bytes → Bool} {s s' : ReceiverThread}

/-- What each step does. -/
inductive StepEnds (parses : Nat → Bytes → Bool) (s : ReceiverThread) :
    ReceiverThreadStep → ReceiverThread → Prop
  | channel {l : ChannelLabel} {c : BinaryRpcChannel}
      (h : s.channel.step .thread parses l = some c) (hb : s.blocks l = false) :
      StepEnds parses s (.channel l) { s with channel := c, inRead := s.inReadAfter l }
  | callRead {file : OpenFile} (ha : s.aboutToRead = true)
      (hfile : s.fds.holder s.clientFd = some file) :
      StepEnds parses s .callRead { s with inRead := some file, reads := some file :: s.reads }
  | badFd {c : BinaryRpcChannel} (ha : s.aboutToRead = true)
      (hfree : s.fds.holder s.clientFd = none)
      (h : s.channel.step .thread parses (.receiver .readEnd) = some c) :
      StepEnds parses s .callRead { s with channel := c, reads := none :: s.reads }
  | shutdown (hl : s.channel.lifetime = .closing) (hs : s.socket = .connected) :
      StepEnds parses s .shutdown { s with socket := .shut }
  | close (hs : s.socket = .shut) :
      StepEnds parses s .close { s with fds := s.fds.closeFd s.clientFd, socket := .closed }
  | otherOpens {fds : FdTable OpenFile} {fd : Nat} (h : s.fds.openFd .foreign = some (fds, fd)) :
      StepEnds parses s .otherOpens { s with fds := fds }
  | otherCloses {fd : Nat} (h : s.fds.holder fd = some .foreign) :
      StepEnds parses s (.otherCloses fd) { s with fds := s.fds.closeFd fd }

theorem step_ends {a : ReceiverThreadStep} (h : s.step parses a = some s') :
    StepEnds parses s a s' := by
  cases a with
  | channel l =>
    simp only [step] at h
    split at h
    · cases h
    · obtain ⟨c, hc, rfl⟩ := Option.map_eq_some_iff.mp h
      exact .channel hc (Bool.not_eq_true _ ▸ ‹_›)
  | callRead =>
    simp only [step] at h
    split at h
    · split at h
      · cases h
        exact .callRead ‹_› ‹_›
      · obtain ⟨c, hc, rfl⟩ := Option.map_eq_some_iff.mp h
        exact .badFd ‹_› ‹_› hc
    · cases h
  | shutdown =>
    simp only [step] at h
    split at h
    · rename_i hcan
      cases h
      exact .shutdown hcan.1 hcan.2
    · cases h
  | close =>
    simp only [step] at h
    split at h
    · cases h
      exact .close ‹_›
    · cases h
  | otherOpens =>
    obtain ⟨⟨fds, fd⟩, hopen, rfl⟩ := Option.map_eq_some_iff.mp h
    exact .otherOpens hopen
  | otherCloses fd =>
    simp only [step] at h
    split at h
    · cases h
      exact .otherCloses ‹_›
    · cases h

/-! ## Before and after the close -/

/-- What holds in every state, whenever the socket is closed. -/
structure Sound (s : ReceiverThread) : Prop where
  own : s.socket ≠ .closed → s.fds.holder s.clientFd = some .clientSocket
  foreign : s.socket = .closed → s.fds.holder s.clientFd ≠ some .clientSocket
  begun : s.socket ≠ .connected → s.channel.lifetime ≠ .alive
  cleared : s.channel.lifetime ≠ .alive → s.channel.running = false
  joined : s.channel.lifetime = .destroyed → s.channel.receiver = .stopped

theorem sound_create (limit clientFd : Nat) (others : Nat → Bool) :
    (create limit clientFd others).Sound where
  own _ := by simp only [create, Function.update_self]
  foreign h := by cases h
  begun h := absurd rfl h
  cleared h := absurd rfl h
  joined h := by cases h

theorem Sound.step {a : ReceiverThreadStep} (h : s.Sound) (hs : StepEnds parses s a s') :
    s'.Sound := by
  have hchannel : ∀ {l c}, s.channel.step .thread parses l = some c →
      (s.socket ≠ .connected → c.lifetime ≠ .alive) ∧ (c.lifetime ≠ .alive → c.running = false) ∧
        (c.lifetime = .destroyed → c.receiver = .stopped) := by
    intro l c hc
    refine ⟨fun hne => ?_, fun halive => ?_, BinaryRpcChannel.step_destroyed hc h.joined⟩
    · rcases BinaryRpcChannel.step_lifetime hc with heq | ⟨hgone, -⟩
      · rw [heq]
        exact h.begun hne
      · exact hgone
    · rcases BinaryRpcChannel.step_lifetime hc with heq | ⟨-, hgone | hclear⟩
      · exact BinaryRpcChannel.step_running hc (h.cleared (heq ▸ halive))
      · exact BinaryRpcChannel.step_running hc (h.cleared hgone)
      · exact hclear
  cases hs with
  | channel hc _ =>
    obtain ⟨hbegun, hcleared, hjoined⟩ := hchannel hc
    exact ⟨h.own, h.foreign, hbegun, hcleared, hjoined⟩
  | badFd _ _ hc =>
    obtain ⟨hbegun, hcleared, hjoined⟩ := hchannel hc
    exact ⟨h.own, h.foreign, hbegun, hcleared, hjoined⟩
  | callRead _ _ => exact ⟨h.own, h.foreign, h.begun, h.cleared, h.joined⟩
  | shutdown hl hcon =>
    refine ⟨fun _ => h.own (by rw [hcon]; simp), fun hs => (by cases hs), fun _ => ?_, h.cleared,
      h.joined⟩
    rw [hl]
    simp
  | close hshut =>
    refine ⟨fun hne => absurd rfl hne, fun _ hown => ?_, fun _ => h.begun (by rw [hshut]; simp),
      h.cleared, h.joined⟩
    exact (FdTable.of_holder_closeFd hown).2 rfl
  | otherOpens hopen =>
    refine ⟨fun hne => FdTable.holder_openFd hopen (h.own hne), fun hclosed hown => ?_, h.begun,
      h.cleared, h.joined⟩
    rcases FdTable.of_holder_openFd hopen hown with hold | ⟨-, heq⟩
    · exact h.foreign hclosed hold
    · cases heq
  | otherCloses hfd =>
    refine ⟨fun hne => ?_, fun hclosed hown => ?_, h.begun, h.cleared, h.joined⟩
    · have hown := h.own hne
      rw [← hown]
      apply FdTable.holder_closeFd_of_ne
      rintro heq
      rw [heq, hfd] at hown
      cases hown
    · exact h.foreign hclosed (FdTable.of_holder_closeFd hown).1

/-- Past the close the receiver gets to no read it was not about to make. -/
theorem aboutToRead_step {a : ReceiverThreadStep} (h : s.Sound) (hs : StepEnds parses s a s')
    (hclosed : s.socket = .closed) (hnot : s.aboutToRead = false) : s'.aboutToRead = false := by
  have hstopped : s.channel.running = false := h.cleared (h.begun (by rw [hclosed]; simp))
  cases hs with
  | @channel l c hc hb =>
    by_cases hl : ∃ l', l = .receiver l'
    · obtain ⟨l', rfl⟩ := hl
      have hne : c.receiver ≠ .reading := by
        intro hreading
        have hrunning := BinaryRpcChannel.step_reading hc hreading
        rw [hstopped] at hrunning
        cases hrunning
      simp [aboutToRead, hne]
    · have hl : ∀ l', l ≠ .receiver l' := fun l' heq => hl ⟨l', heq⟩
      have hin : s.inReadAfter l = s.inRead := by
        cases l with
        | receiver l' => exact absurd rfl (hl l')
        | call _ | caller _ _ | resume _ | destroyBegin | destroyEnd => rfl
      simpa only [aboutToRead, BinaryRpcChannel.step_receiver hc hl, hin] using hnot
  | callRead ha _ | badFd ha _ _ =>
    rw [hnot] at ha
    cases ha
  | shutdown _ hcon =>
    rw [hcon] at hclosed
    cases hclosed
  | close _ | otherOpens _ | otherCloses _ => exact hnot

/-! ## The reads -/

/-- The destructor closes the socket while the receiver is in a read, or past its last test. -/
def ClosesSafely (s : ReceiverThread) (a : ReceiverThreadStep) : Prop :=
  a = .close → s.aboutToRead = false

instance (s : ReceiverThread) (a : ReceiverThreadStep) : Decidable (s.ClosesSafely a) :=
  inferInstanceAs (Decidable (a = .close → s.aboutToRead = false))

/-- All reads so far found the channel's own socket. -/
def ReadsOwn (s : ReceiverThread) : Prop := ∀ r ∈ s.reads, r = some .clientSocket

structure Safe (s : ReceiverThread) : Prop where
  sound : s.Sound
  reads : s.ReadsOwn
  away : s.socket = .closed → s.aboutToRead = false

theorem Safe.step {a : ReceiverThreadStep} (h : s.Safe) (hg : s.ClosesSafely a)
    (hs : StepEnds parses s a s') : s'.Safe := by
  have hsound := h.sound.step hs
  by_cases hclosed : s.socket = .closed
  · have haway := aboutToRead_step h.sound hs hclosed (h.away hclosed)
    refine ⟨hsound, ?_, fun _ => haway⟩
    cases hs with
    | callRead ha _ | badFd ha _ _ =>
      rw [h.away hclosed] at ha
      cases ha
    | channel _ _ | shutdown _ _ | close _ | otherOpens _ | otherCloses _ => exact h.reads
  · have hown := h.sound.own hclosed
    cases hs with
    | callRead _ hfile =>
      refine ⟨hsound, ?_, fun hc => absurd hc hclosed⟩
      rw [hown] at hfile
      cases hfile
      exact List.forall_mem_cons.mpr ⟨rfl, h.reads⟩
    | badFd _ hfree _ =>
      rw [hown] at hfree
      cases hfree
    | close _ => exact ⟨hsound, h.reads, fun _ => hg rfl⟩
    | shutdown _ _ => exact ⟨hsound, h.reads, fun hc => by cases hc⟩
    | channel _ _ | otherOpens _ | otherCloses _ =>
      exact ⟨hsound, h.reads, fun hc => absurd hc hclosed⟩

/-- **The receiver reads nothing but its own socket**, whatever the other threads do with descriptors,
in the runs in which the destructor never closes the socket between the receiver's test of `running_`
and its `read`. -/
theorem reads_own {limit clientFd : Nat} {others : Nat → Bool}
    (h : (receiverThread parses limit clientFd others).Reaches ClosesSafely s) : s.ReadsOwn := by
  have hinit : (create limit clientFd others).Safe :=
    ⟨sound_create limit clientFd others, fun r hr => (by cases hr), fun hc => (by cases hc)⟩
  exact (h.invariant (I := Safe) hinit fun _ _ _ hs hg hstep => hs.step hg (step_ends hstep)).reads

/-- A process with descriptors 0, 1 and 2 open besides the channel's, which is 3. -/
def smallProcess : System ReceiverThread ReceiverThreadStep :=
  receiverThread (fun _ _ => true) 64 3 fun fd => decide (fd < 3)

/-- Closed while a read is under way, which the shutdown ends; the number goes to another thread. -/
def closedInRead : List ReceiverThreadStep :=
  [.channel (.receiver .check), .callRead, .channel .destroyBegin, .shutdown, .close, .otherOpens,
    .channel (.receiver .readEnd), .channel (.receiver .tearDown), .channel .destroyEnd]

theorem reads_own_closedInRead :
    ∃ s, smallProcess.run smallProcess.init closedInRead = some s ∧ s.ReadsOwn := by
  refine ⟨_, rfl, ?_⟩
  have h : smallProcess.Reaches ClosesSafely _ := .of_run closedInRead rfl (by decide)
  exact reads_own h

/-- The receiver has tested `running_` when the destructor runs up to its join, and a connection of
another thread gets the number; `read` takes its bytes. -/
def closedBeforeRead : List ReceiverThreadStep :=
  [.channel (.receiver .check), .channel .destroyBegin, .shutdown, .close, .otherOpens, .callRead,
    .channel (.receiver .readData)]

theorem reads_own_closedBeforeRead :
    ¬∀ s, smallProcess.Reachable s → s.ReadsOwn := by
  intro h
  have hown := h _ (.of_run closedBeforeRead rfl) (some .foreign) List.mem_cons_self
  cases hown

/-! ## A close at the wrong moment -/

/-- The socket is gone, and the receiver has read something else or is about to. -/
structure Misreads (s : ReceiverThread) : Prop where
  sound : s.Sound
  closed : s.socket = .closed
  read : s.aboutToRead = true ∨ ∃ r ∈ s.reads, r ≠ some .clientSocket

theorem Misreads.step {a : ReceiverThreadStep} (h : s.Misreads) (hs : StepEnds parses s a s') :
    s'.Misreads := by
  have hsound := h.sound.step hs
  cases hs with
  | @channel l c hc hb =>
    refine ⟨hsound, h.closed, h.read.imp_left fun ha => ?_⟩
    cases l with
    | receiver l' =>
      rw [blocks, ha] at hb
      cases hb
    | call _ | caller _ _ | resume _ | destroyBegin | destroyEnd =>
      simpa only [aboutToRead, BinaryRpcChannel.step_receiver hc (by simp), inReadAfter] using ha
  | callRead _ hfile =>
    refine ⟨hsound, h.closed, .inr ⟨_, List.mem_cons_self, fun heq => ?_⟩⟩
    rw [heq] at hfile
    exact h.sound.foreign h.closed hfile
  | badFd _ _ _ => exact ⟨hsound, h.closed, .inr ⟨_, List.mem_cons_self, by simp⟩⟩
  | shutdown _ hcon =>
    have hclosed := h.closed
    rw [hcon] at hclosed
    cases hclosed
  | close hshut =>
    have hclosed := h.closed
    rw [hshut] at hclosed
    cases hclosed
  | otherOpens _ | otherCloses _ => exact ⟨hsound, h.closed, h.read⟩

/-- **Once the socket is closed in front of a read, no run in which the destructor ends is without a
read of a closed or foreign descriptor.** -/
theorem reads_other_of_close {limit clientFd : Nat} {others : Nat → Bool}
    (h : (receiverThread parses limit clientFd others).Reachable s) (ha : s.aboutToRead = true)
    (hs : s.step parses .close = some s') {t : ReceiverThread} (steps : List ReceiverThreadStep)
    (hr : (receiverThread parses limit clientFd others).run s' steps = some t)
    (hd : t.channel.lifetime = .destroyed) : ¬t.ReadsOwn := by
  have hsound : s.Sound := h.invariant (sound_create limit clientFd others)
    fun _ _ _ hs _ hstep => hs.step (step_ends hstep)
  have hmis : s'.Misreads := by
    cases hends : step_ends hs with
    | close hshut => exact ⟨hsound.step (step_ends hs), rfl, .inl ha⟩
  have hmis : t.Misreads := System.run_invariant (G := fun _ _ => True) (I := Misreads)
    (fun _ _ _ hm _ hstep => hm.step (step_ends hstep)) steps hmis hr (System.admits_true _ _)
  rcases hmis.read with ha | ⟨r, hr, hne⟩
  · rw [aboutToRead, hmis.sound.joined hd] at ha
    cases ha
  · exact fun hown => hne (hown r hr)

end ReceiverThread

end Tudou
