import Tudou.Foundation.FdTable
import Tudou.Foundation.Run

/-!
# `Acceptor`: recovery from descriptor exhaustion

Model of `Acceptor::{Acceptor, on_read, accept_idle_connection}` and `Socket::accept` in a process
with a bounded descriptor table, whose other threads open and close descriptors between any two calls
of the acceptor.  The recovery closes the reserve `idleFd_`, accepts and closes one connection, and
opens a reserve again.

* `Acceptor` — the table, the reserve, the accept queue, and how each recovery went.
* `acceptors` — the transition system.
* `survives_iff` — **each recovery takes a connection off the queue and regains the reserve in exactly
  the runs in which its accept finds a free number and a connection, and its open a free number; and so it
  is if nothing else happens to the table or the queue meanwhile** (`survives_of_undisturbed`).
* `spins` — a recovery without the reserve leaves everything as it was.
-/

namespace Tudou

open Transition Descriptors

/-- What a descriptor names. -/
inductive AcceptorFile where
  | listenSocket
  /-- `/dev/null`, held by `idleFd_`. -/
  | idle
  /-- A connection accepted by the recovery. -/
  | discarded
  /-- Of other threads and of accepted connections. -/
  | other
  deriving DecidableEq, Repr

/-- Where the thread of the acceptor stands. -/
inductive AcceptorPhase where
  /-- Before the last statement of the constructor. -/
  | constructing
  /-- Outside of `on_read`. -/
  | waiting
  /-- In `accept_idle_connection`, before each of its calls. -/
  | exhausted
  | idleClosed
  | accepted (connFd : Nat)
  | reopening
  deriving DecidableEq, Repr

structure Acceptor where
  fds : FdTable AcceptorFile
  /-- `none` for `-1`. -/
  idleFd : Option Nat
  /-- Connections in the accept queue of the kernel. -/
  backlog : Nat
  phase : AcceptorPhase
  /-- For each recovery, whether its accept took a connection. -/
  accepts : List Bool
  /-- For each open of `/dev/null` that ended a recovery, whether it succeeded. -/
  opens : List Bool

/-- Why a call fails besides a full table. -/
inductive AcceptFault where
  /-- The table of the system is full. -/
  | enfile
  /-- `EINTR`, `ECONNABORTED` and whatever else is no exhaustion. -/
  | transient
  deriving DecidableEq, Repr

inductive AcceptorStep where
  /-- `idleFd_ = Socket(::open("/dev/null"))`. -/
  | openIdle (fails : Bool)
  | onRead (fault : Option AcceptFault)
  | closeIdle
  | acceptIdle (fault : Option AcceptFault)
  | closeAccepted
  /-- Another thread opens a descriptor, or closes one of its own. -/
  | otherOpens
  | otherCloses (fd : Nat)
  /-- A connection gets into the accept queue, or is reset in it. -/
  | arrive
  | reset
  deriving DecidableEq, Repr

/-- What `Socket::accept` returns. -/
inductive Accepted where
  | connection (fds : FdTable AcceptorFile) (connFd : Nat)
  /-- `-1`, with `EMFILE` or `ENFILE`. -/
  | exhausted
  /-- `-1`, with `EAGAIN` or another `errno`. -/
  | again

namespace Acceptor

/-- `Socket::accept`; `accept4` takes a number before it looks at the queue. -/
def accept (s : Acceptor) (file : AcceptorFile) (fault : Option AcceptFault) : Accepted :=
  match s.fds.openFd file with
  | none => .exhausted
  | some (fds, connFd) =>
    match fault with
    | some .enfile => .exhausted
    | some .transient => .again
    | none => if s.backlog = 0 then .again else .connection fds connFd

/-- The end of a recovery is noted, the open of the constructor is not. -/
def noteOpen (s : Acceptor) (opened : Bool) : List Bool :=
  if s.phase = .reopening then opened :: s.opens else s.opens

/-- `::open("/dev/null", O_RDONLY | O_CLOEXEC)` into `idleFd_`. -/
def openIdle (s : Acceptor) (fails : Bool) : Acceptor :=
  match (if fails then none else s.fds.openFd .idle) with
  | some (fds, fd) =>
    { s with fds := fds, idleFd := some fd, phase := .waiting, opens := s.noteOpen true }
  | none => { s with idleFd := none, phase := .waiting, opens := s.noteOpen false }

/-- `on_read`, up to a recovery; a connection goes to the connect callback. -/
def onRead (s : Acceptor) (fault : Option AcceptFault) : Acceptor :=
  match s.accept .other fault with
  | .connection fds _ => { s with fds := fds, backlog := s.backlog - 1 }
  | .exhausted => { s with phase := .exhausted }
  | .again => s

/-- `idleFd_ = Socket(-1)`. -/
def closeIdle (s : Acceptor) : Acceptor :=
  match s.idleFd with
  | some fd => { s with fds := s.fds.closeFd fd, idleFd := none, phase := .idleClosed }
  | none => { s with phase := .idleClosed }

/-- The accept of the recovery. -/
def acceptIdle (s : Acceptor) (fault : Option AcceptFault) : Acceptor :=
  match s.accept .discarded fault with
  | .connection fds connFd =>
    { s with
      fds := fds
      backlog := s.backlog - 1
      phase := .accepted connFd
      accepts := true :: s.accepts }
  | .exhausted | .again => { s with phase := .reopening, accepts := false :: s.accepts }

def step (s : Acceptor) : AcceptorStep → Option Acceptor
  | .openIdle fails =>
    match s.phase with
    | .constructing | .reopening => some (s.openIdle fails)
    | _ => none
  | .onRead fault => if s.phase = .waiting then some (s.onRead fault) else none
  | .closeIdle => if s.phase = .exhausted then some s.closeIdle else none
  | .acceptIdle fault => if s.phase = .idleClosed then some (s.acceptIdle fault) else none
  | .closeAccepted =>
    match s.phase with
    | .accepted connFd => some { s with fds := s.fds.closeFd connFd, phase := .reopening }
    | _ => none
  | .otherOpens => (s.fds.openFd .other).map fun p => { s with fds := p.1 }
  | .otherCloses fd =>
    if s.fds.holder fd = some .other then some { s with fds := s.fds.closeFd fd } else none
  | .arrive => some { s with backlog := s.backlog + 1 }
  | .reset => if s.backlog = 0 then none else some { s with backlog := s.backlog - 1 }

/-- An acceptor under construction, listening on `listenFd`; the numbers of `others` are in use. -/
def create (limit listenFd : Nat) (others : Nat → Bool) : Acceptor where
  fds := {
    limit := limit
    holder := Function.update (fun fd => if others fd then some .other else none) listenFd
      (some .listenSocket) }
  idleFd := none
  backlog := 0
  phase := .constructing
  accepts := []
  opens := []

end Acceptor

/-- One acceptor in a process of at most `limit` descriptors. -/
def acceptors (limit listenFd : Nat) (others : Nat → Bool) : System Acceptor AcceptorStep where
  init := .create limit listenFd others
  step := Acceptor.step

namespace Acceptor

/-! ## What the acceptor is to do -/

/-- `idleFd_` is a descriptor of its own. -/
def HoldsIdle (s : Acceptor) : Prop := ∃ fd, s.idleFd = some fd ∧ s.fds.holder fd = some .idle

/-- Between recoveries the reserve is there to be given up at the next exhaustion. -/
def InReserve (s : Acceptor) : Prop := s.phase = .waiting ∨ s.phase = .exhausted → s.HoldsIdle

/-- Each recovery has removed a connection and ended with the reserve, which is there ever since. -/
structure Survives (s : Acceptor) : Prop where
  accepts : ∀ taken ∈ s.accepts, taken = true
  opens : ∀ opened ∈ s.opens, opened = true
  holds : s.opens ≠ [] → s.InReserve

/-- A number is free. -/
def HasRoom (s : Acceptor) : Prop := s.fds.lowestFree ≠ none

instance (s : Acceptor) : Decidable s.HasRoom := inferInstanceAs (Decidable (_ ≠ none))

/-- The accept of a recovery finds a number and a connection, its open of the reserve a number, and
they do not fail otherwise. -/
def Recovers (s : Acceptor) : AcceptorStep → Prop
  | .openIdle fails => s.phase = .reopening → fails = false ∧ s.HasRoom
  | .acceptIdle fault => fault = none ∧ s.HasRoom ∧ 0 < s.backlog
  | _ => True

instance (s : Acceptor) (a : AcceptorStep) : Decidable (s.Recovers a) := by
  unfold Recovers
  cases a with
  | openIdle fails => exact inferInstanceAs (Decidable (_ → _ ∧ _))
  | acceptIdle fault => exact inferInstanceAs (Decidable (_ ∧ _))
  | onRead _ | closeIdle | closeAccepted | otherOpens | otherCloses _ | arrive | reset =>
    exact inferInstanceAs (Decidable True)

/-! ## The steps -/

section

variable {s s' : Acceptor}

/-- How `Socket::accept` ends. -/
theorem accept_cases (s : Acceptor) (file : AcceptorFile) (fault : Option AcceptFault) :
    (fault = none ∧ 0 < s.backlog ∧ ∃ fds connFd, s.fds.openFd file = some (fds, connFd) ∧
        s.accept file fault = .connection fds connFd) ∨
      (s.accept file fault = .exhausted ∧ (fault = some .enfile ∨ ¬s.HasRoom)) ∨
      (s.accept file fault = .again ∧ (fault = some .transient ∨ s.backlog = 0)) := by
  unfold accept
  split
  · rename_i hfull
    exact .inr (.inl ⟨rfl, .inr fun hroom => hroom (FdTable.openFd_eq_none.mp hfull)⟩)
  · rename_i fds connFd hopen
    split
    · exact .inr (.inl ⟨rfl, .inl rfl⟩)
    · exact .inr (.inr ⟨rfl, .inl rfl⟩)
    · split
      · exact .inr (.inr ⟨rfl, .inr ‹_›⟩)
      · exact .inl ⟨rfl, Nat.pos_of_ne_zero ‹_›, fds, connFd, hopen, rfl⟩

/-- What each step does. -/
inductive StepEnds (s : Acceptor) : AcceptorStep → Acceptor → Prop
  | opened {fds : FdTable AcceptorFile} {fd : Nat} (ho : s.fds.openFd .idle = some (fds, fd)) :
      StepEnds s (.openIdle false)
        { s with fds := fds, idleFd := some fd, phase := .waiting, opens := s.noteOpen true }
  | notOpened {fails : Bool} (hphase : s.phase = .constructing ∨ s.phase = .reopening)
      (hno : ¬(fails = false ∧ s.HasRoom)) :
      StepEnds s (.openIdle fails)
        { s with idleFd := none, phase := .waiting, opens := s.noteOpen false }
  | connected {fds : FdTable AcceptorFile} {connFd : Nat} (hphase : s.phase = .waiting)
      (ho : s.fds.openFd .other = some (fds, connFd)) (hb : 0 < s.backlog) :
      StepEnds s (.onRead none) { s with fds := fds, backlog := s.backlog - 1 }
  | exhausted {fault : Option AcceptFault} (hphase : s.phase = .waiting)
      (hno : fault = some .enfile ∨ ¬s.HasRoom) :
      StepEnds s (.onRead fault) { s with phase := .exhausted }
  | returned {fault : Option AcceptFault} (hphase : s.phase = .waiting) : StepEnds s (.onRead fault) s
  | closed {fd : Nat} (hphase : s.phase = .exhausted) (hidle : s.idleFd = some fd) :
      StepEnds s .closeIdle { s with fds := s.fds.closeFd fd, idleFd := none, phase := .idleClosed }
  | nothingClosed (hphase : s.phase = .exhausted) (hidle : s.idleFd = none) :
      StepEnds s .closeIdle { s with phase := .idleClosed }
  | taken {fds : FdTable AcceptorFile} {connFd : Nat} (hphase : s.phase = .idleClosed)
      (ho : s.fds.openFd .discarded = some (fds, connFd)) (hb : 0 < s.backlog) :
      StepEnds s (.acceptIdle none)
        { s with
          fds := fds
          backlog := s.backlog - 1
          phase := .accepted connFd
          accepts := true :: s.accepts }
  | missed {fault : Option AcceptFault} (hphase : s.phase = .idleClosed)
      (hno : ¬(fault = none ∧ s.HasRoom ∧ 0 < s.backlog)) :
      StepEnds s (.acceptIdle fault) { s with phase := .reopening, accepts := false :: s.accepts }
  | discarded {connFd : Nat} (hphase : s.phase = .accepted connFd) :
      StepEnds s .closeAccepted { s with fds := s.fds.closeFd connFd, phase := .reopening }
  | otherOpens {fds : FdTable AcceptorFile} {fd : Nat} (ho : s.fds.openFd .other = some (fds, fd)) :
      StepEnds s .otherOpens { s with fds := fds }
  | otherCloses {fd : Nat} (hfd : s.fds.holder fd = some .other) :
      StepEnds s (.otherCloses fd) { s with fds := s.fds.closeFd fd }
  | arrive : StepEnds s .arrive { s with backlog := s.backlog + 1 }
  | reset (hb : s.backlog ≠ 0) : StepEnds s .reset { s with backlog := s.backlog - 1 }

theorem openIdle_ends (fails : Bool) (hphase : s.phase = .constructing ∨ s.phase = .reopening) :
    StepEnds s (.openIdle fails) (s.openIdle fails) := by
  unfold openIdle
  split
  · rename_i fds fd ho
    split at ho
    · cases ho
    · rename_i hf
      rw [Bool.not_eq_true] at hf
      subst hf
      exact .opened ho
  · rename_i hno
    refine .notOpened hphase fun ⟨hf, hroom⟩ => ?_
    subst hf
    exact hroom (FdTable.openFd_eq_none.mp hno)

theorem onRead_ends {fault : Option AcceptFault} (hphase : s.phase = .waiting) :
    StepEnds s (.onRead fault) (s.onRead fault) := by
  unfold onRead
  rcases s.accept_cases .other fault with ⟨rfl, hb, fds, connFd, ho, heq⟩ | ⟨heq, hno⟩ | ⟨heq, -⟩
  · rw [heq]
    exact .connected hphase ho hb
  · rw [heq]
    exact .exhausted hphase hno
  · rw [heq]
    exact .returned hphase

theorem closeIdle_ends (hphase : s.phase = .exhausted) : StepEnds s .closeIdle s.closeIdle := by
  unfold closeIdle
  split
  · exact .closed hphase ‹_›
  · exact .nothingClosed hphase ‹_›

theorem acceptIdle_ends {fault : Option AcceptFault} (hphase : s.phase = .idleClosed) :
    StepEnds s (.acceptIdle fault) (s.acceptIdle fault) := by
  unfold acceptIdle
  rcases s.accept_cases .discarded fault with
    ⟨rfl, hb, fds, connFd, ho, heq⟩ | ⟨heq, hno⟩ | ⟨heq, hno⟩
  · rw [heq]
    exact .taken hphase ho hb
  · rw [heq]
    refine .missed hphase fun ⟨hfault, hroom, _⟩ => ?_
    rcases hno with hno | hfull
    · rw [hfault] at hno
      cases hno
    · exact hfull hroom
  · rw [heq]
    refine .missed hphase fun ⟨hfault, _, hb⟩ => ?_
    rcases hno with hno | hempty
    · rw [hfault] at hno
      cases hno
    · omega

theorem step_ends {a : AcceptorStep} (h : s.step a = some s') : StepEnds s a s' := by
  cases a with
  | openIdle fails =>
    simp only [step] at h
    split at h
    · cases h
      exact openIdle_ends fails (.inl ‹_›)
    · cases h
      exact openIdle_ends fails (.inr ‹_›)
    · cases h
  | onRead fault =>
    simp only [step] at h
    split at h
    · cases h
      exact onRead_ends ‹_›
    · cases h
  | closeIdle =>
    simp only [step] at h
    split at h
    · cases h
      exact closeIdle_ends ‹_›
    · cases h
  | acceptIdle fault =>
    simp only [step] at h
    split at h
    · cases h
      exact acceptIdle_ends ‹_›
    · cases h
  | closeAccepted =>
    simp only [step] at h
    split at h
    · cases h
      exact .discarded ‹_›
    · cases h
  | otherOpens =>
    obtain ⟨⟨fds, fd⟩, hopen, rfl⟩ := Option.map_eq_some_iff.mp h
    exact .otherOpens hopen
  | otherCloses fd =>
    simp only [step] at h
    split at h
    · cases h
      exact .otherCloses ‹_›
    · cases h
  | arrive =>
    cases h
    exact .arrive
  | reset =>
    simp only [step] at h
    split at h
    · cases h
    · cases h
      exact .reset ‹_›

/-! ## The recoveries of a run -/

/-- Allocations and foreign closes leave the reserve alone. -/
theorem HoldsIdle.openFd {fds : FdTable AcceptorFile} {file : AcceptorFile} {fd : Nat}
    (h : s.HoldsIdle) (ho : s.fds.openFd file = some (fds, fd)) (hidle : s'.idleFd = s.idleFd)
    (hfds : s'.fds = fds) : s'.HoldsIdle := by
  obtain ⟨idle, hfd, hholder⟩ := h
  refine ⟨idle, hidle.trans hfd, ?_⟩
  rw [hfds]
  exact FdTable.holder_openFd ho hholder

theorem HoldsIdle.closeFd {fd : Nat} (h : s.HoldsIdle) (hfd : s.fds.holder fd = some .other)
    (hidle : s'.idleFd = s.idleFd) (hfds : s'.fds = s.fds.closeFd fd) : s'.HoldsIdle := by
  obtain ⟨idle, hidleFd, hholder⟩ := h
  refine ⟨idle, hidle.trans hidleFd, ?_⟩
  have hne : idle ≠ fd := by
    rintro rfl
    rw [hholder] at hfd
    cases hfd
  rw [hfds, FdTable.holder_closeFd_of_ne hne, hholder]

/-- The reserve stays, unless an open of it fails. -/
theorem InReserve.step {a : AcceptorStep} (h : s.InReserve)
    (hopen : ∀ fails, a = .openIdle fails → fails = false ∧ s.HasRoom) (hs : StepEnds s a s') :
    s'.InReserve := by
  cases hs with
  | opened ho =>
    refine fun _ => ⟨_, rfl, ?_⟩
    obtain ⟨-, -, rfl⟩ := FdTable.openFd_ends ho
    exact Function.update_self ..
  | notOpened _ hno => exact absurd (hopen _ rfl) hno
  | connected hphase ho _ => exact fun _ => (h (.inl hphase)).openFd ho rfl rfl
  | exhausted hphase _ => exact fun _ => h (.inl hphase)
  | closed _ _ | nothingClosed _ _ | discarded _ | taken _ _ _ | missed _ _ =>
    exact fun hp => by rcases hp with hp | hp <;> cases hp
  | otherOpens ho => exact fun hp => (h hp).openFd ho rfl rfl
  | otherCloses hfd => exact fun hp => (h hp).closeFd hfd rfl rfl
  | returned _ | arrive | reset _ => exact h

/-- The recoveries so far have succeeded; the constructor notes nothing. -/
structure Sound (s : Acceptor) : Prop where
  survives : s.Survives
  constructing : s.phase = .constructing → s.opens = []

theorem sound_create (limit listenFd : Nat) (others : Nat → Bool) :
    (create limit listenFd others).Sound where
  survives := ⟨fun _ h => (by cases h), fun _ h => (by cases h), fun h => absurd rfl h⟩
  constructing _ := rfl

/-- The constructor runs once. -/
theorem constructing_of_step {a : AcceptorStep} (hs : StepEnds s a s') (h : s'.phase = .constructing) :
    s.phase = .constructing ∧ s'.opens = s.opens := by
  cases hs with
  | opened _ | notOpened _ _ | exhausted _ _ | closed _ _ | nothingClosed _ _ | taken _ _ _ | missed _ _
    | discarded _ => cases h
  | connected _ _ _ | returned _ | otherOpens _ | otherCloses _ | arrive | reset _ => exact ⟨h, rfl⟩

/-- A step that meets the condition. -/
theorem Survives.step {a : AcceptorStep} (h : s.Sound) (hg : s.Recovers a) (hs : StepEnds s a s') :
    s'.Survives := by
  have hreserve : (∀ fails, a = .openIdle fails → fails = false ∧ s.HasRoom) → s.opens ≠ [] →
      s'.InReserve :=
    fun hopen hne => (h.survives.holds hne).step hopen hs
  cases hs with
  | opened ho =>
    have hopens : ∀ opened ∈ s.noteOpen true, opened = true := by
      unfold noteOpen
      split
      · exact List.forall_mem_cons.mpr ⟨rfl, h.survives.opens⟩
      · exact h.survives.opens
    refine ⟨h.survives.accepts, hopens, fun _ _ => ⟨_, rfl, ?_⟩⟩
    obtain ⟨-, -, rfl⟩ := FdTable.openFd_ends ho
    exact Function.update_self ..
  | notOpened hphase hno =>
    rcases hphase with hphase | hphase
    · -- the constructor had no luck, and no recovery has been yet
      have hnone : s.noteOpen false = [] := by
        rw [noteOpen, hphase]
        exact h.constructing hphase
      refine ⟨h.survives.accepts, ?_, fun hne => absurd hnone hne⟩
      simp only [hnone]
      exact fun _ hmem => absurd hmem List.not_mem_nil
    · exact absurd (hg hphase) hno
  | connected _ _ _ | exhausted _ _ | returned _ | closed _ _ | nothingClosed _ _ | discarded _
    | otherOpens _ | otherCloses _ | arrive | reset _ =>
    exact ⟨h.survives.accepts, h.survives.opens, hreserve fun _ heq => by cases heq⟩
  | taken _ _ _ =>
    exact ⟨List.forall_mem_cons.mpr ⟨rfl, h.survives.accepts⟩, h.survives.opens,
      hreserve fun _ heq => by cases heq⟩
  | missed _ hno => exact absurd hg hno

theorem Sound.step {a : AcceptorStep} (h : s.Sound) (hg : s.Recovers a) (hs : StepEnds s a s') :
    s'.Sound where
  survives := Survives.step h hg hs
  constructing := by
    intro hphase
    obtain ⟨hbefore, hsame⟩ := constructing_of_step hs hphase
    rw [hsame]
    exact h.constructing hbefore

/-- Some recovery took no connection, or did not get its reserve. -/
def Failed (s : Acceptor) : Prop := false ∈ s.accepts ∨ false ∈ s.opens

theorem Failed.not_survives (h : s.Failed) : ¬s.Survives := by
  intro hs
  rcases h with h | h
  · exact Bool.false_ne_true (hs.accepts _ h)
  · exact Bool.false_ne_true (hs.opens _ h)

theorem Failed.step {a : AcceptorStep} (h : s.Failed) (hs : StepEnds s a s') : s'.Failed := by
  cases hs with
  | opened _ | notOpened _ _ =>
    refine h.imp_right fun hmem => ?_
    simp only [noteOpen]
    split
    · exact List.mem_cons_of_mem _ hmem
    · exact hmem
  | taken _ _ _ | missed _ _ => exact h.imp_left (List.mem_cons_of_mem _)
  | connected _ _ _ | exhausted _ _ | returned _ | closed _ _ | nothingClosed _ _ | discarded _
    | otherOpens _ | otherCloses _ | arrive | reset _ => exact h

/-- A step that does not meet the condition. -/
theorem failed_of_not_recovers {a : AcceptorStep} (hg : ¬s.Recovers a) (hs : StepEnds s a s') :
    s'.Failed := by
  cases hs with
  | opened ho =>
    refine absurd (fun _ => ⟨rfl, fun hfull => ?_⟩) hg
    rw [FdTable.openFd_eq_none.mpr hfull] at ho
    cases ho
  | notOpened hphase _ =>
    rcases hphase with hphase | hphase
    · refine absurd (fun hreopening => ?_) hg
      rw [hphase] at hreopening
      cases hreopening
    · refine .inr ?_
      rw [noteOpen, if_pos hphase]
      exact List.mem_cons_self
  | taken _ ho hb =>
    refine absurd ⟨rfl, fun hfull => ?_, hb⟩ hg
    rw [FdTable.openFd_eq_none.mpr hfull] at ho
    cases ho
  | missed _ _ => exact .inl List.mem_cons_self
  | connected _ _ _ | exhausted _ _ | returned _ | closed _ _ | nothingClosed _ _ | discarded _
    | otherOpens _ | otherCloses _ | arrive | reset _ => exact absurd trivial hg

/-- An accept that meets the condition makes the queue shorter. -/
theorem acceptIdle_shrinks {fault : Option AcceptFault} (hg : s.Recovers (.acceptIdle fault))
    (hs : s.step (.acceptIdle fault) = some s') : s'.backlog + 1 = s.backlog := by
  cases step_ends hs with
  | taken _ _ hb => exact Nat.sub_add_cancel hb
  | missed _ hno => exact absurd hg hno

/-- **Without the reserve a full table makes the recovery spin**: the connection stays in the queue,
the listening descriptor readable, and the reserve away. -/
theorem spins {limit listenFd : Nat} {others : Nat → Bool} (hphase : s.phase = .waiting)
    (hidle : s.idleFd = none) (hfull : ¬s.HasRoom) (fault fault' : Option AcceptFault) (fails : Bool) :
    (acceptors limit listenFd others).run s
        [.onRead fault, .closeIdle, .acceptIdle fault', .openIdle fails] =
      some { s with accepts := false :: s.accepts, opens := false :: s.opens } := by
  have hno : ∀ file, s.fds.openFd file = none :=
    fun file => FdTable.openFd_eq_none.mpr (not_not.mp hfull)
  obtain ⟨fds, idleFd, backlog, phase, accepts, opens⟩ := s
  simp only at hphase hidle hno
  subst hphase hidle
  simp only [System.run, acceptors, step, onRead, accept, closeIdle, acceptIdle, openIdle, noteOpen, hno,
    if_true, ite_self]

/-! ## Recoveries nobody disturbs -/

/-- The table had room for the reserve; `on_read` finds the connection it was called for; and while a
recovery is under way no other thread opens a descriptor, no connection is reset and no call fails of
itself. -/
def Undisturbed (s : Acceptor) : AcceptorStep → Prop
  | .openIdle fails => fails = false ∧ (s.phase = .constructing → s.HasRoom)
  | .onRead _ => 0 < s.backlog
  | .acceptIdle fault => fault = none
  | .otherOpens | .reset => s.phase = .constructing ∨ s.phase = .waiting
  | _ => True

/-- The room the recovery makes stays its own. -/
structure Calm (s : Acceptor) : Prop where
  sound : s.Sound
  holds : s.InReserve
  idle : ∀ fd, s.idleFd = some fd → fd < s.fds.limit
  exhausted : s.phase = .exhausted → 0 < s.backlog
  idleClosed : s.phase = .idleClosed → 0 < s.backlog ∧ s.HasRoom
  accepted : ∀ connFd, s.phase = .accepted connFd → connFd < s.fds.limit
  reopening : s.phase = .reopening → s.HasRoom

theorem Calm.recovers {a : AcceptorStep} (h : s.Calm) (hg : s.Undisturbed a)
    (hs : s.step a = some s') : s.Recovers a := by
  cases a with
  | openIdle fails => exact fun hphase => ⟨hg.1, h.reopening hphase⟩
  | acceptIdle fault =>
    simp only [step] at hs
    split at hs
    · obtain ⟨hb, hroom⟩ := h.idleClosed ‹_›
      exact ⟨hg, hroom, hb⟩
    · cases hs
  | onRead _ | closeIdle | closeAccepted | otherOpens | otherCloses _ | arrive | reset => trivial

/-- The constructor gets the reserve, too. -/
theorem Calm.opens {a : AcceptorStep} (h : s.Calm) (hg : s.Undisturbed a) (hs : s.step a = some s')
    (fails : Bool) (ha : a = .openIdle fails) : fails = false ∧ s.HasRoom := by
  subst ha
  refine ⟨hg.1, ?_⟩
  simp only [step] at hs
  split at hs
  · exact hg.2 ‹_›
  · exact h.reopening ‹_›
  · cases hs

/-- Outside of a recovery there is little to say. -/
theorem calm_of_phase (h : s.Sound) (hreserve : s.InReserve)
    (hphase : s.phase = .constructing ∨ s.phase = .waiting)
    (hidle : ∀ fd, s.idleFd = some fd → fd < s.fds.limit) : s.Calm := by
  rcases hphase with hphase | hphase <;>
    exact ⟨h, hreserve, hidle, by simp [hphase], by simp [hphase], by simp [hphase], by simp [hphase]⟩

theorem Calm.step {a : AcceptorStep} (h : s.Calm) (hg : s.Undisturbed a) (hs : s.step a = some s') :
    s'.Calm := by
  have hrecovers := h.recovers hg hs
  have hopens := h.opens hg hs
  have hsound := h.sound.step hrecovers (step_ends hs)
  have hreserve := h.holds.step hopens (step_ends hs)
  cases step_ends hs with
  | opened ho =>
    obtain ⟨hlt, -, rfl⟩ := FdTable.openFd_ends ho
    refine calm_of_phase hsound hreserve (.inr rfl) fun fd hfd => ?_
    cases hfd
    exact hlt
  | notOpened _ hno => exact absurd (hopens _ rfl) hno
  | connected hphase ho _ =>
    obtain ⟨-, -, rfl⟩ := FdTable.openFd_ends ho
    exact calm_of_phase hsound hreserve (.inr hphase) h.idle
  | exhausted _ _ => exact ⟨hsound, hreserve, h.idle, fun _ => hg, by simp, by simp, by simp⟩
  | returned _ => exact h
  | closed hphase hidle =>
    refine ⟨hsound, hreserve, by simp, by simp, fun _ => ⟨h.exhausted hphase, ?_⟩, by simp, by simp⟩
    exact FdTable.lowestFree_closeFd (h.idle _ hidle)
  | nothingClosed hphase hidle =>
    obtain ⟨fd, hfd, -⟩ := h.holds (.inr hphase)
    rw [hidle] at hfd
    cases hfd
  | taken _ ho _ =>
    obtain ⟨hlt, -, rfl⟩ := FdTable.openFd_ends ho
    refine ⟨hsound, hreserve, h.idle, by simp, by simp, fun connFd hp => ?_, by simp⟩
    cases hp
    exact hlt
  | missed _ hno => exact absurd hrecovers hno
  | discarded hphase =>
    refine ⟨hsound, hreserve, h.idle, by simp, by simp, by simp, fun _ => ?_⟩
    exact FdTable.lowestFree_closeFd (h.accepted _ hphase)
  | otherOpens ho =>
    obtain ⟨-, -, rfl⟩ := FdTable.openFd_ends ho
    exact calm_of_phase hsound hreserve hg h.idle
  | otherCloses _ =>
    exact ⟨hsound, hreserve, h.idle, h.exhausted,
      fun hp => ⟨(h.idleClosed hp).1, FdTable.lowestFree_closeFd_of_ne_none _ (h.idleClosed hp).2⟩,
      h.accepted, fun hp => FdTable.lowestFree_closeFd_of_ne_none _ (h.reopening hp)⟩
  | arrive =>
    exact ⟨hsound, hreserve, h.idle, fun _ => Nat.succ_pos _, fun hp => ⟨Nat.succ_pos _, (h.idleClosed hp).2⟩,
      h.accepted, h.reopening⟩
  | reset _ => exact calm_of_phase hsound hreserve hg h.idle

theorem calm_create (limit listenFd : Nat) (others : Nat → Bool) :
    (create limit listenFd others).Calm where
  sound := sound_create limit listenFd others
  holds hp := by rcases hp with hp | hp <;> cases hp
  idle fd hfd := by cases hfd
  exhausted hp := by cases hp
  idleClosed hp := by cases hp
  accepted connFd hp := by cases hp
  reopening hp := by cases hp

/-- **Undisturbed recoveries succeed**, one after the other. -/
theorem survives_of_undisturbed {limit listenFd : Nat} {others : Nat → Bool}
    (h : (acceptors limit listenFd others).Reaches Undisturbed s) : s.Survives :=
  (h.invariant (I := Calm) (calm_create limit listenFd others)
    fun _ _ _ hc hg hs => hc.step hg hs).sound.survives

/-- **In every run, whatever the other threads do with descriptors, each recovery has removed one
connection and regained the reserve, which is held ever since, iff the accept of each recovery met a free
number and a connection and its open a free number**; and so it is if the constructor got the reserve and
no recovery was disturbed. -/
theorem survives_iff {limit listenFd : Nat} {others : Nat → Bool} (steps : List AcceptorStep)
    (hr : (acceptors limit listenFd others).run (acceptors limit listenFd others).init steps = some s) :
    (s.Survives ↔ (acceptors limit listenFd others).Admits Recovers
      (acceptors limit listenFd others).init steps) ∧
    ((acceptors limit listenFd others).Admits Undisturbed (acceptors limit listenFd others).init steps →
      s.Survives) := by
  constructor
  · refine System.run_iff_admits (I := Sound) (B := Failed) (fun _ h => h.survives) (fun _ h => h.not_survives)
      (fun _ _ _ h hg hs => h.step hg (step_ends hs)) (fun _ _ _ _ hg hs => ?_)
      (fun _ _ _ h hs => h.step (step_ends hs)) steps (sound_create limit listenFd others) hr
    exact failed_of_not_recovers hg (step_ends hs)
  · exact fun hadmits => survives_of_undisturbed (.of_run steps hr hadmits)

/-- The process has three numbers: 0 listens, 1 is the reserve and 2 goes to another thread. -/
def smallProcess : System Acceptor AcceptorStep := acceptors 3 0 fun _ => false

/-- An exhaustion and its recovery. -/
def recovery : List AcceptorStep :=
  [.openIdle false, .otherOpens, .arrive, .onRead none, .closeIdle, .acceptIdle none, .closeAccepted,
    .openIdle false]

theorem survives_iff_recovery :
    ∃ s, smallProcess.run smallProcess.init recovery = some s ∧ s.Survives := by
  refine ⟨_, rfl, ?_⟩
  have h : smallProcess.run smallProcess.init recovery = some _ := rfl
  exact (survives_iff recovery h).1.mpr (by decide)

/-- Another thread gets the number the reserve has left. -/
def robbedRecovery : List AcceptorStep :=
  [.openIdle false, .otherOpens, .arrive, .onRead none, .closeIdle, .otherOpens, .acceptIdle none,
    .openIdle false]

theorem survives_iff_robbedRecovery :
    ¬∀ steps s, smallProcess.run smallProcess.init steps = some s → s.Survives := by
  intro h
  exact Failed.not_survives (.inr List.mem_cons_self) (h robbedRecovery _ rfl)

end

end Acceptor

end Tudou
