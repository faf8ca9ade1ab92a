import Tudou.Tcp.Shutdown

/-!
# `activeConnectionCount_`

The counter of `src/tudou/tcp/TcpServer.cpp` against the connection tables, from `Running` to the end of
`start()`.

* `ConnectionLedger` — the server with a ledger: how often a connection at an address was registered,
  added to the counter, erased from its table and subtracted.
* `countedServer` — `serverLoops`, keeping the ledger.
* `Exact` — the counter has every record once, but for the loops between their table and the counter, and
  `fetch_sub` never meets a zero.
* `counter_exact` — **the counter is exact as long as `connectionRecordsByLoop_.clear()` finds the tables
  empty**; up to there nothing is assumed.
* `not_exact_of_clear` — a record that is in a table then is never counted off.
-/

namespace Tudou

open Transition

namespace WorkerPhase

/-- The table has a record that is not counted: not yet, or not any more. -/
def uncounted : WorkerPhase → Nat
  | inserted _ | countedOff _ => 1
  | _ => 0

/-- The counter has a connection whose record is erased. -/
def overcounted : WorkerPhase → Nat
  | removed => 1
  | _ => 0

/-- The thread is not between its table and the counter. -/
def settled : WorkerPhase → Bool
  | inserted _ | countedOff _ | removed => false
  | _ => true

/-- `conn` is in the table and about to be counted. -/
def inserting (conn : Nat) : WorkerPhase → Nat
  | inserted c => if c = conn then 1 else 0
  | _ => 0

/-- `conn` is counted off and about to be erased. -/
def erasing (conn : Nat) : WorkerPhase → Nat
  | countedOff c => if c = conn then 1 else 0
  | _ => 0

/-- `conn` is erased and about to be counted off. -/
def leaving (left conn : Nat) : WorkerPhase → Nat
  | removed => if left = conn then 1 else 0
  | _ => 0

theorem of_settled {phase : WorkerPhase} (h : phase.settled = true) (left conn : Nat) :
    phase.inserting conn = 0 ∧ phase.erasing conn = 0 ∧ phase.leaving left conn = 0 := by
  cases phase with
  | inserted _ | countedOff _ | removed => cases h
  | _ => exact ⟨rfl, rfl, rfl⟩

end WorkerPhase

/-- How often `conn` is in a table. -/
def inTable (records : Finset Nat) (conn : Nat) : Nat := if conn ∈ records then 1 else 0

theorem inTable_insert {records : Finset Nat} {c : Nat} (h : c ∉ records) (conn : Nat) :
    inTable (insert c records) conn = inTable records conn + if c = conn then 1 else 0 := by
  unfold inTable
  by_cases hc : c = conn
  · subst hc
    simp [h]
  · simp [hc, Ne.symm hc]

theorem inTable_erase {records : Finset Nat} {c : Nat} (h : c ∈ records) (conn : Nat) :
    inTable (records.erase c) conn + (if c = conn then 1 else 0) = inTable records conn := by
  unfold inTable
  by_cases hc : c = conn
  · subst hc
    simp [h]
  · simp [hc, Ne.symm hc]

/-- Does this step execute `fetch_sub`? -/
def WorkerStep.subtracts : WorkerStep → Bool
  | countOff | sweep _ => true
  | _ => false

/-- The server, and what has happened to its connections. An address is that of one connection at a
time; the next one that gets it goes on in the same entries. -/
structure ConnectionLedger (L : Type*) where
  server : ServerLoops L
  /-- The connection that `remove_connection` has erased last. -/
  leaving : L → Nat
  registered : L → Nat → Nat
  added : L → Nat → Nat
  erased : L → Nat → Nat
  subtracted : L → Nat → Nat

namespace ConnectionLedger

variable {L : Type*} [DecidableEq L]

/-- One more at this entry. -/
def bump (entries : L → Nat → Nat) (loop : L) (conn : Nat) : L → Nat → Nat :=
  fun l c => entries l c + if l = loop ∧ conn = c then 1 else 0

/-- What a step enters into the ledger. -/
def enter (g : ConnectionLedger L) (l : ServerStep L) : ConnectionLedger L :=
  match l with
  | .worker loop a =>
    match a, g.server.worker loop with
    | .insert, .admitted conn => { g with registered := bump g.registered loop conn }
    | .count, .inserted conn => { g with added := bump g.added loop conn }
    | .close conn, _ =>
      if conn ∈ g.server.records loop then
        { g with erased := bump g.erased loop conn, leaving := Function.update g.leaving loop conn }
      else g
    | .countOff, _ => { g with subtracted := bump g.subtracted loop (g.leaving loop) }
    | .sweep conn, _ => { g with subtracted := bump g.subtracted loop conn }
    | .eraseSwept, .countedOff conn => { g with erased := bump g.erased loop conn }
    | _, _ => g
  | .main .clear =>
    { g with erased := fun loop conn => g.erased loop conn + inTable (g.server.records loop) conn }
  | _ => g

def started : ConnectionLedger L where
  server := ServerLoops.started
  leaving _ := 0
  registered _ _ := 0
  added _ _ := 0
  erased _ _ := 0
  subtracted _ _ := 0

variable [Fintype L] (mainLoop : L)

def step (g : ConnectionLedger L) (l : ServerStep L) : Option (ConnectionLedger L) :=
  (g.server.step mainLoop l).map fun s => { g.enter l with server := s }

end ConnectionLedger

/-- **The server with its ledger.** -/
def countedServer {L : Type*} [DecidableEq L] [Fintype L] (mainLoop : L) :
    System (ConnectionLedger L) (ServerStep L) where
  init := ConnectionLedger.started
  step := ConnectionLedger.step mainLoop

namespace ConnectionLedger

variable {L : Type*} [DecidableEq L]

/-- What the ledger says about a connection. -/
structure AtConnection (g : ConnectionLedger L) (loop : L) (conn : Nat) : Prop where
  /-- Every registered connection is added once, unless its loop is just about to. -/
  added : g.registered loop conn = g.added loop conn + (g.server.worker loop).inserting conn
  /-- Every erased connection is subtracted once: just before in the shutdown task, just after in
  `remove_connection`. -/
  subtracted : g.erased loop conn + (g.server.worker loop).erasing conn =
    g.subtracted loop conn + (g.server.worker loop).leaving (g.leaving loop) conn
  /-- What is registered and not erased is in the table. -/
  present : g.registered loop conn = g.erased loop conn + inTable (g.server.records loop) conn

/-- **The counter is exact.** -/
structure Exact [Fintype L] (g : ConnectionLedger L) : Prop where
  /-- It is the number of records, up to the loops between their table and the counter. -/
  counter : g.server.activeConnectionCount + ∑ loop, (g.server.worker loop).uncounted =
    ∑ loop, (g.server.records loop).card + ∑ loop, (g.server.worker loop).overcounted
  positive : ∀ loop a s, g.server.workerStep loop a = some s → a.subtracts = true →
    0 < g.server.activeConnectionCount
  atConnection : ∀ loop conn, g.AtConnection loop conn

end ConnectionLedger

/-! ## The counter -/

namespace ServerLoops

variable {L : Type*}

/-- A loop's contribution in terms of its table. -/
theorem contribution_add_uncounted {phase : WorkerPhase} {records : Finset Nat} (h : phase.Fits records) :
    contribution phase records + phase.uncounted = records.card + phase.overcounted := by
  cases phase with
  | inserted conn | countedOff conn =>
    have hpos : 0 < records.card := Finset.card_pos.mpr ⟨conn, h⟩
    simp only [contribution, WorkerPhase.uncounted, WorkerPhase.overcounted]
    omega
  | _ => rfl

theorem Counted.counter [Fintype L] {s : ServerLoops L} (h : s.Counted) :
    s.activeConnectionCount + ∑ loop, (s.worker loop).uncounted =
      ∑ loop, (s.records loop).card + ∑ loop, (s.worker loop).overcounted := by
  rw [h.count, ← Finset.sum_add_distrib, ← Finset.sum_add_distrib]
  exact Finset.sum_congr rfl fun loop _ => contribution_add_uncounted (h.fits loop)

variable [DecidableEq L]

theorem Counted.positive [Fintype L] {s s' : ServerLoops L} (h : s.Counted) {loop : L} {a : WorkerStep}
    (hs : s.workerStep loop a = some s') (ha : a.subtracts = true) : 0 < s.activeConnectionCount := by
  have hle := h.contribution_le loop
  cases workerStep_ends hs with
  | countOff hph =>
    rw [hph] at hle
    simp only [contribution] at hle
    omega
  | @sweep conn hph hmem =>
    have hpos : 0 < (s.records loop).card := Finset.card_pos.mpr ⟨conn, hmem⟩
    rw [hph] at hle
    simp only [contribution] at hle
    omega
  | _ => cases ha

/-- `connectionRecordsByLoop_.clear()` finds the tables empty. -/
def ClearsEmpty (s : ServerLoops L) (l : ServerStep L) : Prop :=
  l = .main .clear → ∀ loop, s.records loop = ∅

instance [Fintype L] (s : ServerLoops L) (l : ServerStep L) : Decidable (s.ClearsEmpty l) :=
  inferInstanceAs (Decidable (_ → _))

/-- **Step lemma** for the counter. -/
theorem Counted.step [Fintype L] {mainLoop : L} {s s' : ServerLoops L} {l : ServerStep L} (h : s.Counted)
    (hg : s.ClearsEmpty l) (hs : s.step mainLoop l = some s') : s'.Counted := by
  cases l with
  | main a =>
    simp only [ServerLoops.step] at hs
    split at hs
    · rename_i hidle
      cases mainStep_ends hs with
      | accept _ => exact h.runInLoop hidle _ _
      | @post loop loops _ =>
        have hposted := h.runInLoop hidle loop .shutdown
        exact ⟨hposted.count, hposted.fits⟩
      | clear _ =>
        have hempty : (fun _ => ∅) = s.records := funext fun loop => (hg rfl loop).symm
        refine ⟨?_, fun loop => ?_⟩
        · show s.activeConnectionCount = ∑ loop, contribution (s.worker loop) ((fun _ => ∅) loop)
          rw [hempty]
          exact h.count
        · show (s.worker loop).Fits ((fun _ => ∅) loop)
          rw [hempty]
          exact h.fits loop
      | refused => exact h
      | _ => exact ⟨h.count, h.fits⟩
    · cases hs
  | stop =>
    simp only [ServerLoops.step] at hs
    split at hs
    · cases hs
      exact ⟨h.count, h.fits⟩
    · cases hs
      exact h
  | quit =>
    simp only [ServerLoops.step] at hs
    split at hs
    · cases hs
      exact ⟨h.count, h.fits⟩
    · cases hs
  | worker loop a =>
    simp only [ServerLoops.step] at hs
    split at hs
    · cases hs
    · exact h.workerStep (workerStep_ends hs)

end ServerLoops

/-! ## The ledger -/

namespace ConnectionLedger

variable {L : Type*} [DecidableEq L]

theorem bump_self (entries : L → Nat → Nat) (loop : L) (c conn : Nat) :
    bump entries loop c loop conn = entries loop conn + if c = conn then 1 else 0 := by
  simp [bump]

theorem bump_of_ne (entries : L → Nat → Nat) {loop l : L} (hl : l ≠ loop) (c conn : Nat) :
    bump entries loop c l conn = entries l conn := by
  simp [bump, hl]

omit [DecidableEq L] in
/-- A step between two phases that hold no connection. -/
theorem AtConnection.settled {g : ConnectionLedger L} {s : ServerLoops L} {loop : L} {conn : Nat}
    (h : g.AtConnection loop conn) (hbefore : (g.server.worker loop).settled = true)
    (hafter : (s.worker loop).settled = true) (hrecords : s.records loop = g.server.records loop) :
    AtConnection { g with server := s } loop conn := by
  obtain ⟨hinserting, herasing, hleaving⟩ := WorkerPhase.of_settled hbefore (g.leaving loop) conn
  obtain ⟨hinserting', herasing', hleaving'⟩ := WorkerPhase.of_settled hafter (g.leaving loop) conn
  refine ⟨?_, ?_, ?_⟩
  · have hadded := h.added
    rw [hinserting] at hadded
    rw [hinserting']
    exact hadded
  · have hsubtracted := h.subtracted
    rw [herasing, hleaving] at hsubtracted
    rw [herasing', hleaving']
    exact hsubtracted
  · rw [hrecords]
    exact h.present

/-- **Step lemma** for the thread of the connection's loop. -/
theorem AtConnection.workerStep {g : ConnectionLedger L} {loop : L} {a : WorkerStep} {s : ServerLoops L}
    {conn : Nat} (h : g.AtConnection loop conn)
    (hfits : (g.server.worker loop).Fits (g.server.records loop))
    (hs : ServerLoops.WorkerEnds g.server loop a s) :
    AtConnection { g.enter (.worker loop a) with server := s } loop conn := by
  have hentries := h
  obtain ⟨hadded, hsubtracted, hpresent⟩ := h
  cases hs with
  | @insert c hph =>
    rw [hph] at hfits hadded hsubtracted
    have htable := inTable_insert (show c ∉ g.server.records loop from hfits) conn
    simp only [WorkerPhase.inserting, WorkerPhase.erasing, WorkerPhase.leaving] at hadded hsubtracted
    constructor <;>
      simp only [enter, hph, bump_self, ServerLoops.setWorker, ServerLoops.setRecords,
        Function.update_self, WorkerPhase.inserting, WorkerPhase.erasing, WorkerPhase.leaving] <;>
      omega
  | @count c hph =>
    rw [hph] at hadded hsubtracted
    simp only [WorkerPhase.inserting, WorkerPhase.erasing, WorkerPhase.leaving] at hadded hsubtracted
    constructor <;>
      simp only [enter, hph, bump_self, ServerLoops.setWorker, Function.update_self,
        WorkerPhase.inserting, WorkerPhase.erasing, WorkerPhase.leaving] <;>
      omega
  | @close c hph hmem =>
    rw [hph] at hadded hsubtracted
    have htable := inTable_erase hmem conn
    simp only [WorkerPhase.inserting, WorkerPhase.erasing, WorkerPhase.leaving] at hadded hsubtracted
    constructor <;>
      simp only [enter, if_pos hmem, bump_self, ServerLoops.setWorker, ServerLoops.setRecords,
        Function.update_self, WorkerPhase.inserting, WorkerPhase.erasing, WorkerPhase.leaving] <;>
      omega
  | countOff hph =>
    rw [hph] at hadded hsubtracted
    simp only [WorkerPhase.inserting, WorkerPhase.erasing, WorkerPhase.leaving] at hadded hsubtracted
    constructor <;>
      simp only [enter, bump_self, ServerLoops.setWorker, Function.update_self,
        WorkerPhase.inserting, WorkerPhase.erasing, WorkerPhase.leaving] <;>
      omega
  | @sweep c hph hmem =>
    rw [hph] at hadded hsubtracted
    simp only [WorkerPhase.inserting, WorkerPhase.erasing, WorkerPhase.leaving] at hadded hsubtracted
    constructor <;>
      simp only [enter, bump_self, ServerLoops.setWorker, Function.update_self,
        WorkerPhase.inserting, WorkerPhase.erasing, WorkerPhase.leaving] <;>
      omega
  | @eraseSwept c hph =>
    rw [hph] at hfits hadded hsubtracted
    have htable := inTable_erase (show c ∈ g.server.records loop from hfits) conn
    simp only [WorkerPhase.inserting, WorkerPhase.erasing, WorkerPhase.leaving] at hadded hsubtracted
    constructor <;>
      simp only [enter, hph, bump_self, ServerLoops.setWorker, ServerLoops.setRecords,
        Function.update_self, WorkerPhase.inserting, WorkerPhase.erasing, WorkerPhase.leaving] <;>
      omega
  | unknown hunknown =>
    simp only [enter, if_neg hunknown]
    exact hentries
  | @take task tasks hph _ =>
    refine hentries.settled (by rw [hph]; rfl) ?_ rfl
    simp only [ServerLoops.setWorker, Function.update_self]
    cases task <;> rfl
  | made hph _ | refused hph | admitted hph _ | dropped hph | lock hph _ | unlock hph _ | exit hph =>
    refine hentries.settled (by rw [hph]; rfl) ?_ rfl
    simp only [ServerLoops.setWorker, Function.update_self]
    rfl

omit [DecidableEq L] in
/-- A step of another thread. -/
theorem AtConnection.other {g g' : ConnectionLedger L} {loop : L} {conn : Nat} (h : g.AtConnection loop conn)
    (hentries : g'.registered loop conn = g.registered loop conn ∧
      g'.added loop conn = g.added loop conn ∧ g'.erased loop conn = g.erased loop conn ∧
      g'.subtracted loop conn = g.subtracted loop conn ∧ g'.leaving loop = g.leaving loop)
    (hworker : g'.server.worker loop = g.server.worker loop)
    (hrecords : g'.server.records loop = g.server.records loop) : g'.AtConnection loop conn := by
  obtain ⟨hregistered, hadded, herased, hsubtracted, hleaving⟩ := hentries
  refine ⟨?_, ?_, ?_⟩
  · rw [hregistered, hadded, hworker]
    exact h.added
  · rw [herased, hsubtracted, hworker, hleaving]
    exact h.subtracted
  · rw [hregistered, herased, hrecords]
    exact h.present

/-- The entries of the other loops. -/
theorem enter_other (g : ConnectionLedger L) {loop l : L} (hl : l ≠ loop) (a : WorkerStep) (conn : Nat) :
    (g.enter (.worker loop a)).registered l conn = g.registered l conn ∧
      (g.enter (.worker loop a)).added l conn = g.added l conn ∧
      (g.enter (.worker loop a)).erased l conn = g.erased l conn ∧
      (g.enter (.worker loop a)).subtracted l conn = g.subtracted l conn ∧
      (g.enter (.worker loop a)).leaving l = g.leaving l := by
  unfold enter
  simp only
  split
  · exact ⟨bump_of_ne _ hl _ _, rfl, rfl, rfl, rfl⟩
  · exact ⟨rfl, bump_of_ne _ hl _ _, rfl, rfl, rfl⟩
  · split
    · exact ⟨rfl, rfl, bump_of_ne _ hl _ _, rfl, Function.update_of_ne hl _ _⟩
    · exact ⟨rfl, rfl, rfl, rfl, rfl⟩
  · exact ⟨rfl, rfl, rfl, bump_of_ne _ hl _ _, rfl⟩
  · exact ⟨rfl, rfl, rfl, bump_of_ne _ hl _ _, rfl⟩
  · exact ⟨rfl, rfl, bump_of_ne _ hl _ _, rfl, rfl⟩
  · exact ⟨rfl, rfl, rfl, rfl, rfl⟩

/-- The main thread hands a functor to a loop. -/
theorem AtConnection.runInLoop {mainLoop : L} {g : ConnectionLedger L} {loop : L} {conn : Nat}
    (h : g.AtConnection loop conn) (hidle : g.server.worker mainLoop = .idle) (l : L) (task : LoopTask) :
    AtConnection { g with server := g.server.runInLoop mainLoop l task } loop conn := by
  unfold ServerLoops.runInLoop
  split
  · rename_i hmain
    by_cases hl : loop = l
    · subst hl hmain
      refine h.settled (by rw [hidle]; rfl) ?_ rfl
      simp only [ServerLoops.setWorker, Function.update_self]
      cases task <;> rfl
    · exact h.other ⟨rfl, rfl, rfl, rfl, rfl⟩ (Function.update_of_ne hl _ _) rfl
  · exact h.other ⟨rfl, rfl, rfl, rfl, rfl⟩ rfl rfl

/-- **Step lemma** for the main thread. -/
theorem AtConnection.mainStep {mainLoop : L} {g : ConnectionLedger L} {a : MainStep L} {s : ServerLoops L}
    {loop : L} {conn : Nat} (h : g.AtConnection loop conn) (hg : g.server.ClearsEmpty (.main a))
    (hidle : g.server.worker mainLoop = .idle) (hs : ServerLoops.MainEnds mainLoop g.server a s) :
    AtConnection { g.enter (.main a) with server := s } loop conn := by
  cases hs with
  | accept _ => exact h.runInLoop hidle _ _
  | @post l loops _ =>
    have hposted := h.runInLoop hidle l .shutdown
    exact hposted.other ⟨rfl, rfl, rfl, rfl, rfl⟩ rfl rfl
  | clear _ =>
    have hempty : inTable (g.server.records loop) conn = 0 := by
      rw [hg rfl loop]
      rfl
    refine ⟨h.added, ?_, ?_⟩
    · simp only [enter, hempty]
      exact h.subtracted
    · have hpresent := h.present
      simp only [enter, hempty] at hpresent ⊢
      exact hpresent
  | refused => exact h
  | _ => exact h.other ⟨rfl, rfl, rfl, rfl, rfl⟩ rfl rfl

variable [Fintype L]

/-- The invariant. -/
structure Balanced (g : ConnectionLedger L) : Prop where
  counted : g.server.Counted
  atConnection : ∀ loop conn, g.AtConnection loop conn

theorem Balanced.exact {g : ConnectionLedger L} (h : g.Balanced) : g.Exact where
  counter := h.counted.counter
  positive _ _ _ hs ha := h.counted.positive hs ha
  atConnection := h.atConnection

/-- **Step lemma.** -/
theorem Balanced.step {mainLoop : L} {g g' : ConnectionLedger L} {l : ServerStep L} (h : g.Balanced)
    (hg : g.server.ClearsEmpty l) (hs : g.step mainLoop l = some g') : g'.Balanced := by
  unfold ConnectionLedger.step at hs
  obtain ⟨s, hserver, rfl⟩ := Option.map_eq_some_iff.mp hs
  refine ⟨h.counted.step hg hserver, fun loop conn => ?_⟩
  have hat := h.atConnection loop conn
  cases l with
  | worker l a =>
    simp only [ServerLoops.step] at hserver
    split at hserver
    · cases hserver
    · have hends := ServerLoops.workerStep_ends hserver
      by_cases hl : loop = l
      · subst hl
        exact hat.workerStep (h.counted.fits loop) hends
      · obtain ⟨-, -, hother⟩ := hends.frame
        exact hat.other (g.enter_other hl a conn) (hother loop hl).1 (hother loop hl).2
  | main a =>
    simp only [ServerLoops.step] at hserver
    split at hserver
    · exact hat.mainStep hg ‹_› (ServerLoops.mainStep_ends hserver)
    · cases hserver
  | stop =>
    simp only [ServerLoops.step] at hserver
    split at hserver
    · cases hserver
      exact hat.other ⟨rfl, rfl, rfl, rfl, rfl⟩ rfl rfl
    · cases hserver
      exact hat
  | quit =>
    simp only [ServerLoops.step] at hserver
    split at hserver
    · cases hserver
      exact hat.other ⟨rfl, rfl, rfl, rfl, rfl⟩ rfl rfl
    · cases hserver

/-- **The counter is exact**: in every run in which `connectionRecordsByLoop_.clear()` finds the tables
empty, it is the number of records, up to the loops between their table and the counter; no `fetch_sub`
underflows; and every connection is added and subtracted once. -/
theorem counter_exact {mainLoop : L} {g : ConnectionLedger L}
    (h : (countedServer mainLoop).Reaches (fun g l => g.server.ClearsEmpty l) g) : g.Exact := by
  have hinit : (countedServer mainLoop).init.Balanced :=
    ⟨ServerLoops.Accounted.started.counted, fun _ _ => ⟨rfl, rfl, rfl⟩⟩
  have hinv : g.Balanced := h.invariant hinit fun g l g' hI hg hs => hI.step hg hs
  exact hinv.exact

/-- One connection is closed by its peer, one by the shutdown task, and its close comes after that. -/
def closeAndSweep : List (ServerStep Bool) :=
  [.main (.accept true), .worker true .take, .worker true (.check 7), .worker true .recheck,
    .worker true .insert, .worker true .count, .main (.accept true), .worker true .take,
    .worker true (.check 8), .worker true .recheck, .worker true .insert, .worker true .count,
    .worker true (.close 7), .worker true .countOff, .stop, .quit, .main .mainLoopReturns,
    .main (.drain [false, true]), .main .post, .worker false .lock, .worker false .unlock, .main .post,
    .worker true .take, .worker true .lock, .worker true (.sweep 8), .worker true .eraseSwept,
    .worker true .unlock, .worker true (.close 8), .main .waitReturns, .main (.resetAcceptor [true]),
    .main .quitLoop, .worker true .exit, .main .join, .main .clear, .main .finish]

theorem counter_exact_closeAndSweep :
    ∃ g ∈ (countedServer false).run (countedServer false).init closeAndSweep,
      (g.server.main = .stopped ∧ g.subtracted true 7 = 1 ∧ g.subtracted true 8 = 1) ∧ g.Exact := by
  have hg : (countedServer false).Admits (fun g l => g.server.ClearsEmpty l)
      (countedServer false).init closeAndSweep := by
    decide
  obtain ⟨g, hrun, hends⟩ :
      ∃ g ∈ (countedServer false).run (countedServer false).init closeAndSweep,
        g.server.main = .stopped ∧ g.subtracted true 7 = 1 ∧ g.subtracted true 8 = 1 := by
    decide
  exact ⟨g, hrun, hends, counter_exact (.of_run _ hrun hg)⟩

/-- **The condition is what it takes**: a connection whose record goes with `clear()` is never counted
off. -/
theorem not_exact_of_clear {mainLoop : L} {g g' : ConnectionLedger L} (h : g.Balanced)
    (hs : g.step mainLoop (.main .clear) = some g') {loop : L} {conn : Nat}
    (hleft : conn ∈ g.server.records loop) : ¬g'.Exact := by
  intro hexact
  unfold ConnectionLedger.step at hs
  obtain ⟨s, hserver, rfl⟩ := Option.map_eq_some_iff.mp hs
  have hworker : s.worker = g.server.worker := by
    simp only [ServerLoops.step] at hserver
    split at hserver
    · cases ServerLoops.mainStep_ends hserver with
      | clear _ => rfl
    · cases hserver
  have hbefore := (h.atConnection loop conn).subtracted
  have hafter := (hexact.atConnection loop conn).subtracted
  have htable : inTable (g.server.records loop) conn = 1 := if_pos hleft
  simp only [enter, hworker, htable] at hafter
  omega

/-- **A connection can stay counted**: it is registered after the wait of `shutdown_connections`, its loop
quits before the shutdown task, and `clear()` destroys its record. -/
theorem counted_after_clear :
    ¬∀ g : ConnectionLedger (Fin 2), (countedServer 0).Reachable g → g.Exact := by
  intro h
  obtain ⟨g, hrun, hworker, herased, hsubtracted⟩ :
      ∃ g ∈ (countedServer (0 : Fin 2)).run (countedServer (0 : Fin 2)).init
          [.main (.accept 1), .worker 1 .take, .worker 1 (.check 7), .worker 1 .recheck, .stop, .quit,
            .main .mainLoopReturns, .main (.drain [0, 1]), .main .post, .worker 0 .lock,
            .worker 0 .unlock, .main .post, .main .waitReturns, .main (.resetAcceptor [1]),
            .main .quitLoop, .worker 1 .insert, .worker 1 .count, .worker 1 .exit, .main .join,
            .main .clear],
        g.server.worker 1 = .exited ∧ g.erased 1 7 = 1 ∧ g.subtracted 1 7 = 0 := by
    decide
  have hexact := ((h g (.of_run _ hrun)).atConnection 1 7).subtracted
  rw [hworker, herased, hsubtracted] at hexact
  simp only [WorkerPhase.erasing, WorkerPhase.leaving] at hexact
  omega

end ConnectionLedger

end Tudou
