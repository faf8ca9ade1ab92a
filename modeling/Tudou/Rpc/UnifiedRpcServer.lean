import Tudou.Tcp.ServerStop

/-!
# `UnifiedRpcServer`: two servers and one `stop()`

Model of `start` and `stop` in `src/tudou/rpc/UnifiedRpcServer.cpp`: the binary server runs on
`binaryThread_`, the JSON server on the thread of `start()`, and `stop()` stops both and joins the
thread.

* `unifiedServer` — the transition system over two `TcpServer`s, among callers of `stop()`.
* `stop_not_lost` — **no stop is lost, and nobody joins a binary server that nobody will stop**, if no
  `stop()` of a server reads its state before `start()` has stored `Running`.
* `early_stop_lost` — otherwise one is lost, and the join waits for good.
-/

namespace Tudou

open Transition

/-- Where a thread is in `UnifiedRpcServer::stop()`. -/
inductive UnifiedStopPhase where
  | outside
  | stoppingBinary
  | stoppingJson
  /-- In `binaryThread_.join()`. -/
  | joining
  deriving DecidableEq, Repr

structure UnifiedServer (T : Type*) where
  binary : ServerRun T
  json : ServerRun T
  /-- `binaryThread_` has been started. -/
  threadStarted : Bool
  /-- `binaryThread_.joinable()`. -/
  joinable : Bool
  /-- `jsonServer_->start()` has been called. -/
  jsonStarted : Bool
  caller : T → UnifiedStopPhase

inductive UnifiedLabel (T : Type*) where
  | startThread
  | startJson
  | binary (l : RunLabel T)
  | json (l : RunLabel T)
  /-- A thread calls `stop()`, and with it `binaryServer_->stop()`. -/
  | stop (t : T)
  | stopJson (t : T)
  | join (t : T)
  | joined (t : T)
  deriving DecidableEq

namespace UnifiedServer

variable {T : Type*}

/-- `start()` is invoked. -/
def invoked : UnifiedServer T where
  binary := .invoked
  json := .invoked
  threadStarted := false
  joinable := false
  jsonStarted := false
  caller _ := .outside

/-- What a server does by itself: its `start()` once that has been called, and the calls of `stop()`
that are in it. -/
def runs (started : Bool) : RunLabel T → Bool
  | .start _ => started
  | .call _ => false
  | _ => true

variable [DecidableEq T]

def setCaller (u : UnifiedServer T) (t : T) (phase : UnifiedStopPhase) : UnifiedServer T :=
  { u with caller := Function.update u.caller t phase }

def step (u : UnifiedServer T) (l : UnifiedLabel T) : Option (UnifiedServer T) :=
  match l with
  | .startThread =>
    if u.threadStarted then none else some { u with threadStarted := true, joinable := true }
  | .startJson =>
    if u.threadStarted ∧ u.jsonStarted = false then some { u with jsonStarted := true } else none
  | .binary l =>
    if runs u.threadStarted l then (u.binary.step l).map fun binary => { u with binary := binary }
    else none
  | .json l =>
    if runs u.jsonStarted l then (u.json.step l).map fun json => { u with json := json } else none
  | .stop t =>
    if u.caller t = .outside then
      (u.binary.step (.call t)).map fun binary =>
        { u.setCaller t .stoppingBinary with binary := binary }
    else none
  | .stopJson t =>
    if u.caller t = .stoppingBinary ∧ u.binary.stop t = .outside then
      (u.json.step (.call t)).map fun json => { u.setCaller t .stoppingJson with json := json }
    else none
  | .join t =>
    if u.caller t = .stoppingJson ∧ u.json.stop t = .outside then
      some (u.setCaller t (if u.joinable then .joining else .outside))
    else none
  | .joined t =>
    if u.caller t = .joining ∧ u.binary.phase = .stopped then
      some { u.setCaller t .outside with joinable := false }
    else none

end UnifiedServer

/-- **The two servers among callers of `stop()`**, from the invocation of `start()` on. -/
def unifiedServer (T : Type*) [DecidableEq T] : System (UnifiedServer T) (UnifiedLabel T) where
  init := UnifiedServer.invoked
  step := UnifiedServer.step

namespace ServerRun

variable {T : Type*} [DecidableEq T]

/-- A call of `stop()` that is over has returned. -/
theorem stop_step {s s' : ServerRun T} {l : RunLabel T} (hs : s.step l = some s') {t : T}
    (h : s.stop t ≠ .outside ∨ s.returned = true) : s'.stop t ≠ .outside ∨ s'.returned = true := by
  have hset : ∀ {t' : T} {phase : StopPhase}, phase ≠ .outside →
      Function.update s.stop t' phase t ≠ .outside ∨ s.returned = true := by
    intro t' phase hphase
    rw [Function.update_apply]
    split
    · exact .inl hphase
    · exact h
  cases step_ends hs with
  | makePool _ | storeRunning _ | enterLoop _ | leaveLoop _ _ | poll _ | pollReturns _ | drain _
  | resetPool _ | finish _ => exact h
  | call _ | exchange _ _ | findLoop _ _ | quit _ => exact hset (by decide)
  | notRunning _ _ | noLoop _ _ | wakeup _ => exact .inr rfl

theorem returned_step {s s' : ServerRun T} {l : RunLabel T} (hs : s.step l = some s')
    (h : s.returned = true) : s'.returned = true := by
  cases step_ends hs with
  | makePool _ | storeRunning _ | enterLoop _ | leaveLoop _ _ | poll _ | pollReturns _ | drain _
  | resetPool _ | finish _ | call _ | exchange _ _ | findLoop _ _ | quit _ => exact h
  | notRunning _ _ | noLoop _ _ | wakeup _ => rfl

end ServerRun

namespace UnifiedServer

variable {T : Type*} [DecidableEq T]

/-- No `stop()` of a server reads its state before `start()` has stored `Running`. -/
def readsAfterRunning (u : UnifiedServer T) : UnifiedLabel T → Bool
  | .binary l => u.binary.readsAfterRunning l
  | .json l => u.json.readsAfterRunning l
  | _ => true

/-- What a thread in `stop()` has behind it. -/
def Behind (binary : ServerRun T) (t : T) : UnifiedStopPhase → Prop
  | .outside => True
  | .stoppingBinary => binary.stop t ≠ .outside ∨ binary.returned = true
  | .stoppingJson | .joining => binary.returned = true

/-- **The invariant.** -/
structure Kept (u : UnifiedServer T) : Prop where
  binary : u.binary.Kept
  json : u.json.Kept
  callers : ∀ t, Behind u.binary t (u.caller t)

omit [DecidableEq T] in
theorem Kept.invoked : (invoked : UnifiedServer T).Kept := ⟨.invoked, .invoked, fun _ => trivial⟩

/-- The binary server takes a step. -/
theorem Behind.step {binary binary' : ServerRun T} {l : RunLabel T} (hs : binary.step l = some binary')
    {t : T} {phase : UnifiedStopPhase} (h : Behind binary t phase) : Behind binary' t phase := by
  cases phase with
  | outside => trivial
  | stoppingBinary => exact ServerRun.stop_step hs h
  | stoppingJson | joining => exact ServerRun.returned_step hs h

/-- A thread moves in `stop()`. -/
theorem Kept.setCaller {u : UnifiedServer T} (h : u.Kept) {t : T} {phase : UnifiedStopPhase}
    (hphase : Behind u.binary t phase) : (u.setCaller t phase).Kept := by
  refine ⟨h.binary, h.json, fun t' => ?_⟩
  show Behind u.binary t' (Function.update u.caller t phase t')
  by_cases heq : t' = t
  · subst heq
    rw [Function.update_self]
    exact hphase
  · rw [Function.update_of_ne heq]
    exact h.callers t'

/-- **Step lemma.** -/
theorem Kept.step {u u' : UnifiedServer T} {l : UnifiedLabel T} (h : u.Kept)
    (hg : u.readsAfterRunning l = true) (hs : u.step l = some u') : u'.Kept := by
  cases l with
  | startThread =>
    simp only [UnifiedServer.step] at hs
    split at hs
    · cases hs
    · cases hs
      exact ⟨h.binary, h.json, h.callers⟩
  | startJson =>
    simp only [UnifiedServer.step] at hs
    split at hs
    · cases hs
      exact ⟨h.binary, h.json, h.callers⟩
    · cases hs
  | binary l =>
    simp only [UnifiedServer.step] at hs
    split at hs
    · obtain ⟨binary, hb, rfl⟩ := Option.map_eq_some_iff.mp hs
      exact ⟨h.binary.step hg hb, h.json, fun t => (h.callers t).step hb⟩
    · cases hs
  | json l =>
    simp only [UnifiedServer.step] at hs
    split at hs
    · obtain ⟨json, hj, rfl⟩ := Option.map_eq_some_iff.mp hs
      exact ⟨h.binary, h.json.step hg hj, h.callers⟩
    · cases hs
  | stop t =>
    simp only [UnifiedServer.step] at hs
    split at hs
    · obtain ⟨binary, hb, rfl⟩ := Option.map_eq_some_iff.mp hs
      have hcalled : binary.stop t ≠ .outside := by
        cases ServerRun.step_ends hb with
        | call _ =>
          show Function.update u.binary.stop t .called t ≠ .outside
          rw [Function.update_self]
          decide
      have hbinary : { u with binary := binary }.Kept :=
        ⟨h.binary.step rfl hb, h.json, fun t' => (h.callers t').step hb⟩
      exact hbinary.setCaller (.inl hcalled)
    · cases hs
  | stopJson t =>
    simp only [UnifiedServer.step] at hs
    split at hs
    · rename_i hready
      obtain ⟨json, hj, rfl⟩ := Option.map_eq_some_iff.mp hs
      have hcaller := h.callers t
      rw [hready.1] at hcaller
      have hreturned : u.binary.returned = true := hcaller.resolve_left fun hne => hne hready.2
      have hjson : { u with json := json }.Kept := ⟨h.binary, h.json.step rfl hj, h.callers⟩
      exact hjson.setCaller hreturned
    · cases hs
  | join t =>
    simp only [UnifiedServer.step] at hs
    split at hs
    · rename_i hready
      cases hs
      have hcaller := h.callers t
      rw [hready.1] at hcaller
      apply h.setCaller
      split
      · exact hcaller
      · trivial
    · cases hs
  | joined t =>
    simp only [UnifiedServer.step] at hs
    split at hs
    · cases hs
      have hout : (u.setCaller t .outside).Kept := h.setCaller trivial
      exact ⟨hout.binary, hout.json, hout.callers⟩
    · cases hs

theorem reaches_kept {u : UnifiedServer T}
    (h : (unifiedServer T).Reaches (fun u l => u.readsAfterRunning l = true) u) : u.Kept := by
  have hinit : (unifiedServer T).init.Kept := .invoked
  exact h.invariant hinit fun u l u' hI hg hs => hI.step hg hs

/-- **No stop is lost**: in every run of a server whose calls of `stop()` read the state after `start()`
has stored `Running`, none has returned while the server runs in its main loop with the quit flag
unset, and a server that was asked to stop will; and in every such run of the two servers a thread
that joins the binary server's waits for one that has left its main loop or will. -/
theorem stop_not_lost (T : Type*) [DecidableEq T] :
    (∀ s : ServerRun T, (serverRun T).Reaches (fun s l => s.readsAfterRunning l = true) s →
      ¬s.LostStop ∧ (s.returned = true → s.WillStop)) ∧
    ∀ u : UnifiedServer T, (unifiedServer T).Reaches (fun u l => u.readsAfterRunning l = true) u →
      ¬u.binary.LostStop ∧ ¬u.json.LostStop ∧ ∀ t, u.caller t = .joining → u.binary.WillStop := by
  constructor
  · intro s h
    have hkept := ServerRun.reaches_kept h
    exact ⟨hkept.not_lost, hkept.willStop⟩
  · intro u h
    have hkept := reaches_kept h
    refine ⟨hkept.binary.not_lost, hkept.json.not_lost, fun t ht => ?_⟩
    have hcaller := hkept.callers t
    rw [ht] at hcaller
    exact hkept.binary.willStop hcaller

/-- A stop between `Running` and the entry of the main loop. -/
def stopBeforeLoop : List (RunLabel (Fin 1)) :=
  [.start .makePool, .start .storeRunning, .call 0, .exchange 0, .findLoop 0, .quit 0, .wakeup 0,
    .start .enterLoop, .start .test]

/-- Both servers run, and a thread stops both and joins. -/
def stopBoth : List (UnifiedLabel (Fin 1)) :=
  [.startThread, .startJson, .binary (.start .makePool), .json (.start .makePool),
    .json (.start .storeRunning), .binary (.start .storeRunning), .binary (.start .enterLoop),
    .binary (.start .test), .stop 0, .binary (.exchange 0), .binary (.findLoop 0), .binary (.quit 0),
    .binary (.wakeup 0), .stopJson 0, .json (.exchange 0), .json (.findLoop 0), .json (.quit 0),
    .json (.wakeup 0), .join 0]

theorem stop_not_lost_stopBoth :
    (∃ s ∈ (serverRun (Fin 1)).run (serverRun (Fin 1)).init stopBeforeLoop,
      s.phase = .loopLeft ∧ ¬s.LostStop ∧ s.WillStop) ∧
    ∃ u ∈ (unifiedServer (Fin 1)).run (unifiedServer (Fin 1)).init stopBoth,
      u.binary.phase = .polling ∧ ¬u.binary.LostStop ∧ u.binary.WillStop := by
  obtain ⟨hserver, hunified⟩ := stop_not_lost (Fin 1)
  have hg : (serverRun (Fin 1)).Admits (fun s l => s.readsAfterRunning l = true)
      (serverRun (Fin 1)).init stopBeforeLoop := by
    decide
  have hg' : (unifiedServer (Fin 1)).Admits (fun u l => u.readsAfterRunning l = true)
      (unifiedServer (Fin 1)).init stopBoth := by
    decide
  obtain ⟨s, hs, hphase, hreturned⟩ :
      ∃ s ∈ (serverRun (Fin 1)).run (serverRun (Fin 1)).init stopBeforeLoop,
        s.phase = .loopLeft ∧ s.returned = true := by
    decide
  obtain ⟨u, hu, hpolling, hjoining⟩ :
      ∃ u ∈ (unifiedServer (Fin 1)).run (unifiedServer (Fin 1)).init stopBoth,
        u.binary.phase = .polling ∧ u.caller 0 = .joining := by
    decide
  obtain ⟨hnot, hwill⟩ := hserver s (.of_run _ hs hg)
  obtain ⟨hbinary, _, hjoin⟩ := hunified u (.of_run _ hu hg')
  exact ⟨⟨s, hs, hphase, hnot, hwill hreturned⟩, u, hu, hpolling, hbinary, hjoin 0 hjoining⟩

/-- **A stop can be lost**: `stop()` returns before `start()` has stored `Running`.  With two servers
the thread that stops them then joins one that nobody will stop. -/
theorem early_stop_lost :
    (¬∀ s : ServerRun (Fin 1), (serverRun (Fin 1)).Reachable s → ¬s.LostStop) ∧
    ¬∀ u : UnifiedServer (Fin 1), (unifiedServer (Fin 1)).Reachable u →
      ∀ t, u.caller t = .joining → u.binary.WillStop := by
  constructor
  · intro h
    obtain ⟨s, hs, hlost⟩ :
        ∃ s ∈ (serverRun (Fin 1)).run (serverRun (Fin 1)).init
            [.start .makePool, .call 0, .exchange 0, .start .storeRunning, .start .enterLoop,
              .start .test],
          s.LostStop := by
      decide
    exact h s (.of_run _ hs) hlost
  · intro h
    obtain ⟨u, hu, hjoining, hnot⟩ :
        ∃ u ∈ (unifiedServer (Fin 1)).run (unifiedServer (Fin 1)).init
            [.startThread, .startJson, .json (.start .makePool), .json (.start .storeRunning),
              .stop 0, .binary (.exchange 0), .stopJson 0, .json (.exchange 0), .json (.findLoop 0),
              .json (.quit 0), .json (.wakeup 0), .join 0, .binary (.start .makePool),
              .binary (.start .storeRunning), .binary (.start .enterLoop), .binary (.start .test)],
          u.caller 0 = .joining ∧ ¬u.binary.WillStop := by
      decide
    exact hnot (h u (.of_run _ hu) 0 hjoining)

end UnifiedServer

end Tudou
