import Mathlib.Data.List.Nodup
import Tudou.Foundation.RoundRobin
import Tudou.Foundation.Run

/-!
# `EventLoopThreadPool`: one loop for each connection

Model of `src/tudou/reactor/EventLoopThreadPool.cpp`, as `TcpServer` uses it: `start()` on the main
thread, and `get_next_loop()` for every connection accepted.  An `EventLoopThread` is its loop and the core
its thread is bound to; its constructor returns when the loop is there and its callback has run.

* `EventLoopThreadPool` — the pool; `loopPool` — its calls, with the loops handed out so far.
* `connections_balanced` — **every connection gets a loop of the pool, and the loops get equally many, up to
  one; each of these loops was initialised, once**.
* `cores_balanced` — **the cores have equally many threads, up to one**.
* `negative_pool_uninitialised` — with a negative number of threads the main loop serves connections, but is
  not initialised.
-/

namespace Tudou

open Transition RoundRobin

inductive PoolLoop where
  | main
  | io (index : Nat)
  deriving DecidableEq, Repr

/-- An `EventLoopThread`. -/
structure IoLoopThread where
  loop : PoolLoop
  /-- `-1` where the thread is not bound. -/
  cpuCore : Int
  deriving DecidableEq, Repr

structure EventLoopThreadPool where
  mainLoop : Option PoolLoop
  ioLoopThreads : List IoLoopThread
  ioLoopsIndex : Nat
  numThreads : Int
  started : Bool
  /-- `initCallback_` is set. -/
  initCallback : Bool
  pinCpu : Bool
  /-- The loops `initCallback_` was called with. -/
  initialised : List PoolLoop
  /-- The core the main thread is bound to. -/
  mainCore : Option Nat
  deriving DecidableEq, Repr

namespace EventLoopThreadPool

def create (numThreads : Int) (initCallback pinCpu : Bool) : EventLoopThreadPool where
  mainLoop := none
  ioLoopThreads := []
  ioLoopsIndex := 0
  numThreads := numThreads
  started := false
  initCallback := initCallback
  pinCpu := pinCpu
  initialised := []
  mainCore := none

def createMainLoop (p : EventLoopThreadPool) : EventLoopThreadPool :=
  { p with
    mainLoop := some .main
    mainCore := if p.pinCpu then some 0 else p.mainCore
    initialised := if p.numThreads = 0 ∧ p.initCallback then p.initialised ++ [.main] else p.initialised }

/-- The core of the `index`-th thread. -/
def cpuCore (p : EventLoopThreadPool) (numCores index : Nat) : Int :=
  if p.pinCpu ∧ 0 < numCores then ((index + 1) % numCores : Nat) else -1

/-- The loop of `create_io_threads`, at `index`, with `left` threads to go. -/
def createIoThreads (numCores : Nat) : Nat → Nat → EventLoopThreadPool → EventLoopThreadPool
  | 0, _, p => p
  | left + 1, index, p =>
    createIoThreads numCores left (index + 1)
      { p with
        ioLoopThreads := p.ioLoopThreads ++ [⟨.io index, p.cpuCore numCores index⟩]
        initialised := if p.initCallback then p.initialised ++ [.io index] else p.initialised }

/-- `start()`; `numCores` is what `hardware_concurrency()` returns. -/
def start (p : EventLoopThreadPool) (numCores : Nat) : EventLoopThreadPool :=
  if p.started then p
  else
    { createIoThreads numCores p.numThreads.toNat 0 p.createMainLoop with started := true }

/-- `get_next_loop()`, or `none` where it would look past the end of `ioLoopThreads_`. -/
def getNextLoop (p : EventLoopThreadPool) : Option (PoolLoop × EventLoopThreadPool) :=
  match p.mainLoop with
  | none => none
  | some mainLoop =>
    if p.ioLoopThreads = [] then some (mainLoop, p)
    else
      match p.ioLoopThreads[p.ioLoopsIndex]? with
      | none => none
      | some thread =>
        some (thread.loop, { p with ioLoopsIndex := (p.ioLoopsIndex + 1) % p.ioLoopThreads.length })

def getAllLoops (p : EventLoopThreadPool) : List PoolLoop :=
  p.mainLoop.toList ++ p.ioLoopThreads.map (·.loop)

end EventLoopThreadPool

/-- The pool, and the loops it has handed out. -/
structure LoopPool where
  pool : EventLoopThreadPool
  handed : List PoolLoop
  deriving DecidableEq, Repr

inductive LoopPoolLabel where
  | start (numCores : Nat)
  /-- A connection is accepted. -/
  | getNextLoop
  deriving DecidableEq

namespace LoopPool

def step (s : LoopPool) : LoopPoolLabel → Option LoopPool
  | .start numCores => some { s with pool := s.pool.start numCores }
  | .getNextLoop =>
    if s.pool.started then s.pool.getNextLoop.map fun next => ⟨next.2, s.handed ++ [next.1]⟩ else none

end LoopPool

/-- **The calls of a pool**, from its construction on. -/
def loopPool (numThreads : Int) (initCallback pinCpu : Bool) : System LoopPool LoopPoolLabel where
  init := ⟨.create numThreads initCallback pinCpu, []⟩
  step := LoopPool.step

namespace EventLoopThreadPool

/-! ## What `start` makes -/

/-- The pool `start` makes. -/
structure Started (p : EventLoopThreadPool) (numThreads : Int) (initCallback pinCpu : Bool)
    (numCores : Nat) : Prop where
  mainLoop : p.mainLoop = some .main
  threads : p.ioLoopThreads = (List.range numThreads.toNat).map fun index =>
    ⟨.io index, if pinCpu ∧ 0 < numCores then ((index + 1) % numCores : Nat) else -1⟩
  mainCore : p.mainCore = if pinCpu then some 0 else none
  initialised : p.initialised = if initCallback then
    (if numThreads = 0 then [.main] else (List.range numThreads.toNat).map .io) else []
  started : p.started = true

theorem createIoThreads_eq (numCores : Nat) (left index : Nat) (p : EventLoopThreadPool) :
    createIoThreads numCores left index p = { p with
      ioLoopThreads := p.ioLoopThreads ++
        (List.range' index left).map fun index => ⟨.io index, p.cpuCore numCores index⟩
      initialised := if p.initCallback then p.initialised ++ (List.range' index left).map .io
        else p.initialised } := by
  induction left generalizing index p with
  | zero => cases p; simp [createIoThreads]
  | succ left ih =>
    rw [createIoThreads, ih]
    cases p.initCallback <;> simp [cpuCore, List.range'_succ]

theorem started_start (numThreads : Int) (initCallback pinCpu : Bool) (numCores : Nat) :
    ((create numThreads initCallback pinCpu).start numCores).Started numThreads initCallback pinCpu
      numCores := by
  have hstart : (create numThreads initCallback pinCpu).start numCores =
      { createIoThreads numCores numThreads.toNat 0 (create numThreads initCallback pinCpu).createMainLoop
        with started := true } := rfl
  rw [hstart, createIoThreads_eq, ← List.range_eq_range']
  refine ⟨rfl, rfl, rfl, ?_, rfl⟩
  simp only [create, createMainLoop, List.nil_append]
  cases initCallback with
  | false => simp
  | true =>
    by_cases hzero : numThreads = 0
    · simp [hzero]
    · simp [hzero]

theorem ioLoopsIndex_start (numThreads : Int) (initCallback pinCpu : Bool) (numCores : Nat) :
    ((create numThreads initCallback pinCpu).start numCores).ioLoopsIndex = 0 := by
  have hstart : (create numThreads initCallback pinCpu).start numCores =
      { createIoThreads numCores numThreads.toNat 0 (create numThreads initCallback pinCpu).createMainLoop
        with started := true } := rfl
  rw [hstart, createIoThreads_eq]
  rfl

/-! ## Handing out loops -/

section

variable {numThreads : Int} {initCallback pinCpu : Bool} {numCores : Nat} {p p' : EventLoopThreadPool}

/-- A call of `get_next_loop()` changes nothing but the index. -/
theorem Started.getNextLoop (h : p.Started numThreads initCallback pinCpu numCores) {l : PoolLoop}
    (hs : p.getNextLoop = some (l, p')) : p'.Started numThreads initCallback pinCpu numCores := by
  unfold EventLoopThreadPool.getNextLoop at hs
  rw [h.mainLoop] at hs
  simp only at hs
  split at hs
  · cases hs
    exact h
  · split at hs
    · cases hs
    · cases hs
      exact ⟨rfl, h.threads, h.mainCore, h.initialised, h.started⟩

theorem Started.length_ioLoopThreads (h : p.Started numThreads initCallback pinCpu numCores) :
    p.ioLoopThreads.length = numThreads.toNat := by
  rw [h.threads, List.length_map, List.length_range]

/-- Without threads it is the main loop. -/
theorem Started.getNextLoop_main (h : p.Started numThreads initCallback pinCpu numCores)
    (hnone : numThreads.toNat = 0) : p.getNextLoop = some (.main, p) := by
  have hempty : p.ioLoopThreads = [] := List.length_eq_zero_iff.mp (h.length_ioLoopThreads.trans hnone)
  unfold EventLoopThreadPool.getNextLoop
  rw [h.mainLoop]
  exact if_pos hempty

/-- With threads it is the one at the index. -/
theorem Started.getNextLoop_io (h : p.Started numThreads initCallback pinCpu numCores)
    (hlt : p.ioLoopsIndex < numThreads.toNat) : p.getNextLoop =
      some (.io p.ioLoopsIndex, { p with ioLoopsIndex := (p.ioLoopsIndex + 1) % numThreads.toNat }) := by
  have hne : p.ioLoopThreads ≠ [] := by
    intro hnil
    have hlen := h.length_ioLoopThreads
    rw [hnil, List.length_nil] at hlen
    omega
  have hthread : p.ioLoopThreads[p.ioLoopsIndex]? = some ⟨.io p.ioLoopsIndex,
      if pinCpu ∧ 0 < numCores then ((p.ioLoopsIndex + 1) % numCores : Nat) else -1⟩ := by
    rw [h.threads, List.getElem?_map, List.getElem?_range hlt]
    rfl
  unfold EventLoopThreadPool.getNextLoop
  rw [h.mainLoop, h.length_ioLoopThreads]
  simp only [hne, if_false, hthread]

theorem Started.mem_getAllLoops (h : p.Started numThreads initCallback pinCpu numCores) (l : PoolLoop) :
    l ∈ p.getAllLoops ↔ l = .main ∨ ∃ k < numThreads.toNat, l = .io k := by
  unfold getAllLoops
  rw [h.mainLoop, h.threads, List.map_map]
  simp [eq_comm]

end

end EventLoopThreadPool

namespace LoopPool

open EventLoopThreadPool (Started create started_start)

variable {numThreads : Int} {initCallback pinCpu : Bool} {s s' : LoopPool}

/-- What has been handed out. -/
structure Dealt (numThreads : Int) (index : Nat) (handed : List PoolLoop) : Prop where
  main : numThreads.toNat = 0 → index = 0 ∧ ∀ l ∈ handed, l = .main
  io : 0 < numThreads.toNat → ∃ dealt, handed = dealt.map .io ∧ Balanced numThreads.toNat index dealt

/-- **The invariant**: the pool is as `start` made it, and has dealt its loops in turn. -/
inductive Sound (numThreads : Int) (initCallback pinCpu : Bool) (s : LoopPool) : Prop
  | created (pool : s.pool = create numThreads initCallback pinCpu) (handed : s.handed = [])
  | started {numCores : Nat} (pool : s.pool.Started numThreads initCallback pinCpu numCores)
      (dealt : Dealt numThreads s.pool.ioLoopsIndex s.handed)

theorem Dealt.init (numThreads : Int) : Dealt numThreads 0 [] where
  main _ := ⟨rfl, fun _ h => absurd h List.not_mem_nil⟩
  io h := ⟨[], rfl, .init h⟩

/-- The next loop is handed out. -/
theorem Dealt.getNextLoop {numCores : Nat} {p p' : EventLoopThreadPool} {l : PoolLoop}
    {handed : List PoolLoop} (h : Dealt numThreads p.ioLoopsIndex handed)
    (hp : p.Started numThreads initCallback pinCpu numCores) (hs : p.getNextLoop = some (l, p')) :
    Dealt numThreads p'.ioLoopsIndex (handed ++ [l]) := by
  rcases Nat.eq_zero_or_pos numThreads.toNat with hnone | hpos
  · rw [hp.getNextLoop_main hnone] at hs
    cases hs
    refine ⟨fun _ => ⟨(h.main hnone).1, fun l hl => ?_⟩, fun hpos => by omega⟩
    rcases List.mem_append.mp hl with hl | hl
    · exact (h.main hnone).2 l hl
    · exact List.mem_singleton.mp hl
  · obtain ⟨dealt, rfl, hbalanced⟩ := h.io hpos
    rw [hp.getNextLoop_io hbalanced.index_lt] at hs
    cases hs
    refine ⟨fun hnone => by omega, fun _ => ⟨dealt ++ [p.ioLoopsIndex], ?_, hbalanced.deal⟩⟩
    rw [List.map_append, List.map_singleton]

/-- **Step lemma.** -/
theorem Sound.step (h : Sound numThreads initCallback pinCpu s) {l : LoopPoolLabel}
    (hs : s.step l = some s') : Sound numThreads initCallback pinCpu s' := by
  cases h with
  | created pool handed =>
    cases l with
    | start numCores =>
      cases hs
      have hindex : (s.pool.start numCores).ioLoopsIndex = 0 := by
        rw [pool]
        exact EventLoopThreadPool.ioLoopsIndex_start numThreads initCallback pinCpu numCores
      have hstarted : (s.pool.start numCores).Started numThreads initCallback pinCpu numCores := by
        rw [pool]
        exact started_start numThreads initCallback pinCpu numCores
      refine .started hstarted ?_
      simp only [hindex, handed]
      exact .init numThreads
    | getNextLoop =>
      simp only [LoopPool.step, pool, create, Bool.false_eq_true, if_false] at hs
      cases hs
  | started pool dealt =>
    cases l with
    | start numCores =>
      have hsame : s.pool.start numCores = s.pool := if_pos pool.started
      simp only [LoopPool.step, hsame] at hs
      cases hs
      exact .started pool dealt
    | getNextLoop =>
      simp only [LoopPool.step, pool.started, if_true] at hs
      obtain ⟨⟨l, p'⟩, hnext, rfl⟩ := Option.map_eq_some_iff.mp hs
      exact .started (pool.getNextLoop hnext) (dealt.getNextLoop pool hnext)

theorem sound_of_reachable (h : (loopPool numThreads initCallback pinCpu).Reachable s) :
    Sound numThreads initCallback pinCpu s :=
  h.invariant (I := Sound numThreads initCallback pinCpu) (.created rfl rfl) fun _ _ _ hI _ hs => hI.step hs

/-- A connection is always given a loop: the index is within the threads. -/
theorem Sound.getNextLoop_isSome (h : Sound numThreads initCallback pinCpu s)
    (hstarted : s.pool.started = true) : s.pool.getNextLoop.isSome = true := by
  cases h with
  | created pool =>
    rw [pool] at hstarted
    cases hstarted
  | started pool dealt =>
    rcases Nat.eq_zero_or_pos numThreads.toNat with hnone | hpos
    · rw [pool.getNextLoop_main hnone]
      rfl
    · obtain ⟨_, _, hbalanced⟩ := dealt.io hpos
      rw [pool.getNextLoop_io hbalanced.index_lt]
      rfl

/-- The loops that serve connections. -/
theorem Dealt.serving {index : Nat} {handed : List PoolLoop} (h : Dealt numThreads index handed)
    {l : PoolLoop} (hl : l ∈ handed) :
    numThreads.toNat = 0 ∧ l = .main ∨ ∃ k < numThreads.toNat, l = .io k := by
  rcases Nat.eq_zero_or_pos numThreads.toNat with hnone | hpos
  · exact .inl ⟨hnone, (h.main hnone).2 l hl⟩
  · obtain ⟨dealt, rfl, hbalanced⟩ := h.io hpos
    obtain ⟨k, hk, rfl⟩ := List.mem_map.mp hl
    exact .inr ⟨k, hbalanced.mem_lt k hk, rfl⟩

theorem io_injective : Function.Injective PoolLoop.io := fun _ _ h => PoolLoop.io.inj h

/-- **Connections are balanced**: in every run, each connection accepted gets a loop of the pool; the IO
loops, or the main loop where there are none, get all of them, no IO loop more than one more than another;
and `initCallback` ran once for each of them, unless the number of threads is negative. -/
theorem connections_balanced (h : (loopPool numThreads initCallback pinCpu).Reachable s)
    (hstarted : s.pool.started = true) :
    s.pool.getNextLoop.isSome = true ∧ (∀ l ∈ s.handed, l ∈ s.pool.getAllLoops) ∧
      (∀ j k : Nat, j < numThreads.toNat → k < numThreads.toNat →
        s.handed.count (.io j) ≤ s.handed.count (.io k) + 1) ∧
      (0 < numThreads → .main ∉ s.handed) ∧
      (initCallback = true → 0 ≤ numThreads → ∀ l ∈ s.handed, s.pool.initialised.count l = 1) := by
  have hsound := sound_of_reachable h
  refine ⟨hsound.getNextLoop_isSome hstarted, ?_⟩
  cases hsound with
  | created pool =>
    rw [pool] at hstarted
    cases hstarted
  | started pool dealt =>
    refine ⟨fun l hl => ?_, fun j k hj hk => ?_, fun hpos hmain => ?_, fun hinit hge l hl => ?_⟩
    · rw [pool.mem_getAllLoops]
      rcases dealt.serving hl with ⟨-, hmain⟩ | hio
      · exact .inl hmain
      · exact .inr hio
    · obtain ⟨places, hplaces, hbalanced⟩ := dealt.io (by omega)
      rw [hplaces, List.count_map_of_injective _ _ io_injective,
        List.count_map_of_injective _ _ io_injective]
      exact hbalanced.count_le hj hk
    · rcases dealt.serving hmain with ⟨hnone, -⟩ | ⟨k, -, hk⟩
      · omega
      · cases hk
    · rw [pool.initialised, if_pos hinit]
      rcases dealt.serving hl with ⟨hnone, rfl⟩ | ⟨k, hk, rfl⟩
      · rw [if_pos (by omega)]
        rfl
      · rw [if_neg (by omega), List.count_map_of_injective _ _ io_injective]
        exact List.count_eq_one_of_mem List.nodup_range (List.mem_range.mpr hk)

theorem connections_balanced_threeThreads :
    ∃ s ∈ (loopPool 3 true true).run (loopPool 3 true true).init
        [.start 2, .getNextLoop, .getNextLoop, .start 4, .getNextLoop, .getNextLoop, .getNextLoop],
      s.handed = [.io 0, .io 1, .io 2, .io 0, .io 1] ∧
        ∀ j k : Nat, j < 3 → k < 3 → s.handed.count (.io j) ≤ s.handed.count (.io k) + 1 := by
  obtain ⟨s, hrun, hstarted, hhanded⟩ :
      ∃ s ∈ (loopPool 3 true true).run (loopPool 3 true true).init
          [.start 2, .getNextLoop, .getNextLoop, .start 4, .getNextLoop, .getNextLoop, .getNextLoop],
        s.pool.started = true ∧ s.handed = [.io 0, .io 1, .io 2, .io 0, .io 1] := by
    decide
  exact ⟨s, hrun, hhanded, (connections_balanced (.of_run _ hrun) hstarted).2.2.1⟩

/-- **With a negative number of threads nothing is initialised**, and the main loop serves connections all
the same. -/
theorem negative_pool_uninitialised {n : Int} (hn : n < 0) (numCores : Nat) :
    ∃ p, ((create n true pinCpu).start numCores).getNextLoop = some (.main, p) ∧ p.initialised = [] := by
  have hstarted := started_start n true pinCpu numCores
  refine ⟨_, hstarted.getNextLoop_main (by omega), ?_⟩
  rw [hstarted.initialised, if_pos rfl, if_neg (by omega), Int.toNat_of_nonpos (by omega)]
  rfl

end LoopPool

namespace EventLoopThreadPool

/-- The cores the threads of a pool are bound to, the main thread first. -/
def cores (p : EventLoopThreadPool) : List Int :=
  p.mainCore.toList.map Int.ofNat ++ p.ioLoopThreads.map (·.cpuCore)

/-- **The threads are bound to the cores in turn**: no core has more than one more than another. -/
theorem cores_balanced (numThreads : Int) (initCallback : Bool) {numCores : Nat} (hcores : 0 < numCores) :
    ∃ places, ((create numThreads initCallback true).start numCores).cores = places.map Int.ofNat ∧
      Balanced numCores ((numThreads.toNat + 1) % numCores) places := by
  have hstarted := started_start numThreads initCallback true numCores
  refine ⟨_, ?_, .dealt_range hcores (numThreads.toNat + 1)⟩
  unfold cores
  rw [hstarted.mainCore, hstarted.threads, List.range_succ_eq_map, List.map_cons, Nat.zero_mod]
  simp [hcores, Function.comp_def]

end EventLoopThreadPool

end Tudou
