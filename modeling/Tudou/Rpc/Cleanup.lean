import Tudou.Rpc.BinaryRpcChannel

/-!
# `BinaryRpcChannel`: a cleanup and the code it runs

`cleanup_pending_requests` holds `mapMutex_` while it goes over the pending requests, and hands each
coroutine to `run_in_loop`.  If the loop of the coroutine runs on this very thread, that is a call of
`resume()`, and the coroutine goes on in its own code there and then.  Model of the cleanup, of its call
sites in `src/tudou/rpc/binary/BinaryRpcChannel.cpp` and of the `CallMethod` such a coroutine may issue,
with the mutexes their thread holds.

* `Behavior`, `Waiter` — who waits for a request, and what a resumed coroutine does.
* `CleanupCall.run` — a call site from the cleanup to its end, while requests of other threads wait for
  `mapMutex_`.
* `run_ofChannel` — with well-behaved coroutines it is the cleanup of `BinaryRpcChannel`.
* `cleanup_safe_iff` — **a cleanup is safe exactly when the coroutines it resumes itself return and no
  request gets in before `running_` is cleared**.
* `cleanup_relocks` — one that calls again makes its thread lock `mapMutex_` twice.
-/

namespace Tudou

inductive ChannelMutex where
  | sendMutex
  | mapMutex
  deriving DecidableEq, Repr

/-- Why a thread cannot go on. -/
inductive Fault where
  /-- It locks a mutex it holds. -/
  | relocks (m : ChannelMutex)
  /-- It changes the map it iterates over. -/
  | invalidatesIterator
  deriving DecidableEq, Repr

/-- What a coroutine does when `yield()` has returned in it. -/
inductive Behavior where
  | returns
  /-- An exception leaves the coroutine, and so `resume()`. -/
  | throws
  /-- It issues another `CallMethod` on the same channel. -/
  | callsAgain
  deriving DecidableEq, Repr

/-- Who waits for a pending request. -/
inductive Waiter where
  | thread
  /-- A coroutine of the loop whose thread runs the cleanup. -/
  | sameLoop (b : Behavior)
  /-- A coroutine of another loop: its `resume()` is queued there. -/
  | otherLoop
  deriving DecidableEq, Repr

/-- An entry of `pendingRequests_`, with the number of the call its context belongs to. -/
structure PendingEntry where
  seq : UInt64
  call : Nat
  waiter : Waiter
  deriving DecidableEq, Repr

/-- What became of a `CallMethod` issued meanwhile. -/
inductive Admission where
  | refused
  | accepted (seq : UInt64)
  deriving DecidableEq, Repr

/-- The channel, and the mutexes the cleaning thread holds. -/
structure Cleaning where
  held : List ChannelMutex
  running : Bool
  nextSequenceId : UInt64
  pendingRequests : List UInt64
  /-- The `for` loop over `pendingRequests_` is in progress. -/
  iterating : Bool
  /-- The calls completed with the reason of the cleanup. -/
  completed : List Nat
  issued : List Admission
  deriving Repr

namespace Cleaning

/-- `std::lock_guard<std::mutex> lock(m)` on the cleaning thread. -/
def lock (m : ChannelMutex) (s : Cleaning) : Except Fault Cleaning :=
  if m ∈ s.held then .error (.relocks m) else .ok { s with held := m :: s.held }

def unlock (m : ChannelMutex) (s : Cleaning) : Cleaning := { s with held := s.held.erase m }

/-- `pendingRequests_[seq] = context` for a new request. -/
def register (s : Cleaning) : Cleaning :=
  { s with
    nextSequenceId := s.nextSequenceId + 1
    pendingRequests := s.pendingRequests ++ [s.nextSequenceId]
    issued := s.issued ++ [.accepted s.nextSequenceId] }

/-- `CallMethod` of a coroutine on the cleaning thread, up to `yield()`; `true` if it throws. -/
def callMethod (s : Cleaning) : Except Fault (Cleaning × Bool) :=
  match s.lock .mapMutex with
  | .error f => .error f
  | .ok s =>
    if s.running then
      if s.iterating then .error .invalidatesIterator
      else
        -- `write_request_nonblocking`
        match (s.register.unlock .mapMutex).lock .sendMutex with
        | .error f => .error f
        | .ok s => .ok (s.unlock .sendMutex, false)
    else .ok (unlock .mapMutex { s with issued := s.issued ++ [.refused] }, true)

/-- `coro->resume()`; `true` if an exception comes out of it. -/
def resume (b : Behavior) (s : Cleaning) : Except Fault (Cleaning × Bool) :=
  match b with
  | .returns => .ok (s, false)
  | .throws => .ok (s, true)
  | .callsAgain => s.callMethod

/-- The body of the `for` loop, entry by entry; `true` if an exception leaves the loop. -/
def failEach : List PendingEntry → Cleaning → Except Fault (Cleaning × Bool)
  | [], s => .ok (s, false)
  | e :: es, s =>
    let s := { s with completed := s.completed ++ [e.call] }
    match e.waiter with
    | .thread | .otherLoop => failEach es s
    | .sameLoop b =>
      match s.resume b with
      | .error f => .error f
      | .ok (s, true) => .ok (s, true)
      | .ok (s, false) => failEach es s

/-- `cleanup_pending_requests(reason)`; `true` if an exception leaves it. -/
def cleanupPendingRequests (entries : List PendingEntry) (s : Cleaning) :
    Except Fault (Cleaning × Bool) :=
  match s.lock .mapMutex with
  | .error f => .error f
  | .ok s =>
    match failEach entries { s with iterating := true } with
    | .error f => .error f
    | .ok (s, true) => .ok (unlock .mapMutex { s with iterating := false }, true)
    | .ok (s, false) =>
      .ok (unlock .mapMutex { s with iterating := false, pendingRequests := [] }, false)

/-- `CallMethod` of another thread that has got `mapMutex_`. -/
def callElsewhere (s : Cleaning) : Cleaning :=
  if s.running then s.register else { s with issued := s.issued ++ [.refused] }

end Cleaning

/-- Where `cleanup_pending_requests` is called. -/
inductive CallSite where
  | onRead
  | onWriteConnect
  /-- `on_write` after a write error, under `sendMutex_`. -/
  | onWriteError
  /-- `receive_loop` at EOF or a read error: it ends and leaves `running_` as it is. -/
  | receiveLoopEnd
  | receiveLoopBadFrame
  | destructor
  deriving DecidableEq, Repr

namespace CallSite

def holdsSendMutex : CallSite → Bool
  | onWriteError => true
  | _ => false

/-- `running_ = false` stands before the cleanup. -/
def clearsBefore : CallSite → Bool
  | destructor => true
  | _ => false

/-- `running_ = false` stands after the cleanup. -/
def clearsAfter : CallSite → Bool
  | onRead | onWriteConnect | onWriteError | receiveLoopBadFrame => true
  | receiveLoopEnd | destructor => false

end CallSite

/-- A call of the cleanup: its site, the pending requests in the order of the map, and the requests of
other threads that come to wait for `mapMutex_` meanwhile, each `early` or not. -/
structure CleanupCall where
  site : CallSite
  /-- `running_` when the call site begins: `on_write` may run after the channel was torn down. -/
  running : Bool
  nextSequenceId : UInt64
  entries : List PendingEntry
  waiting : List Bool
  /-- Contexts are not shared. -/
  nodup : (entries.map PendingEntry.call).Nodup

namespace CleanupCall

open Cleaning

/-- The state in which the call site begins. -/
def start (c : CleanupCall) : Cleaning where
  held := []
  running := c.running
  nextSequenceId := c.nextSequenceId
  pendingRequests := c.entries.map PendingEntry.seq
  iterating := false
  completed := []
  issued := []

/-- A request that gets `mapMutex_` after the cleanup finds `running_` cleared; `early` ones get it
before the next statement of the call site. -/
def refuses (c : CleanupCall) (early : Bool) : Bool :=
  !c.running || c.site.clearsBefore || (c.site.clearsAfter && !early)

/-- The requests of other threads that get `mapMutex_` early, or late. -/
def letIn (c : CleanupCall) (early : Bool) (s : Cleaning) : Cleaning :=
  (c.waiting.filter fun e => e = early).foldl (fun s _ => s.callElsewhere) s

/-- The call site up to the cleanup. -/
def enter (c : CleanupCall) : Except Fault Cleaning :=
  let s := { c.start with running := c.running && !c.site.clearsBefore }
  if c.site.holdsSendMutex then s.lock .sendMutex else .ok s

/-- The statements of the call site after the cleanup. -/
def proceed (c : CleanupCall) (s : Cleaning) : Cleaning :=
  unlock .sendMutex { s with running := s.running && !c.site.clearsAfter }

/-- The call site from the cleanup on. -/
def leave (c : CleanupCall) (s : Cleaning) : Cleaning := c.letIn false (c.proceed (c.letIn true s))

/-- The call site; `true` if an exception leaves it. -/
def run (c : CleanupCall) : Except Fault (Cleaning × Bool) :=
  match c.enter with
  | .error f => .error f
  | .ok s =>
    match s.cleanupPendingRequests c.entries with
    | .error f => .error f
    | .ok (s, true) => .ok (s.unlock .sendMutex, true)
    | .ok (s, false) => .ok (c.leave s, false)

/-- The cleanup runs to its end, completes each pending request once, and leaves no request that was
issued meanwhile pending. -/
def Safe (c : CleanupCall) : Prop :=
  ∃ s, c.run = .ok (s, false) ∧ (∀ e ∈ c.entries, s.completed.count e.call = 1) ∧
    ∀ seq, .accepted seq ∈ s.issued → seq ∉ s.pendingRequests

/-- The coroutines the cleanup resumes itself return. -/
def Returns (entries : List PendingEntry) : Prop :=
  ∀ e ∈ entries, ∀ b, e.waiter = .sameLoop b → b = .returns

end CleanupCall

/-! ## The loop -/

namespace Cleaning

open CleanupCall

theorem failEach_of_returns (entries : List PendingEntry) {s : Cleaning} (h : Returns entries) :
    failEach entries s = .ok ({ s with completed := s.completed ++ entries.map PendingEntry.call }, false) := by
  induction entries generalizing s with
  | nil => simp [failEach]
  | cons e es ih =>
    have hes : Returns es := by
      intro e' he'
      exact h e' (List.mem_cons_of_mem _ he')
    cases hw : e.waiter with
    | thread | otherLoop => simp [failEach, hw, ih hes]
    | sameLoop b =>
      have hb := h e List.mem_cons_self b hw
      subst hb
      simp [failEach, hw, resume, ih hes]

/-- A call on the cleaning thread needs the mutex the cleanup holds. -/
theorem callMethod_of_held {s : Cleaning} (h : .mapMutex ∈ s.held) :
    s.callMethod = .error (.relocks .mapMutex) := by
  simp [callMethod, lock, h]

/-- **A coroutine that does not return ends the loop**, by a fault or an exception. -/
theorem failEach_of_not_returns (entries : List PendingEntry) {s : Cleaning} (hheld : .mapMutex ∈ s.held)
    (h : ¬ Returns entries) (s' : Cleaning) : failEach entries s ≠ .ok (s', false) := by
  induction entries generalizing s with
  | nil =>
    refine absurd ?_ h
    intro e he
    cases he
  | cons e es ih =>
    have hrest : (∀ b, e.waiter = .sameLoop b → b = .returns) → ¬ Returns es := by
      intro he hes
      apply h
      intro e' he'
      rcases List.mem_cons.mp he' with rfl | he'
      · exact he
      · exact hes e' he'
    cases hw : e.waiter with
    | thread | otherLoop =>
      simp only [failEach, hw]
      refine ih (s := { s with completed := s.completed ++ [e.call] }) hheld (hrest ?_)
      intro b hb
      rw [hw] at hb
      cases hb
    | sameLoop b =>
      cases b with
      | returns =>
        simp only [failEach, hw, resume]
        refine ih (s := { s with completed := s.completed ++ [e.call] }) hheld (hrest ?_)
        intro b hb
        rw [hw] at hb
        cases hb
        rfl
      | throws => simp [failEach, hw, resume]
      | callsAgain =>
        have hfault := callMethod_of_held (s := { s with completed := s.completed ++ [e.call] }) hheld
        simp [failEach, hw, resume, hfault]

/-! ## Requests of other threads -/

/-- Requests that find `running_` cleared are refused. -/
theorem foldl_callElsewhere_of_not_running (waiting : List Bool) {s : Cleaning} (h : s.running = false) :
    waiting.foldl (fun s _ => s.callElsewhere) s =
      { s with issued := s.issued ++ waiting.map fun _ => .refused } := by
  induction waiting generalizing s with
  | nil => simp
  | cons e waiting ih =>
    have hcall : s.callElsewhere = { s with issued := s.issued ++ [.refused] } := by
      simp [callElsewhere, h]
    rw [List.foldl_cons, hcall]
    have hrest := ih (s := { s with issued := s.issued ++ [.refused] }) h
    simpa using hrest

/-- What was accepted and is pending stays so. -/
theorem foldl_callElsewhere_grows (waiting : List Bool) {s : Cleaning} {seq : UInt64}
    (h : .accepted seq ∈ s.issued ∧ seq ∈ s.pendingRequests) :
    let s' := waiting.foldl (fun s _ => s.callElsewhere) s
    .accepted seq ∈ s'.issued ∧ seq ∈ s'.pendingRequests := by
  induction waiting generalizing s with
  | nil => exact h
  | cons e waiting ih =>
    have hnext : .accepted seq ∈ s.callElsewhere.issued ∧ seq ∈ s.callElsewhere.pendingRequests := by
      unfold callElsewhere
      split
      · exact ⟨List.mem_append_left _ h.1, List.mem_append_left _ h.2⟩
      · exact ⟨List.mem_append_left _ h.1, h.2⟩
    exact ih hnext

/-- A request that finds `running_` set stays pending. -/
theorem foldl_callElsewhere_of_running {waiting : List Bool} (hne : waiting ≠ []) {s : Cleaning}
    (h : s.running = true) :
    let s' := waiting.foldl (fun s _ => s.callElsewhere) s
    ∃ seq, .accepted seq ∈ s'.issued ∧ seq ∈ s'.pendingRequests := by
  cases waiting with
  | nil => exact absurd rfl hne
  | cons e waiting =>
    refine ⟨s.nextSequenceId, ?_⟩
    rw [List.foldl_cons]
    apply foldl_callElsewhere_grows
    simp [callElsewhere, h, register]

/-- **The cleanup with well-behaved coroutines** completes every entry and empties the map. -/
theorem cleanup_of_returns {entries : List PendingEntry} {s : Cleaning} (hfree : .mapMutex ∉ s.held)
    (h : Returns entries) : s.cleanupPendingRequests entries = .ok ({ s with
      iterating := false
      pendingRequests := []
      completed := s.completed ++ entries.map PendingEntry.call }, false) := by
  simp [cleanupPendingRequests, lock, hfree, failEach_of_returns entries h, unlock]

theorem cleanup_of_not_returns {entries : List PendingEntry} {s : Cleaning} (h : ¬ Returns entries)
    (s' : Cleaning) : s.cleanupPendingRequests entries ≠ .ok (s', false) := by
  unfold cleanupPendingRequests lock
  by_cases hheld : .mapMutex ∈ s.held
  · simp [hheld]
  · have hloop := failEach_of_not_returns entries (s := { s with
      held := .mapMutex :: s.held, iterating := true }) List.mem_cons_self h
    simp only [hheld, if_false]
    split
    · simp
    · simp
    · rename_i s₁ heq
      exact absurd heq (hloop s₁)

end Cleaning

/-! ## Call sites -/

namespace CleanupCall

open Cleaning

/-- Nobody holds a mutex when a call site begins. -/
theorem enter_eq (c : CleanupCall) : c.enter = .ok { c.start with
    running := c.running && !c.site.clearsBefore
    held := if c.site.holdsSendMutex then [.sendMutex] else [] } := by
  unfold enter
  split
  · simp [lock, start]
  · rfl

/-- The state in which a well-behaved cleanup returns to its call site. -/
def cleaned (c : CleanupCall) : Cleaning where
  held := if c.site.holdsSendMutex then [.sendMutex] else []
  running := c.running && !c.site.clearsBefore
  nextSequenceId := c.nextSequenceId
  pendingRequests := []
  iterating := false
  completed := c.entries.map PendingEntry.call
  issued := []

theorem run_of_returns (c : CleanupCall) (h : Returns c.entries) :
    c.run = .ok (c.leave c.cleaned, false) := by
  have hfree : ChannelMutex.mapMutex ∉ if c.site.holdsSendMutex then [ChannelMutex.sendMutex] else [] := by
    split <;> simp
  have hclean := cleanup_of_returns (s := { c.start with
    running := c.running && !c.site.clearsBefore
    held := if c.site.holdsSendMutex then [.sendMutex] else [] }) hfree h
  simp only [run, enter_eq, hclean]
  rfl

theorem run_of_not_returns (c : CleanupCall) (h : ¬ Returns c.entries) (s : Cleaning) :
    c.run ≠ .ok (s, false) := by
  have hclean := cleanup_of_not_returns (s := { c.start with
    running := c.running && !c.site.clearsBefore
    held := if c.site.holdsSendMutex then [.sendMutex] else [] }) h
  simp only [run, enter_eq]
  split
  · simp
  · simp
  · rename_i s₁ heq
    exact absurd heq (hclean s₁)

theorem letIn_of_refused (c : CleanupCall) {early : Bool} {s : Cleaning}
    (h : early ∈ c.waiting → s.running = false) :
    ∃ n, c.letIn early s = { s with issued := s.issued ++ List.replicate n .refused } := by
  unfold letIn
  by_cases hmem : early ∈ c.waiting
  · rw [foldl_callElsewhere_of_not_running _ (h hmem)]
    exact ⟨_, by rw [List.map_const']⟩
  · have hnone : c.waiting.filter (fun e => e = early) = [] := by
      rw [List.filter_eq_nil_iff]
      intro e he heq
      simp only [decide_eq_true_eq] at heq
      exact hmem (heq ▸ he)
    rw [hnone]
    exact ⟨0, by simp⟩

theorem letIn_of_accepted (c : CleanupCall) {early : Bool} {s : Cleaning} (hmem : early ∈ c.waiting)
    (h : s.running = true) :
    ∃ seq, .accepted seq ∈ (c.letIn early s).issued ∧ seq ∈ (c.letIn early s).pendingRequests := by
  apply foldl_callElsewhere_of_running _ h
  intro hnil
  rw [List.filter_eq_nil_iff] at hnil
  exact hnil early hmem (by simp)

@[simp] theorem running_proceed (c : CleanupCall) (s : Cleaning) :
    (c.proceed s).running = (s.running && !c.site.clearsAfter) := rfl

@[simp] theorem issued_proceed (c : CleanupCall) (s : Cleaning) : (c.proceed s).issued = s.issued := rfl

/-- **Requests of other threads are refused** exactly where `running_` is cleared before they get in. -/
theorem leave_refuses_iff (c : CleanupCall) :
    (∀ seq, .accepted seq ∈ (c.leave c.cleaned).issued → seq ∉ (c.leave c.cleaned).pendingRequests) ↔
      ∀ early ∈ c.waiting, c.refuses early = true := by
  constructor
  · intro h early hmem
    by_contra hrefuses
    simp only [CleanupCall.refuses, Bool.or_eq_true, Bool.and_eq_true, Bool.not_eq_true', not_or, not_and,
      Bool.not_eq_true] at hrefuses
    obtain ⟨⟨hopen, hbefore⟩, hafter⟩ := hrefuses
    have hrunning : c.cleaned.running = true := by simp [cleaned, hopen, hbefore]
    by_cases hearly : true ∈ c.waiting
    · -- it gets in before the next statement, and stays
      obtain ⟨seq, hseq⟩ := c.letIn_of_accepted hearly hrunning
      have hlate := foldl_callElsewhere_grows (c.waiting.filter fun e => e = false)
        (s := c.proceed (c.letIn true c.cleaned)) hseq
      exact h seq hlate.1 hlate.2
    · have hfalse : early = false := by
        cases early with
        | true => exact absurd hmem hearly
        | false => rfl
      subst hfalse
      have hopen : c.site.clearsAfter = false := by
        rw [Bool.eq_false_iff]
        intro hclears
        exact hafter hclears rfl
      obtain ⟨n, hlet⟩ := c.letIn_of_refused (s := c.cleaned) fun hmem => absurd hmem hearly
      have hlate := c.letIn_of_accepted (s := c.proceed (c.letIn true c.cleaned)) hmem
        (by simp [hlet, hrunning, hopen])
      obtain ⟨seq, hissued, hpending⟩ := hlate
      exact h seq hissued hpending
  · intro h seq hissued
    exfalso
    have hrefused : true ∈ c.waiting → c.cleaned.running = false := by
      intro hmem
      have hrefuses := h true hmem
      simpa [CleanupCall.refuses, cleaned, imp_iff_not_or] using hrefuses
    obtain ⟨n, hlet⟩ := c.letIn_of_refused hrefused
    have hcleared : false ∈ c.waiting → (c.proceed (c.letIn true c.cleaned)).running = false := by
      intro hmem
      have hrefuses := h false hmem
      simp only [CleanupCall.refuses, Bool.not_false, Bool.and_true, Bool.or_eq_true] at hrefuses
      rw [running_proceed, hlet]
      rcases hrefuses with (hcleared | hbefore) | hafter
      · have hclosed : c.running = false := by simpa using hcleared
        simp [cleaned, hclosed]
      · simp [cleaned, hbefore]
      · simp [hafter]
    obtain ⟨m, hlet'⟩ := c.letIn_of_refused hcleared
    rw [leave, hlet'] at hissued
    simp only [issued_proceed, hlet] at hissued
    simp [cleaned] at hissued

theorem completed_leave (c : CleanupCall) (s : Cleaning) : (c.leave s).completed = s.completed := by
  have hlet : ∀ (waiting : List Bool) (s : Cleaning),
      (waiting.foldl (fun s _ => s.callElsewhere) s).completed = s.completed := by
    intro waiting
    induction waiting with
    | nil => intro s; rfl
    | cons e waiting ih =>
      intro s
      rw [List.foldl_cons, ih]
      unfold callElsewhere
      split <;> rfl
  rw [leave, letIn, hlet]
  show (c.letIn true s).completed = s.completed
  rw [letIn, hlet]

/-- **A cleanup is safe exactly when** each coroutine it resumes itself returns, and every request of
another thread that waits for `mapMutex_` meanwhile gets it after `running_` is cleared. -/
theorem cleanup_safe_iff (c : CleanupCall) :
    c.Safe ↔ (∀ e ∈ c.entries, ∀ b, e.waiter = .sameLoop b → b = .returns) ∧
      ∀ early ∈ c.waiting, c.refuses early = true := by
  constructor
  · rintro ⟨s, hrun, -, hissued⟩
    have hreturns : Returns c.entries := by
      by_contra hnot
      exact c.run_of_not_returns hnot s hrun
    refine ⟨hreturns, ?_⟩
    rw [c.run_of_returns hreturns] at hrun
    cases hrun
    exact c.leave_refuses_iff.mp hissued
  · rintro ⟨hreturns, hrefuses⟩
    refine ⟨_, c.run_of_returns hreturns, ?_, c.leave_refuses_iff.mpr hrefuses⟩
    intro e he
    rw [completed_leave]
    exact List.count_eq_one_of_mem c.nodup (List.mem_map_of_mem he)

/-! ## The cleanup of the channel -/

/-- A call site of a channel, with somebody waiting for each of its pending requests. -/
def ofChannel (s : BinaryRpcChannel) (site : CallSite) (waiter : Nat → Waiter)
    (hnodup : (s.pendingRequests.map Prod.snd).Nodup) : CleanupCall where
  site := site
  running := s.running
  nextSequenceId := s.nextSequenceId
  entries := s.pendingRequests.map fun p => ⟨p.1, p.2, waiter p.2⟩
  waiting := []
  nodup := by
    rw [List.map_map]
    exact hnodup

/-- **With well-behaved coroutines the call site does what `BinaryRpcChannel` takes the cleanup to do**:
it completes the same calls, in the same order, and leaves nothing pending. -/
theorem run_ofChannel (s : BinaryRpcChannel) (site : CallSite) {waiter : Nat → Waiter}
    (hnodup : (s.pendingRequests.map Prod.snd).Nodup)
    (hreturns : ∀ p ∈ s.pendingRequests, ∀ b, waiter p.2 = .sameLoop b → b = .returns) (reason : String) :
    ∃ t, (ofChannel s site waiter hnodup).run = .ok (t, false) ∧
      t.pendingRequests = (s.cleanupPendingRequests reason).pendingRequests.map Prod.fst ∧
      s.completions.map Completion.call ++ t.completed =
        (s.cleanupPendingRequests reason).completions.map Completion.call := by
  have hall : Returns (ofChannel s site waiter hnodup).entries := by
    intro e he b hb
    obtain ⟨p, hp, rfl⟩ := List.mem_map.mp he
    exact hreturns p hp b hb
  refine ⟨_, run_of_returns _ hall, ?_, ?_⟩
  · rw [BinaryRpcChannel.cleanup_eq]
    rfl
  · rw [BinaryRpcChannel.cleanup_eq, completed_leave, List.map_append, List.map_map]
    simp [cleaned, ofChannel, Function.comp_def]

/-- The connection of a channel ends; its only pending request is that of a coroutine of the channel's
own loop, which tries again. -/
def retryOnEof : CleanupCall where
  site := .onRead
  running := true
  nextSequenceId := 2
  entries := [⟨1, 0, .sameLoop .callsAgain⟩]
  waiting := []
  nodup := List.nodup_singleton 0

/-- **A coroutine that calls again relocks `mapMutex_`** on the thread that holds it. -/
theorem cleanup_relocks : retryOnEof.run = .error (.relocks .mapMutex) ∧ ¬ ∀ c : CleanupCall, c.Safe := by
  have hfault : retryOnEof.run = .error (.relocks .mapMutex) := rfl
  refine ⟨hfault, ?_⟩
  intro h
  obtain ⟨s, hrun, -⟩ := h retryOnEof
  rw [hfault] at hrun
  cases hrun

end CleanupCall

end Tudou
