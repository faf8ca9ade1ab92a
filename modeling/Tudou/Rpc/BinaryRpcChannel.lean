import Tudou.Foundation.Correlation
import Tudou.Foundation.Run
import Tudou.Tcp.Buffer

/-!
# `BinaryRpcChannel`: many calls on one connection

Model of `src/tudou/rpc/binary/BinaryRpcChannel.cpp`, in both of its modes.  A step is what one thread
does between two accesses to something shared: `running_`, `pendingRequests_` under `mapMutex_`, a
promise or the queue of a loop.

* `CallerLabel` — `CallMethod`, once for each call in progress.
* `ReceiverLabel` — `receive_loop` in thread mode, `on_read` and `on_write` in loop mode; what the
  decoder finds is the environment's choice.
* `system` — callers, receiver, resumed coroutines and the destructor in any interleaving.
* `step_ends` — what a step can do, for every invariant to start from.
* `channel_refines_table` — **the channel matches responses as a `Correlation.Table` does**.
-/

namespace Tudou

open Transition

/-- Which constructor made the channel. -/
inductive ChannelMode where
  | thread
  | loop
  deriving DecidableEq, Repr

inductive EncodeError where
  | rpcMeta
  | request
  deriving DecidableEq, Repr

def EncodeError.what : EncodeError → String
  | .rpcMeta => "BinaryRpcChannel: Failed to serialize RpcMeta"
  | .request => "BinaryRpcChannel: Failed to serialize Request Message"

/-- Where `CallMethod` stands. -/
inductive CallPc where
  /-- The sequence id is taken. -/
  | start
  /-- The context is in `pendingRequests_`. -/
  | registered
  | encoded
  /-- In a `catch (...)` that erases the context. -/
  | failed (what : String)
  /-- In `future.get()` or `yield()`. -/
  | waiting
  | returned
  | threw (what : String)
  deriving DecidableEq, Repr

/-- `CallMethod` has left. -/
def CallPc.isDone : CallPc → Bool
  | .returned | .threw _ => true
  | _ => false

/-- `CallMethod` does not touch the channel until it is completed, or at all. -/
def CallPc.isQuiet : CallPc → Bool
  | .waiting | .returned | .threw _ => true
  | _ => false

/-- One `CallMethod` with its context; `coroutine` is set on the coroutine path. -/
structure Call where
  seq : UInt64
  coroutine : Option Nat
  pc : CallPc
  /-- How many frames had been decoded when the context was registered. -/
  registeredAt : Option Nat
  /-- The call whose `resume()` made `yield()` return. -/
  wokenBy : Option Nat
  deriving DecidableEq, Repr

/-- A promise set, or a coroutine handed to its loop to be resumed: with the response parsed from a
body, or with an exception. -/
structure Completion where
  call : Nat
  frame : Option Nat
  outcome : Except String Bytes

inductive Receiver where
  /-- At `while (running_)`, or between two events of the loop. -/
  | idle
  | reading
  /-- At the `while (running_)` around `decode`. -/
  | parsing
  | decoding
  /-- A context was found and erased; its response is not parsed yet. -/
  | delivering (call frame : Nat) (body : Bytes)
  /-- `cleanup_pending_requests` is done; `running_` is cleared next if `clears`. -/
  | cleaned (clears : Bool)
  | stopped
  deriving DecidableEq, Repr

/-- The response the receiver took out of the map and has not delivered. -/
def Receiver.inHand : Receiver → Option (Nat × Nat × Bytes)
  | .delivering call frame body => some (call, frame, body)
  | _ => none

/-- The receiving side is past its last cleanup. -/
def Receiver.isOver : Receiver → Bool
  | .cleaned _ | .stopped => true
  | _ => false

inductive Lifetime where
  | alive
  | closing
  | destroyed
  deriving DecidableEq, Repr

structure BinaryRpcChannel where
  nextSequenceId : UInt64
  running : Bool
  pendingRequests : List (UInt64 × Nat)
  receiver : Receiver
  lifetime : Lifetime
  calls : List Call
  /-- The frames decoded so far, sequence id and body, in the order of their look-ups under
  `mapMutex_`: decoding itself touches nothing shared. -/
  frames : List (UInt64 × Bytes)
  completions : List Completion
  /-- Coroutines whose `resume()` is queued on their loop, each with the call it is for. -/
  resumes : List (Nat × Nat)

inductive CallerLabel where
  | register
  | encode (error : Option EncodeError)
  | send (ok : Bool)
  | rethrow
  | wake
  deriving DecidableEq, Repr

inductive ReceiverLabel where
  | check
  | readData
  /-- `EINTR` or `EAGAIN` with nothing read. -/
  | readRetry
  /-- EOF or an error. -/
  | readEnd
  | checkParse
  | frame (seq : UInt64) (body : Bytes)
  | deliver
  | halfPack
  | badFrame
  | tearDown
  /-- `on_write` finds that the connect failed, or its write fails. -/
  | writeError (connecting : Bool)
  deriving DecidableEq, Repr

inductive ChannelLabel where
  | call (coroutine : Option Nat)
  | caller (c : Nat) (l : CallerLabel)
  | receiver (l : ReceiverLabel)
  /-- A loop runs the `k`-th queued `resume()`. -/
  | resume (k : Nat)
  | destroyBegin
  | destroyEnd
  deriving DecidableEq, Repr

namespace BinaryRpcChannel

def create : BinaryRpcChannel where
  nextSequenceId := 1
  running := true
  pendingRequests := []
  receiver := .idle
  lifetime := .alive
  calls := []
  frames := []
  completions := []
  resumes := []

/-- `pendingRequests_.erase(seq)`. -/
def erase (pending : List (UInt64 × Nat)) (seq : UInt64) : List (UInt64 × Nat) :=
  pending.filter fun p => p.1 ≠ seq

/-- The `resume()` queued when call `c` is completed, if a coroutine waits for it. -/
def wakes (s : BinaryRpcChannel) (c : Nat) : List (Nat × Nat) :=
  match (s.calls[c]?).bind Call.coroutine with
  | none => []
  | some coro => [(coro, c)]

/-- Set the promise of call `c`, or hand its coroutine to its loop. -/
def complete (s : BinaryRpcChannel) (c : Nat) (frame : Option Nat) (outcome : Except String Bytes) :
    BinaryRpcChannel :=
  { s with
    completions := s.completions ++ [⟨c, frame, outcome⟩]
    resumes := s.resumes ++ s.wakes c }

/-- `cleanup_pending_requests(reason)`. -/
def cleanupPendingRequests (s : BinaryRpcChannel) (reason : String) : BinaryRpcChannel :=
  { s.pendingRequests.foldl (fun s p => s.complete p.2 none (.error reason)) s with
    pendingRequests := [] }

def setCall (s : BinaryRpcChannel) (c : Nat) (call : Call) : BinaryRpcChannel :=
  { s with calls := s.calls.set c call }

/-- What the promise of call `c` holds, or the exception in its context. -/
def outcomeOf (s : BinaryRpcChannel) (c : Nat) : Option (Except String Bytes) :=
  (s.completions.find? fun r => r.call = c).map Completion.outcome

/-- One step of `CallMethod` of call `c`. -/
def callerStep (s : BinaryRpcChannel) (c : Nat) (call : Call) :
    CallerLabel → Option BinaryRpcChannel
  | .register =>
    match call.pc with
    | .start =>
      if s.running then
        some { s with
          pendingRequests := (call.seq, c) :: erase s.pendingRequests call.seq
          calls := s.calls.set c { call with pc := .registered, registeredAt := some s.frames.length } }
      else some (s.setCall c { call with pc := .threw "BinaryRpcChannel: Channel is closed" })
    | _ => none
  | .encode error =>
    match call.pc with
    | .registered =>
      some (s.setCall c { call with pc := match error with
        | none => .encoded
        | some e => .failed e.what })
    | _ => none
  | .send ok =>
    match call.pc with
    | .encoded =>
      some (s.setCall c { call with pc :=
        if ok then .waiting
        else match call.coroutine with
          | none => .failed "BinaryRpcChannel: Failed to write bytes to socket"
          | some _ => .threw "BinaryRpcChannel: Non-blocking socket write error" })
    | _ => none
  | .rethrow =>
    match call.pc with
    | .failed what =>
      some ({ s with pendingRequests := erase s.pendingRequests call.seq }.setCall c
        { call with pc := .threw what })
    | _ => none
  | .wake =>
    match call.pc, call.coroutine, s.outcomeOf c with
    | .waiting, none, some (.ok _) => some (s.setCall c { call with pc := .returned })
    | .waiting, none, some (.error what) => some (s.setCall c { call with pc := .threw what })
    | _, _, _ => none

section Receive

variable (mode : ChannelMode) (parses : Nat → Bytes → Bool)

/-- One step of the receiving side; `parses c` is `ParseFromString` of the response of call `c`. -/
def receiverStep (s : BinaryRpcChannel) : ReceiverLabel → Option BinaryRpcChannel
  | .check =>
    match s.receiver with
    | .idle =>
      if s.running then some { s with receiver := .reading }
      else some { s with receiver := match mode with
        | .thread => .stopped
        | .loop => .idle }
    | _ => none
  | .readData => if s.receiver = .reading then some { s with receiver := .parsing } else none
  | .readRetry => if s.receiver = .reading then some { s with receiver := .idle } else none
  | .readEnd =>
    if s.receiver = .reading then
      match mode with
      | .thread => some { s.cleanupPendingRequests "BinaryRpcChannel: Connection closed prematurely" with
          receiver := .cleaned false }
      | .loop => some { s.cleanupPendingRequests "BinaryRpcChannel: Connection closed or read error" with
          receiver := .cleaned true }
    else none
  | .checkParse =>
    if s.receiver = .parsing then
      some { s with receiver := if s.running then .decoding else .idle }
    else none
  | .frame seq body =>
    if s.receiver = .decoding then
      some { s with
        frames := s.frames ++ [(seq, body)]
        pendingRequests := erase s.pendingRequests seq
        receiver := match s.pendingRequests.find? fun p => p.1 = seq with
          | none => .parsing
          | some p => .delivering p.2 s.frames.length body }
    else none
  | .deliver =>
    match s.receiver with
    | .delivering c frame body =>
      some { s.complete c (some frame) (if parses c body then .ok body
          else .error "BinaryRpcChannel: Failed to parse Response Message") with
        receiver := .parsing }
    | _ => none
  | .halfPack => if s.receiver = .decoding then some { s with receiver := .idle } else none
  | .badFrame =>
    if s.receiver = .decoding then
      match mode with
      | .thread => some { s.cleanupPendingRequests "BinaryRpcChannel: Detected binary protocol decode error" with
          receiver := .cleaned true }
      | .loop => some { s.cleanupPendingRequests "BinaryRpcChannel: Protocol decode error" with
          receiver := .cleaned true }
    else none
  | .tearDown =>
    match s.receiver, mode with
    | .cleaned false, _ => some { s with receiver := .stopped }
    | .cleaned true, .thread => some { s with running := false, receiver := .idle }
    | .cleaned true, .loop => some { s with running := false, receiver := .stopped }
    | _, _ => none
  | .writeError connecting =>
    -- `on_write` may still run in the dispatch in which `on_read` tore the channel down
    if mode = .loop ∧ (s.receiver = .idle ∨ s.receiver = .stopped) then
      some { s.cleanupPendingRequests (if connecting then
          "BinaryRpcChannel: Non-blocking connect failed" else "BinaryRpcChannel: Non-blocking write error") with
        receiver := .cleaned true }
    else none

/-- The call a coroutine is suspended in. -/
def suspendedIn (s : BinaryRpcChannel) (coro : Nat) : Option Nat :=
  s.calls.findIdx? fun call => call.coroutine = some coro ∧ call.pc = .waiting

/-- How `CallMethod` leaves when `yield()` returns: it looks for an exception in its context only. -/
def leaves (s : BinaryRpcChannel) (c : Nat) : CallPc :=
  match s.outcomeOf c with
  | some (.error what) => .threw what
  | _ => .returned

/-- `coro->resume()`, queued when call `account` was completed. -/
def resumeCoroutine (s : BinaryRpcChannel) (coro account : Nat) : BinaryRpcChannel :=
  match s.suspendedIn coro with
  | none => s
  | some c =>
    match s.calls[c]? with
    | none => s
    | some call => s.setCall c { call with pc := s.leaves c, wokenBy := some account }

/-- A call takes the coroutine path in a coroutine and with a loop. -/
def callPath (coroutine : Option Nat) : Option Nat :=
  match mode with
  | .thread => none
  | .loop => coroutine

def step (s : BinaryRpcChannel) : ChannelLabel → Option BinaryRpcChannel
  | .call coroutine =>
    let coroutine := callPath mode coroutine
    -- a coroutine runs one call at a time, and nobody calls into a channel that is being destroyed
    if s.lifetime = .alive ∧
        ∀ call ∈ s.calls, call.coroutine = coroutine → coroutine = none ∨ call.pc.isDone then
      some { s with
        nextSequenceId := s.nextSequenceId + 1
        calls := s.calls ++ [⟨s.nextSequenceId, coroutine, .start, none, none⟩] }
    else none
  | .caller c l =>
    match s.calls[c]? with
    | none => none
    | some call => s.callerStep c call l
  | .receiver l => if s.lifetime = .destroyed then none else s.receiverStep mode parses l
  | .resume k =>
    match s.resumes[k]? with
    | none => none
    | some (coro, account) =>
      some ({ s with resumes := s.resumes.eraseIdx k }.resumeCoroutine coro account)
  | .destroyBegin =>
    if s.lifetime = .alive ∧ (∀ call ∈ s.calls, call.pc.isQuiet) then
      some { s with running := false, lifetime := .closing }
    else none
  | .destroyEnd =>
    -- thread mode joins the receiver; loop mode runs between two events
    if s.lifetime = .closing ∧ (s.receiver = .stopped ∨ mode = .loop ∧ s.receiver = .idle) then
      some { s.cleanupPendingRequests "BinaryRpcChannel: Channel is being destructed" with
        lifetime := .destroyed }
    else none

def system : System BinaryRpcChannel ChannelLabel := ⟨create, step mode parses⟩

end Receive

/-! ## What a step can do -/

theorem leaves_isDone (s : BinaryRpcChannel) (c : Nat) : (s.leaves c).isDone := by
  unfold leaves
  split <;> rfl

/-- A resumed coroutine only goes on in its own `CallMethod`. -/
theorem resumeCoroutine_cases (s : BinaryRpcChannel) (coro account : Nat) :
    s.resumeCoroutine coro account = s ∨ ∃ c call, s.calls[c]? = some call ∧
      call.coroutine = some coro ∧ call.pc = .waiting ∧
        s.resumeCoroutine coro account =
          s.setCall c { call with pc := s.leaves c, wokenBy := some account } := by
  unfold resumeCoroutine
  cases hfind : s.suspendedIn coro with
  | none => exact .inl rfl
  | some c =>
    obtain ⟨hlt, hc, -⟩ := List.findIdx?_eq_some_iff_getElem.mp hfind
    have hcall := List.getElem?_eq_getElem hlt
    obtain ⟨hcoro, hpc⟩ : s.calls[c].coroutine = some coro ∧ s.calls[c].pc = .waiting := by
      simpa using hc
    exact .inr ⟨c, s.calls[c], hcall, hcoro, hpc, by simp only [hcall]⟩

/-- **What a step of `CallMethod` does**: register the context, take it back, or only go on. -/
inductive CallerEnds (s : BinaryRpcChannel) (c : Nat) (call : Call) :
    CallerLabel → BinaryRpcChannel → Prop where
  | registered (hpc : call.pc = .start) (hrunning : s.running = true) :
    CallerEnds s c call .register { s with
      pendingRequests := (call.seq, c) :: erase s.pendingRequests call.seq
      calls := s.calls.set c { call with pc := .registered, registeredAt := some s.frames.length } }
  | withdrawn (what : String) (hpc : call.pc = .failed what) :
    CallerEnds s c call .rethrow ({ s with pendingRequests := erase s.pendingRequests call.seq }.setCall c
      { call with pc := .threw what })
  | goesOn {l : CallerLabel} (pc : CallPc) (hstart : pc ≠ .start)
      (hreturned : pc = .returned → ∃ body, s.outcomeOf c = some (.ok body))
      (hlive : call.pc.isDone = false)
      (hdone : pc.isDone = true → call.pc = .start ∨ l = .send false ∧ call.coroutine ≠ none ∨
        call.coroutine = none ∧ ∃ outcome, s.outcomeOf c = some outcome) :
    CallerEnds s c call l (s.setCall c { call with pc := pc })

theorem callerStep_ends {s s' : BinaryRpcChannel} {c : Nat} {call : Call} {l : CallerLabel}
    (hs : s.callerStep c call l = some s') : CallerEnds s c call l s' := by
  cases l with
  | register =>
    simp only [callerStep] at hs
    split at hs
    · rename_i hpc
      split at hs
      · rename_i hrunning
        cases hs
        exact .registered hpc hrunning
      · cases hs
        exact .goesOn _ (by simp) (by simp) (by rw [hpc]; rfl) fun _ => .inl hpc
    · cases hs
  | encode error =>
    simp only [callerStep] at hs
    split at hs
    · rename_i hpc
      cases hs
      cases error with
      | none | some e => exact .goesOn _ (by simp) (by simp) (by rw [hpc]; rfl) (by rintro ⟨⟩)
    · cases hs
  | send ok =>
    simp only [callerStep] at hs
    split at hs
    · rename_i hpc
      cases hs
      cases ok with
      | true => exact .goesOn _ (by simp) (by simp) (by rw [hpc]; rfl) (by rintro ⟨⟩)
      | false =>
        refine .goesOn _ ?_ ?_ (by rw [hpc]; rfl) ?_
        · cases call.coroutine <;> simp
        · cases call.coroutine <;> simp
        · intro hdone
          refine .inr (.inl ⟨rfl, ?_⟩)
          intro hnone
          rw [hnone] at hdone
          cases hdone
    · cases hs
  | rethrow =>
    simp only [callerStep] at hs
    split at hs
    · rename_i what hpc
      cases hs
      exact .withdrawn what hpc
    · cases hs
  | wake =>
    simp only [callerStep] at hs
    split at hs
    · rename_i body hpc hcoro houtcome
      cases hs
      -- `future.get()` returned because a value was set
      exact .goesOn _ (by simp) (fun _ => ⟨body, houtcome⟩) (by rw [hpc]; rfl)
        fun _ => .inr (.inr ⟨hcoro, _, houtcome⟩)
    · rename_i what hpc hcoro houtcome
      cases hs
      exact .goesOn _ (by simp) (by simp) (by rw [hpc]; rfl) fun _ => .inr (.inr ⟨hcoro, _, houtcome⟩)
    · cases hs

/-- **What a step of the receiver does**: a frame arrives, a response is delivered, everything pending
fails, or the receiver only goes on. -/
inductive ReceiverEnds (parses : Nat → Bytes → Bool) (s : BinaryRpcChannel) : BinaryRpcChannel → Prop where
  | goesOn (r : Receiver) (hnone : s.receiver.inHand = none) (hr : r.inHand = none)
      (hover : r.isOver = true → s.receiver.isOver = true ∨ s.running = false) :
    ReceiverEnds parses s { s with receiver := r }
  | clears (r : Receiver) (hcleaned : s.receiver = .cleaned true) (hr : r.inHand = none) :
    ReceiverEnds parses s { s with running := false, receiver := r }
  | arrives (seq : UInt64) (body : Bytes) (hdecoding : s.receiver = .decoding) :
    ReceiverEnds parses s { s with
      frames := s.frames ++ [(seq, body)]
      pendingRequests := erase s.pendingRequests seq
      receiver := match s.pendingRequests.find? fun p => p.1 = seq with
        | none => .parsing
        | some p => .delivering p.2 s.frames.length body }
  | delivers (c frame : Nat) (body : Bytes) (hdelivering : s.receiver = .delivering c frame body) :
    ReceiverEnds parses s { s.complete c (some frame) (if parses c body then .ok body
        else .error "BinaryRpcChannel: Failed to parse Response Message") with
      receiver := .parsing }
  | fails (reason : String) (clears : Bool) (hnone : s.receiver.inHand = none) :
    ReceiverEnds parses s { s.cleanupPendingRequests reason with receiver := .cleaned clears }

theorem receiverStep_ends {mode : ChannelMode} {parses : Nat → Bytes → Bool} {s s' : BinaryRpcChannel}
    {l : ReceiverLabel} (hs : s.receiverStep mode parses l = some s') : ReceiverEnds parses s s' := by
  cases l with
  | check =>
    simp only [receiverStep] at hs
    split at hs
    · rename_i hidle
      split at hs
      · cases hs
        exact .goesOn _ (by rw [hidle]; rfl) rfl (by rintro ⟨⟩)
      · rename_i hcleared
        cases hs
        -- a loop that ends because `running_` is cleared
        refine .goesOn _ (by rw [hidle]; rfl) (by cases mode <;> rfl) fun _ => .inr ?_
        exact Bool.not_eq_true _ ▸ hcleared
    · cases hs
  | readData | readRetry =>
    simp only [receiverStep] at hs
    split at hs
    · rename_i hreading
      cases hs
      exact .goesOn _ (by rw [hreading]; rfl) rfl (by rintro ⟨⟩)
    · cases hs
  | readEnd =>
    simp only [receiverStep] at hs
    split at hs
    · rename_i hreading
      cases mode with
      | thread | loop =>
        cases hs
        exact .fails _ _ (by rw [hreading]; rfl)
    · cases hs
  | checkParse =>
    simp only [receiverStep] at hs
    split at hs
    · rename_i hparsing
      cases hs
      refine .goesOn _ (by rw [hparsing]; rfl) (by split <;> rfl) ?_
      split <;> rintro ⟨⟩
    · cases hs
  | frame seq body =>
    simp only [receiverStep] at hs
    split at hs
    · rename_i hdecoding
      cases hs
      exact .arrives seq body hdecoding
    · cases hs
  | deliver =>
    simp only [receiverStep] at hs
    split at hs
    · rename_i c frame body hdelivering
      cases hs
      exact .delivers c frame body hdelivering
    · cases hs
  | halfPack =>
    simp only [receiverStep] at hs
    split at hs
    · rename_i hdecoding
      cases hs
      exact .goesOn _ (by rw [hdecoding]; rfl) rfl (by rintro ⟨⟩)
    · cases hs
  | badFrame =>
    simp only [receiverStep] at hs
    split at hs
    · rename_i hdecoding
      cases mode with
      | thread | loop =>
        cases hs
        exact .fails _ _ (by rw [hdecoding]; rfl)
    · cases hs
  | tearDown =>
    simp only [receiverStep] at hs
    split at hs
    · rename_i hcleaned
      cases hs
      exact .goesOn _ (by rw [hcleaned]; rfl) rfl fun _ => .inl (by rw [hcleaned]; rfl)
    · rename_i hcleaned
      cases hs
      exact .clears _ hcleaned rfl
    · rename_i hcleaned
      cases hs
      exact .clears _ hcleaned rfl
    · cases hs
  | writeError connecting =>
    simp only [receiverStep] at hs
    split at hs
    · rename_i hidle
      cases hs
      refine .fails _ _ ?_
      rcases hidle.2 with hidle | hstopped
      · rw [hidle]
        rfl
      · rw [hstopped]
        rfl
    · cases hs

/-- **What a step of the channel does.** -/
inductive StepEnds (mode : ChannelMode) (parses : Nat → Bytes → Bool) (s : BinaryRpcChannel) :
    ChannelLabel → BinaryRpcChannel → Prop where
  | called {coroutine : Option Nat} (halive : s.lifetime = .alive)
      (hfree : ∀ call ∈ s.calls, call.coroutine = callPath mode coroutine →
        callPath mode coroutine = none ∨ call.pc.isDone = true) :
    StepEnds mode parses s (.call coroutine) { s with
      nextSequenceId := s.nextSequenceId + 1
      calls := s.calls ++ [⟨s.nextSequenceId, callPath mode coroutine, .start, none, none⟩] }
  | caller {c : Nat} {call : Call} {l : CallerLabel} {s' : BinaryRpcChannel}
      (hcall : s.calls[c]? = some call) (h : CallerEnds s c call l s') :
    StepEnds mode parses s (.caller c l) s'
  | receiver {l : ReceiverLabel} {s' : BinaryRpcChannel} (h : ReceiverEnds parses s s') :
    StepEnds mode parses s (.receiver l) s'
  | unheard {k : Nat} :
    StepEnds mode parses s (.resume k) { s with resumes := s.resumes.eraseIdx k }
  | resumed {k c coro account : Nat} {call : Call} (hk : s.resumes[k]? = some (coro, account))
      (hcall : s.calls[c]? = some call) (hcoro : call.coroutine = some coro) (hpc : call.pc = .waiting) :
    StepEnds mode parses s (.resume k) ({ s with resumes := s.resumes.eraseIdx k }.setCall c
      { call with pc := s.leaves c, wokenBy := some account })
  | closing (halive : s.lifetime = .alive) :
    StepEnds mode parses s .destroyBegin { s with running := false, lifetime := .closing }
  | destroyed :
    StepEnds mode parses s .destroyEnd
      { s.cleanupPendingRequests "BinaryRpcChannel: Channel is being destructed" with
        lifetime := .destroyed }

theorem step_ends {mode : ChannelMode} {parses : Nat → Bytes → Bool} {s s' : BinaryRpcChannel}
    {l : ChannelLabel} (hs : s.step mode parses l = some s') : StepEnds mode parses s l s' := by
  cases l with
  | call coroutine =>
    simp only [step] at hs
    split at hs
    · rename_i hcan
      cases hs
      exact .called hcan.1 hcan.2
    · cases hs
  | caller c l =>
    simp only [step] at hs
    split at hs
    · cases hs
    · rename_i call hcall
      exact .caller hcall (callerStep_ends hs)
  | receiver l =>
    simp only [step] at hs
    split at hs
    · cases hs
    · exact .receiver (receiverStep_ends hs)
  | resume k =>
    simp only [step] at hs
    split at hs
    · cases hs
    · rename_i coro account hk
      cases hs
      rcases resumeCoroutine_cases { s with resumes := s.resumes.eraseIdx k } coro account with
        hsame | ⟨c, call, hcall, hcoro, hpc, hset⟩
      · rw [hsame]
        exact .unheard
      · rw [hset]
        exact .resumed hk hcall hcoro hpc
  | destroyBegin =>
    simp only [step] at hs
    split at hs
    · rename_i hcan
      cases hs
      exact .closing hcan.1
    · cases hs
  | destroyEnd =>
    simp only [step] at hs
    split at hs
    · cases hs
      exact .destroyed
    · cases hs

/-! ## The channel as a correlation table -/

end BinaryRpcChannel

def Call.request (call : Call) : Correlation.Request UInt64 := ⟨call.seq, call.registeredAt⟩

def Completion.entry (r : Completion) : Correlation.Completion Bytes where
  request := r.call
  message := r.frame
  result := match r.outcome with
    | .ok body => some body
    | .error _ => none

namespace BinaryRpcChannel

open Correlation

/-- What the channel knows about requests and responses. -/
def table (s : BinaryRpcChannel) : Table UInt64 Bytes where
  requests := s.calls.map Call.request
  filed := s.pendingRequests
  inHand := s.receiver.inHand
  messages := s.frames
  completions := s.completions.map Completion.entry

/-- A context is registered once. -/
def Unregistered (s : BinaryRpcChannel) : Prop :=
  ∀ call ∈ s.calls, call.pc = .start → call.registeredAt = none

/-- The table makes at most one step. -/
def Moves (s s' : BinaryRpcChannel) : Prop :=
  s'.table = s.table ∨ ∃ l, s.table.step l = some s'.table

theorem table_setCall {s : BinaryRpcChannel} {c : Nat} {call call' : Call} (h : s.calls[c]? = some call)
    (hrequest : call'.request = call.request) : (s.setCall c call').table = s.table := by
  have hcalls : (s.calls.set c call').map Call.request = s.calls.map Call.request := by
    apply List.ext_getElem?
    intro i
    by_cases hi : c = i
    · subst hi
      rw [List.getElem?_map, List.getElem?_map, h,
        List.getElem?_set_self (List.getElem?_eq_some_iff.mp h).1, Option.map_some, Option.map_some,
        hrequest]
    · rw [List.getElem?_map, List.getElem?_map, List.getElem?_set_ne hi]
  rw [table, table]
  simp only [setCall, hcalls]

theorem Unregistered.setCall {s : BinaryRpcChannel} (h : s.Unregistered) (c : Nat) {call : Call}
    (hpc : call.pc ≠ .start) : (s.setCall c call).Unregistered := by
  intro call' hmem hstart
  rcases List.mem_or_eq_of_mem_set hmem with hmem | rfl
  · exact h call' hmem hstart
  · exact absurd hstart hpc

theorem cleanup_eq (s : BinaryRpcChannel) (reason : String) :
    s.cleanupPendingRequests reason = { s with
      pendingRequests := []
      completions := s.completions ++ s.pendingRequests.map fun p => ⟨p.2, none, .error reason⟩
      resumes := s.resumes ++ s.pendingRequests.flatMap fun p => s.wakes p.2 } := by
  have all : ∀ (pending : List (UInt64 × Nat)) (s : BinaryRpcChannel),
      pending.foldl (fun s p => s.complete p.2 none (.error reason)) s = { s with
        completions := s.completions ++ pending.map fun p => ⟨p.2, none, .error reason⟩
        resumes := s.resumes ++ pending.flatMap fun p => s.wakes p.2 } := by
    intro pending
    induction pending with
    | nil => intro s; simp
    | cons p pending ih =>
      intro s
      rw [List.foldl_cons, ih]
      simp [complete, wakes]
  rw [cleanupPendingRequests, all]

/-- **A cleanup fails every pending request.** -/
theorem moves_cleanup (s : BinaryRpcChannel) (reason : String) :
    s.table.step .failAll = some (s.cleanupPendingRequests reason).table := by
  rw [cleanup_eq]
  simp [Table.step, table, Completion.entry, Function.comp_def]

@[simp] theorem calls_cleanup (s : BinaryRpcChannel) (reason : String) :
    (s.cleanupPendingRequests reason).calls = s.calls := by
  rw [cleanup_eq]

@[simp] theorem receiver_cleanup (s : BinaryRpcChannel) (reason : String) :
    (s.cleanupPendingRequests reason).receiver = s.receiver := by
  rw [cleanup_eq]

theorem table_receiver {s : BinaryRpcChannel} {r : Receiver} (h : r.inHand = s.receiver.inHand) :
    ({ s with receiver := r } : BinaryRpcChannel).table = s.table := by
  simp only [table, h]

/-- A cleanup by a receiver that holds nothing, before and after. -/
theorem moves_cleanup_receiver {s : BinaryRpcChannel} (reason : String) {r : Receiver}
    (h : r.inHand = s.receiver.inHand) :
    Moves s { s.cleanupPendingRequests reason with receiver := r } := by
  have hsame : ({ s.cleanupPendingRequests reason with receiver := r } : BinaryRpcChannel).table =
      (s.cleanupPendingRequests reason).table :=
    table_receiver (by rw [h, receiver_cleanup])
  exact .inr ⟨.failAll, by rw [hsame]; exact moves_cleanup s reason⟩

/-- **What a step of `CallMethod` does to the table**: file, withdraw, or nothing. -/
theorem CallerEnds.moves {s s' : BinaryRpcChannel} {c : Nat} {call : Call} {l : CallerLabel}
    (hu : s.Unregistered) (hcall : s.calls[c]? = some call) (h : CallerEnds s c call l s') :
    s'.Unregistered ∧ Moves s s' := by
  cases h with
  | registered hpc hrunning =>
    have hnew := hu call (List.mem_of_getElem? hcall) hpc
    have hrequest : s.table.requests[c]? = some call.request := by
      rw [table, List.getElem?_map, hcall, Option.map_some]
    refine ⟨hu.setCall c (s := { s with pendingRequests := _ }) (by simp), .inr ⟨.file c, ?_⟩⟩
    simp only [Table.step, hrequest]
    rw [if_pos (by exact hnew)]
    simp only [table, List.map_set]
    rfl
  | withdrawn what hpc =>
    refine ⟨hu.setCall c (s := { s with pendingRequests := _ }) (by simp), .inr ⟨.withdraw call.seq, ?_⟩⟩
    have hset : ({ s with pendingRequests := erase s.pendingRequests call.seq }.setCall c
        { call with pc := .threw what }).table =
        ({ s with pendingRequests := erase s.pendingRequests call.seq } : BinaryRpcChannel).table :=
      table_setCall hcall rfl
    rw [hset]
    rfl
  | goesOn pc hstart _ => exact ⟨hu.setCall c hstart, .inl (table_setCall hcall rfl)⟩

/-- Completions are only added; a response is parsed from the body it completes a call with, and a
`resume()` is queued with the completion it is for. -/
def Completes (parses : Nat → Bytes → Bool) (s s' : BinaryRpcChannel) : Prop :=
  ∃ new, s'.completions = s.completions ++ new ∧
    (∀ r ∈ new, ∀ body, r.outcome = .ok body → parses r.call body) ∧
    ∀ p ∈ s'.resumes, p ∈ s.resumes ∨ ∃ r ∈ new, r.call = p.2

theorem Completes.of_eq {parses : Nat → Bytes → Bool} {s s' : BinaryRpcChannel}
    (h : s'.completions = s.completions) (hr : s'.resumes = s.resumes) : Completes parses s s' := by
  refine ⟨[], by rw [h, List.append_nil], ?_, ?_⟩
  · intro r hmem
    cases hmem
  · intro p hp
    rw [hr] at hp
    exact .inl hp

theorem eq_of_mem_wakes {s : BinaryRpcChannel} {c : Nat} {p : Nat × Nat} (h : p ∈ s.wakes c) :
    p.2 = c := by
  unfold wakes at h
  split at h
  · cases h
  · rw [List.mem_singleton.mp h]

theorem Completes.cleanup {parses : Nat → Bytes → Bool} {s s' : BinaryRpcChannel} {reason : String}
    (h : s'.completions = (s.cleanupPendingRequests reason).completions)
    (hr : s'.resumes = (s.cleanupPendingRequests reason).resumes) : Completes parses s s' := by
  rw [cleanup_eq] at h hr
  refine ⟨_, h, ?_, ?_⟩
  · intro r hmem body hok
    obtain ⟨p, -, rfl⟩ := List.mem_map.mp hmem
    cases hok
  · intro p hp
    rw [hr] at hp
    rcases List.mem_append.mp hp with hp | hp
    · exact .inl hp
    · obtain ⟨q, hq, hwakes⟩ := List.mem_flatMap.mp hp
      exact .inr ⟨_, List.mem_map_of_mem hq, (eq_of_mem_wakes hwakes).symm⟩

theorem ReceiverEnds.calls {parses : Nat → Bytes → Bool} {s s' : BinaryRpcChannel}
    (h : ReceiverEnds parses s s') : s'.calls = s.calls := by
  cases h with
  | goesOn _ _ _ _ | clears _ _ _ | arrives _ _ _ | delivers _ _ _ _ => rfl
  | fails reason _ _ => exact calls_cleanup s reason

/-- **What a step of the receiver does to the table**: a message arrives, a request is finished, all
fail, or nothing. -/
theorem ReceiverEnds.moves {parses : Nat → Bytes → Bool} {s s' : BinaryRpcChannel}
    (h : ReceiverEnds parses s s') : Moves s s' := by
  cases h with
  | goesOn r hnone hr _ => exact .inl (table_receiver (hr.trans hnone.symm))
  | clears r hcleaned hr =>
    refine .inl (table_receiver (s := { s with running := false }) ?_)
    rw [hr]
    simp only [hcleaned]
    rfl
  | arrives seq body hdecoding =>
    refine .inr ⟨.arrive seq body, ?_⟩
    have hidle : s.table.inHand = none := by
      rw [table, hdecoding]
      rfl
    simp only [Table.step, hidle]
    cases hfind : s.pendingRequests.find? fun p => p.1 = seq with
    | none => simp only [table, hfind, Option.map_none, Receiver.inHand]; rfl
    | some p => simp only [table, hfind, Option.map_some, Receiver.inHand]; rfl
  | delivers c frame body hdelivering =>
    refine .inr ⟨.finish (parses c body), ?_⟩
    simp only [Table.step, table, hdelivering, Receiver.inHand, complete, List.map_append,
      List.map_singleton, Completion.entry]
    cases parses c body <;> rfl
  | fails reason _ hnone => exact moves_cleanup_receiver reason hnone.symm

theorem ReceiverEnds.completes {parses : Nat → Bytes → Bool} {s s' : BinaryRpcChannel}
    (h : ReceiverEnds parses s s') : Completes parses s s' := by
  cases h with
  | goesOn _ _ _ _ | clears _ _ _ | arrives _ _ _ => exact .of_eq rfl rfl
  | delivers c frame body _ =>
    refine ⟨[_], rfl, ?_, ?_⟩
    · intro r hr body' hok
      rw [List.mem_singleton.mp hr] at hok ⊢
      split at hok
      · rename_i hparses
        cases hok
        exact hparses
      · cases hok
    · intro p hp
      rcases List.mem_append.mp hp with hp | hp
      · exact .inl hp
      · exact .inr ⟨_, List.mem_singleton_self _, (eq_of_mem_wakes hp).symm⟩
  | fails reason _ _ => exact .cleanup rfl rfl

theorem step_moves {mode : ChannelMode} {parses : Nat → Bytes → Bool} {s s' : BinaryRpcChannel}
    {l : ChannelLabel} (hu : s.Unregistered) (hs : s.step mode parses l = some s') :
    s'.Unregistered ∧ Moves s s' := by
  cases step_ends hs with
  | called _ =>
    constructor
    · intro call hmem hstart
      rcases List.mem_append.mp hmem with hmem | hmem
      · exact hu call hmem hstart
      · rw [List.mem_singleton.mp hmem]
    · refine .inr ⟨.issue s.nextSequenceId, ?_⟩
      simp only [Table.step, table, List.map_append, List.map_singleton]
      rfl
  | caller hcall h => exact h.moves hu hcall
  | receiver h =>
    refine ⟨?_, h.moves⟩
    intro call hmem
    rw [h.calls] at hmem
    exact hu call hmem
  | unheard => exact ⟨hu, .inl rfl⟩
  | @resumed k c _ _ call _ hcall _ =>
    refine ⟨hu.setCall c (s := { s with resumes := _ }) ?_, .inl ?_⟩
    · intro hstart
      have hdone := s.leaves_isDone c
      rw [show s.leaves c = .start from hstart] at hdone
      cases hdone
    · exact table_setCall (s := { s with resumes := _ }) hcall rfl
  | closing _ => exact ⟨hu, .inl rfl⟩
  | destroyed =>
    constructor
    · intro call hmem
      simp only [calls_cleanup] at hmem
      exact hu call hmem
    · exact .inr ⟨.failAll, moves_cleanup s _⟩

/-- **The channel is a correlation table** with threads, promises and coroutines around it. -/
theorem channel_refines_table (mode : ChannelMode) (parses : Nat → Bytes → Bool) :
    Simulation (system mode parses) (fun _ _ => True) Table.system
      fun s t => t = s.table ∧ s.Unregistered where
  init := ⟨rfl, fun _ h => absurd h List.not_mem_nil⟩
  step := by
    rintro s l s' t ⟨rfl, hu⟩ - hs
    obtain ⟨hu', hmoves⟩ := step_moves hu hs
    rcases hmoves with hsame | ⟨l', hstep⟩
    · exact ⟨[], s.table, rfl, hsame.symm, hu'⟩
    · refine ⟨[l'], s'.table, ?_, rfl, hu'⟩
      simp only [System.run, Table.system, hstep]

/-- Requests and responses of a channel are matched. -/
theorem matched_of_reachable {mode : ChannelMode} {parses : Nat → Bytes → Bool} {s : BinaryRpcChannel}
    (h : (system mode parses).Reachable s) : s.table.Matched := by
  obtain ⟨t, ht, rfl, -⟩ := (channel_refines_table mode parses).reaches h
  exact Table.matched_of_reachable ht

end BinaryRpcChannel

end Tudou
