import Tudou.Rpc.BinaryRpcChannel

/-!
# Which `CallMethod`s are completed, and which are stranded

* `MatchesCalls` — each call is completed at most once, with a response only by the first frame with its
  sequence id decoded after its registration; no frame completes two calls; a call that has returned has
  its response.
* `responses_match_calls` — **in any interleaving of callers, receiver, cleanups and the destructor, this
  holds at every moment exactly if no `resume()` that is left of an earlier call wakes a coroutine in a
  call that is still to be completed**; `return_without_response` is a run where one does.
* `Stranded` — the receiving side has stopped for good while a call waits, or goes on to wait, for a
  completion that nobody but the destructor will bring.
* `no_call_stranded` — **no call is stranded in runs in which no call registers after the last
  cleanup**; `call_after_eof_stranded` is one that does.
-/

namespace Tudou

open Transition Correlation

namespace BinaryRpcChannel

/-- Frame `i` is the first with the sequence id of the call that was decoded after its registration. -/
structure FirstFrame (s : BinaryRpcChannel) (call : Call) (i : Nat) (body : Bytes) : Prop where
  frame : s.frames[i]? = some (call.seq, body)
  first : ∃ n, call.registeredAt = some n ∧ n ≤ i ∧
    ∀ j f, n ≤ j → j < i → s.frames[j]? = some f → f.1 ≠ call.seq

/-- The channel's words for the first message of a request. -/
theorem firstFrame_of_firstMessage {s : BinaryRpcChannel} {c i : Nat} {body : Bytes}
    (h : s.table.FirstMessage c i body) : ∃ call, s.calls[c]? = some call ∧ s.FirstFrame call i body := by
  obtain ⟨r, n, hr, hfiled, hle, hm, hfirst⟩ := h.filed
  rw [table, List.getElem?_map] at hr
  obtain ⟨call, hcall, rfl⟩ := Option.map_eq_some_iff.mp hr
  exact ⟨call, hcall, hm, n, hfiled, hle, hfirst⟩

/-! ## Responses and calls that return -/

/-- Call `c` was completed with a response. -/
def Answered (s : BinaryRpcChannel) (c : Nat) : Prop :=
  ∃ r ∈ s.completions, r.call = c ∧ ∃ body, r.outcome = .ok body

theorem Answered.mono {s s' : BinaryRpcChannel} {c : Nat} (h : s.Answered c)
    (hc : ∀ r ∈ s.completions, r ∈ s'.completions) : s'.Answered c := by
  obtain ⟨r, hr, hok⟩ := h
  exact ⟨r, hc r hr, hok⟩

/-- A value in the promise of a call is the response of its completion. -/
theorem answered_of_outcomeOf {s : BinaryRpcChannel} {c : Nat} {body : Bytes}
    (h : s.outcomeOf c = some (.ok body)) : s.Answered c := by
  obtain ⟨r, hfind, hr⟩ := Option.map_eq_some_iff.mp h
  have hc : r.call = c := by simpa using List.find?_some hfind
  exact ⟨r, List.mem_of_find?_eq_some hfind, hc, body, hr⟩

/-- **A completed call that finds no exception in its context was answered.** -/
theorem answered_of_leaves {s : BinaryRpcChannel} {c : Nat}
    (hdone : ∃ r ∈ s.completions, r.call = c) (h : s.leaves c = .returned) : s.Answered c := by
  obtain ⟨r, hr, hc⟩ := hdone
  cases hout : s.outcomeOf c with
  | none =>
    rw [outcomeOf, Option.map_eq_none_iff, List.find?_eq_none] at hout
    exact absurd (by simpa using hc) (hout r hr)
  | some outcome =>
    cases outcome with
    | ok body => exact answered_of_outcomeOf hout
    | error what =>
      rw [leaves, hout] at h
      cases h

/-- A response was parsed from the body of its completion, and a queued `resume()` is for a completed
call. -/
structure Sound (parses : Nat → Bytes → Bool) (s : BinaryRpcChannel) : Prop where
  parsed : ∀ r ∈ s.completions, ∀ body, r.outcome = .ok body → parses r.call body
  resumes : ∀ p ∈ s.resumes, ∃ r ∈ s.completions, r.call = p.2

variable {mode : ChannelMode} {parses : Nat → Bytes → Bool}

theorem Sound.completes {s s' : BinaryRpcChannel} (h : Sound parses s) (hc : Completes parses s s') :
    Sound parses s' := by
  obtain ⟨new, hnew, hparses, hresumes⟩ := hc
  constructor
  · intro r hr
    rw [hnew] at hr
    rcases List.mem_append.mp hr with hr | hr
    · exact h.parsed r hr
    · exact hparses r hr
  · intro p hp
    rw [hnew]
    rcases hresumes p hp with hp | ⟨r, hr, hcall⟩
    · obtain ⟨r, hr, hcall⟩ := h.resumes p hp
      exact ⟨r, List.mem_append_left _ hr, hcall⟩
    · exact ⟨r, List.mem_append_right _ hr, hcall⟩

/-- A step that completes nothing. -/
theorem Sound.keep {s s' : BinaryRpcChannel} (h : Sound parses s) (hc : s'.completions = s.completions)
    (hr : ∀ p ∈ s'.resumes, p ∈ s.resumes) : Sound parses s' := by
  constructor
  · rw [hc]
    exact h.parsed
  · intro p hp
    rw [hc]
    exact h.resumes p (hr p hp)

theorem Sound.step {s s' : BinaryRpcChannel} {l : ChannelLabel} (h : Sound parses s)
    (hs : s.step mode parses l = some s') : Sound parses s' := by
  cases step_ends hs with
  | called _ => exact h.keep rfl fun _ hp => hp
  | caller _ hends =>
    cases hends with
    | registered _ _ | withdrawn _ _ | goesOn _ _ _ => exact h.keep rfl fun _ hp => hp
  | receiver hends => exact h.completes hends.completes
  | unheard | resumed _ _ _ => exact h.keep rfl fun _ hp => List.mem_of_mem_eraseIdx hp
  | closing _ => exact h.keep rfl fun _ hp => hp
  | destroyed => exact h.completes (.cleanup rfl rfl)

theorem sound_of_reachable {s : BinaryRpcChannel} (h : (system mode parses).Reachable s) :
    Sound parses s := by
  refine h.invariant ⟨?_, ?_⟩ fun _ _ _ hsound _ hs => hsound.step hs
  · intro r hr
    cases hr
  · intro p hp
    cases hp

/-- Every call that has returned has its response. -/
def ReturnsAnswered (s : BinaryRpcChannel) : Prop :=
  ∀ c call, s.calls[c]? = some call → call.pc = .returned → s.Answered c

/-- A `resume()` that is not for the call its coroutine is suspended in finds that call completed. -/
def WakesInTime (s : BinaryRpcChannel) : ChannelLabel → Prop
  | .resume k => ∀ p ∈ s.resumes[k]?, ∀ c ∈ s.suspendedIn p.1, c = p.2 ∨ ∃ r ∈ s.completions, r.call = c
  | _ => True

theorem ReturnsAnswered.keep {s s' : BinaryRpcChannel} (h : s.ReturnsAnswered) (hcalls : s'.calls = s.calls)
    (hc : ∀ r ∈ s.completions, r ∈ s'.completions) : s'.ReturnsAnswered := by
  intro c call hcall hpc
  rw [hcalls] at hcall
  exact (h c call hcall hpc).mono hc

/-- One call moves on. -/
theorem ReturnsAnswered.set {s s' : BinaryRpcChannel} (h : s.ReturnsAnswered) {c : Nat} {call : Call}
    (hcalls : s'.calls = s.calls.set c call) (hc : s'.completions = s.completions)
    (hreturned : call.pc = .returned → s.Answered c) : s'.ReturnsAnswered := by
  intro c' call' hcall hpc
  rw [hcalls] at hcall
  have hmono : s.Answered c' → s'.Answered c' := fun ha => ha.mono (by rw [hc]; exact fun _ hr => hr)
  by_cases heq : c = c'
  · subst heq
    have hlt := (List.getElem?_eq_some_iff.mp hcall).1
    rw [List.length_set] at hlt
    rw [List.getElem?_set_self hlt] at hcall
    cases hcall
    exact hmono (hreturned hpc)
  · rw [List.getElem?_set_ne heq] at hcall
    exact hmono (h c' call' hcall hpc)

theorem ReturnsAnswered.called {s : BinaryRpcChannel} (h : s.ReturnsAnswered) {call : Call}
    (hnew : call.pc = .start) (seq : UInt64) :
    ReturnsAnswered { s with nextSequenceId := seq, calls := s.calls ++ [call] } := by
  intro c call' hcall hpc
  by_cases hlt : c < s.calls.length
  · rw [List.getElem?_append_left hlt] at hcall
    exact h c call' hcall hpc
  · rw [List.getElem?_append_right (by omega)] at hcall
    have hlast := List.mem_of_getElem? hcall
    rw [List.mem_singleton.mp hlast, hnew] at hpc
    cases hpc

/-- A step that resumes a coroutine resumes it in the call it is suspended in. -/
theorem resumeCoroutine_of_suspendedIn {s : BinaryRpcChannel} {coro c : Nat} (account : Nat)
    (h : s.suspendedIn coro = some c) :
    ∃ call, s.calls[c]? = some call ∧
      s.resumeCoroutine coro account = s.setCall c { call with pc := s.leaves c, wokenBy := some account } := by
  obtain ⟨hlt, -, -⟩ := List.findIdx?_eq_some_iff_getElem.mp h
  have hcall := List.getElem?_eq_getElem hlt
  exact ⟨s.calls[c], hcall, by simp only [resumeCoroutine, h, hcall]⟩

/-- A loop runs a queued `resume()`. -/
theorem ReturnsAnswered.resume {s s' : BinaryRpcChannel} (h : s.ReturnsAnswered) (hsound : Sound parses s)
    {k : Nat} (hg : s.WakesInTime (.resume k)) (hs : s.step mode parses (.resume k) = some s') :
    s'.ReturnsAnswered := by
  simp only [BinaryRpcChannel.step] at hs
  split at hs
  · cases hs
  · rename_i coro account hk
    cases hs
    cases hsuspended : s.suspendedIn coro with
    | none =>
      have hnone : BinaryRpcChannel.resumeCoroutine { s with resumes := s.resumes.eraseIdx k } coro account =
          { s with resumes := s.resumes.eraseIdx k } := by
        unfold BinaryRpcChannel.resumeCoroutine
        rw [show BinaryRpcChannel.suspendedIn { s with resumes := s.resumes.eraseIdx k } coro = none
          from hsuspended]
      rw [hnone]
      exact h.keep rfl fun _ hr => hr
    | some c =>
      -- whichever call the `resume()` is for, the one it wakes has been completed
      have hdone : ∃ r ∈ s.completions, r.call = c := by
        rcases hg (coro, account) hk c hsuspended with rfl | hdone
        · exact hsound.resumes _ (List.mem_of_getElem? hk)
        · exact hdone
      obtain ⟨call, hcall, hset⟩ := resumeCoroutine_of_suspendedIn
        (s := { s with resumes := s.resumes.eraseIdx k }) account hsuspended
      rw [hset]
      exact h.set rfl rfl fun hpc => answered_of_leaves hdone hpc

/-- **Step lemma** for the calls that return. -/
theorem ReturnsAnswered.step {s s' : BinaryRpcChannel} {l : ChannelLabel} (h : s.ReturnsAnswered)
    (hsound : Sound parses s) (hg : s.WakesInTime l) (hs : s.step mode parses l = some s') :
    s'.ReturnsAnswered := by
  cases l with
  | resume k => exact h.resume hsound hg hs
  | call _ =>
    cases step_ends hs with
    | called _ _ => exact h.called rfl _
  | caller c l =>
    cases step_ends hs with
    | caller _ hends =>
      cases hends with
      | registered _ _ => exact h.set rfl rfl fun hpc => by cases hpc
      | withdrawn _ _ => exact h.set rfl rfl fun hpc => by cases hpc
      | goesOn pc _ hreturned =>
        refine h.set rfl rfl fun hpc => ?_
        obtain ⟨body, hok⟩ := hreturned hpc
        exact answered_of_outcomeOf hok
  | receiver _ =>
    cases step_ends hs with
    | receiver hends =>
      obtain ⟨new, hnew, -⟩ := hends.completes
      refine h.keep hends.calls fun r hr => ?_
      rw [hnew]
      exact List.mem_append_left _ hr
  | destroyBegin =>
    cases step_ends hs with
    | closing _ => exact h.keep rfl fun _ hr => hr
  | destroyEnd =>
    cases step_ends hs with
    | destroyed =>
      refine h.keep (calls_cleanup s _) fun r hr => ?_
      simp only [cleanup_eq]
      exact List.mem_append_left _ hr

/-- **The condition is exact**: a step that does not meet it ends with a call that has returned without
its response. -/
theorem wakesInTime_of_returnsAnswered {s s' : BinaryRpcChannel} {l : ChannelLabel}
    (hs : s.step mode parses l = some s') (h : s'.ReturnsAnswered) : s.WakesInTime l := by
  cases l with
  | resume k =>
    rintro ⟨coro, account⟩ hk c hsuspended
    simp only [BinaryRpcChannel.step, Option.mem_def.mp hk] at hs
    cases hs
    obtain ⟨call, hcall, hset⟩ := resumeCoroutine_of_suspendedIn
      (s := { s with resumes := s.resumes.eraseIdx k }) account hsuspended
    rw [hset] at h
    right
    by_contra hopen
    have hnone : s.outcomeOf c = none := by
      rw [outcomeOf, Option.map_eq_none_iff, List.find?_eq_none]
      intro r hr heq
      exact hopen ⟨r, hr, by simpa using heq⟩
    have hreturned : s.leaves c = .returned := by
      rw [leaves, hnone]
    obtain ⟨r, hr, hc, -⟩ := h c _ (List.getElem?_set_self (List.getElem?_eq_some_iff.mp hcall).1) hreturned
    exact hopen ⟨r, hr, hc⟩
  | call _ | caller _ _ | receiver _ | destroyBegin | destroyEnd => trivial

/-- **Responses are matched to calls.** -/
structure MatchesCalls (parses : Nat → Bytes → Bool) (s : BinaryRpcChannel) : Prop where
  once : (s.completions.map Completion.call).Nodup
  response : ∀ r ∈ s.completions, ∀ body, r.outcome = .ok body → parses r.call body ∧
    ∃ call i, s.calls[r.call]? = some call ∧ r.frame = some i ∧ s.FirstFrame call i body
  frameOnce : (s.completions.filterMap Completion.frame).Nodup
  returned : s.ReturnsAnswered

theorem matchesCalls_of_reachable {s : BinaryRpcChannel} (h : (system mode parses).Reachable s)
    (hreturned : s.ReturnsAnswered) : s.MatchesCalls parses := by
  have hmatched := matched_of_reachable h
  have hsound := sound_of_reachable h
  refine ⟨?_, ?_, ?_, hreturned⟩
  · have honce := hmatched.requestsOnce
    rw [table, List.map_map] at honce
    exact honce
  · intro r hr body hok
    refine ⟨hsound.parsed r hr body hok, ?_⟩
    have hcompleted := (hmatched.completed r.entry (List.mem_map_of_mem hr)).2
    cases hframe : r.frame with
    | none =>
      simp only [Completion.entry, hframe, hok] at hcompleted
      cases hcompleted
    | some i =>
      simp only [Completion.entry, hframe, hok] at hcompleted
      obtain ⟨payload, hfirst, hresult⟩ := hcompleted
      obtain ⟨call, hcall, hfirst⟩ := firstFrame_of_firstMessage hfirst
      have hpayload : payload = body := by
        rcases hresult with hnone | hsome
        · cases hnone
        · exact (Option.some.inj hsome).symm
      subst hpayload
      exact ⟨call, i, hcall, rfl, hfirst⟩
  · have honce := hmatched.messagesOnce
    rw [table, List.filterMap_map] at honce
    exact honce

/-- **Responses are matched to calls throughout a run exactly if every `resume()` in it wakes its coroutine
in time**: in the call it is for, or in one that has been completed. -/
theorem responses_match_calls (ls : List ChannelLabel) {s : BinaryRpcChannel}
    (hrun : (system mode parses).run create ls = some s) :
    (∀ n s', (system mode parses).run create (ls.take n) = some s' → s'.MatchesCalls parses) ↔
      (system mode parses).Admits WakesInTime create ls := by
  apply System.throughout_iff_admits
    (I := fun s => (system mode parses).Reachable s ∧ s.ReturnsAnswered) (P := MatchesCalls parses)
    _ _ _ ls _ hrun
  · rintro s ⟨hreach, hreturned⟩
    exact matchesCalls_of_reachable hreach hreturned
  · rintro s l s' ⟨hreach, hreturned⟩ hg hs
    exact ⟨hreach.step trivial hs, hreturned.step (sound_of_reachable hreach) hg hs⟩
  · intro s l s' _ hs hmatches
    exact wakesInTime_of_returnsAnswered hs hmatches.returned
  · refine ⟨.init, ?_⟩
    intro c call hcall
    cases hcall

instance (s : BinaryRpcChannel) : ∀ l, Decidable (s.WakesInTime l)
  | .resume k => inferInstanceAs (Decidable (∀ p ∈ s.resumes[k]?, ∀ c ∈ s.suspendedIn p.1,
      c = p.2 ∨ ∃ r ∈ s.completions, r.call = c))
  | .call _ | .caller _ _ | .receiver _ | .destroyBegin | .destroyEnd => inferInstanceAs (Decidable True)

/-- A small parser for one response. -/
def parsesSeven (_ : Nat) (body : Bytes) : Bool := body = [7]

/-- A coroutine and a thread call; the coroutine's response comes after a frame nobody waits for, and
then once more. -/
def coroutineAndThread : List ChannelLabel :=
  [.call (some 5), .caller 0 .register, .caller 0 (.encode none), .caller 0 (.send true), .call none,
    .caller 1 .register, .caller 1 (.encode none), .caller 1 (.send true),
    .receiver .check, .receiver .readData, .receiver .checkParse, .receiver (.frame 9 [1]),
    .receiver .checkParse, .receiver (.frame 2 [7]), .receiver .deliver, .receiver .checkParse,
    .receiver (.frame 1 [7]), .receiver .deliver, .receiver .checkParse, .receiver (.frame 1 [8]),
    .resume 0, .caller 1 .wake]

theorem responses_match_calls_coroutineAndThread :
    ∃ s, (system .loop parsesSeven).run create coroutineAndThread = some s ∧
      s.MatchesCalls parsesSeven ∧ s.Answered 0 ∧ s.Answered 1 := by
  obtain ⟨s, hs, ⟨coro, hcoro, hpc₀⟩, call, hcall, hpc₁⟩ :
      ∃ s ∈ (system .loop parsesSeven).run create coroutineAndThread,
        (∃ call ∈ s.calls[0]?, call.pc = .returned) ∧ ∃ call ∈ s.calls[1]?, call.pc = .returned := by
    decide
  have hg : (system .loop parsesSeven).Admits WakesInTime create coroutineAndThread := by decide
  have hmatches := (responses_match_calls coroutineAndThread hs).mpr hg coroutineAndThread.length s (by
    rw [List.take_length]
    exact hs)
  exact ⟨s, hs, hmatches, hmatches.returned 0 coro hcoro hpc₀, hmatches.returned 1 call hcall hpc₁⟩

/-- The peer answers a request of a coroutine on another loop before it is sent; its encoding fails, and
the coroutine calls again. -/
def staleResume : List ChannelLabel :=
  [.call (some 5), .caller 0 .register, .receiver .check, .receiver .readData, .receiver .checkParse,
    .receiver (.frame 1 [7]), .receiver .deliver, .caller 0 (.encode (some .request)), .caller 0 .rethrow,
    .call (some 5), .caller 1 .register, .caller 1 (.encode none), .caller 1 (.send true), .resume 0]

/-- **A call returns without its response**, woken by the `resume()` that is left of the call before. -/
theorem return_without_response :
    ¬ ∀ (mode : ChannelMode) (parses : Nat → Bytes → Bool) (s : BinaryRpcChannel),
      (system mode parses).Reachable s → s.MatchesCalls parses := by
  intro h
  obtain ⟨s, hs, hnone, call, hcall, hpc⟩ : ∃ s ∈ (system .loop parsesSeven).run create staleResume,
      (∀ r ∈ s.completions, r.call ≠ 1) ∧ ∃ call ∈ s.calls[1]?, call.pc = .returned := by decide
  obtain ⟨r, hr, hc, -⟩ := (h .loop parsesSeven s (.of_run _ hs)).returned 1 call hcall hpc
  exact hnone r hr hc

/-! ## Stranded calls -/

/-- The receiving side has stopped for good, and a pending call waits or goes on to wait. -/
def Stranded (s : BinaryRpcChannel) : Prop :=
  s.receiver = .stopped ∧ s.lifetime = .alive ∧ ∃ p ∈ s.pendingRequests, ∃ call,
    s.calls[p.2]? = some call ∧ (call.pc = .registered ∨ call.pc = .encoded ∨ call.pc = .waiting)

/-- No call passes its `running_` check after the last cleanup. -/
def InTime (s : BinaryRpcChannel) : ChannelLabel → Prop
  | .caller _ .register => s.running → s.receiver.isOver = false
  | _ => True

/-- After the last cleanup nothing is pending, and nothing is once `running_` is cleared. -/
structure Drained (s : BinaryRpcChannel) : Prop where
  drained : s.lifetime = .alive → s.receiver.isOver → s.pendingRequests = []
  cleared : s.lifetime = .alive → s.running = false → s.pendingRequests = []

theorem Drained.of_empty {s : BinaryRpcChannel} (h : s.pendingRequests = []) : Drained s :=
  ⟨fun _ _ => h, fun _ _ => h⟩

/-- Steps that register nothing and do not end the receiving side. -/
theorem Drained.keep {s s' : BinaryRpcChannel} (h : Drained s)
    (hpending : s.pendingRequests = [] → s'.pendingRequests = []) (hlife : s'.lifetime = s.lifetime)
    (hrunning : s'.running = s.running) (hover : s'.receiver.isOver → s.receiver.isOver) : Drained s' where
  drained := by
    intro halive hisover
    rw [hlife] at halive
    exact hpending (h.drained halive (hover hisover))
  cleared := by
    intro halive hcleared
    rw [hlife] at halive
    rw [hrunning] at hcleared
    exact hpending (h.cleared halive hcleared)

theorem erase_empty {pending : List (UInt64 × Nat)} (seq : UInt64) (h : pending = []) :
    erase pending seq = [] := by
  rw [h]
  rfl

theorem Drained.caller {s s' : BinaryRpcChannel} (h : Drained s) {c : Nat} {call : Call}
    {l : CallerLabel} (hg : InTime s (.caller c l)) (hs : CallerEnds s c call l s') : Drained s' := by
  cases hs with
  | registered _ hrunning =>
    have hnot := hg hrunning
    constructor
    · intro _ hover
      rw [hnot] at hover
      cases hover
    · intro _ hcleared
      rw [hrunning] at hcleared
      cases hcleared
  | withdrawn _ _ => exact h.keep (erase_empty call.seq) rfl rfl id
  | goesOn _ _ _ => exact h.keep id rfl rfl id

theorem Drained.receiver {s s' : BinaryRpcChannel} (h : Drained s) (hs : ReceiverEnds parses s s') :
    Drained s' := by
  cases hs with
  | goesOn r _ _ hover =>
    constructor
    · intro halive hisover
      rcases hover hisover with hisover | hcleared
      · exact h.drained halive hisover
      · -- a loop that ends because `running_` is cleared leaves nothing pending either
        exact h.cleared halive hcleared
    · exact h.cleared
  | clears r hcleaned _ =>
    have hnone : s.lifetime = .alive → s.pendingRequests = [] := by
      intro halive
      refine h.drained halive ?_
      rw [hcleaned]
      rfl
    exact ⟨fun halive _ => hnone halive, fun halive _ => hnone halive⟩
  | arrives seq body _ =>
    refine h.keep (erase_empty seq) rfl rfl fun hover => ?_
    simp only at hover
    split at hover <;> cases hover
  | delivers _ _ _ _ => exact h.keep id rfl rfl fun hover => by cases hover
  | fails _ _ _ => exact .of_empty rfl

theorem Drained.step {s s' : BinaryRpcChannel} {l : ChannelLabel} (h : Drained s) (hg : InTime s l)
    (hs : s.step mode parses l = some s') : Drained s' := by
  cases step_ends hs with
  | called _ => exact h.keep id rfl rfl id
  | caller _ hends => exact h.caller hg hends
  | receiver hends => exact h.receiver hends
  | unheard => exact h.keep id rfl rfl id
  | resumed _ _ _ => exact h.keep id rfl rfl id
  | closing _ =>
    constructor
    · intro halive
      cases halive
    · intro halive
      cases halive
  | destroyed => exact .of_empty rfl

/-- **No call is stranded** when no call registers after the last cleanup. -/
theorem no_call_stranded {s : BinaryRpcChannel} (h : (system mode parses).Reaches InTime s) :
    ¬ s.Stranded := by
  have hdrained : Drained s :=
    h.invariant (.of_empty rfl) fun _ _ _ hd hg hs => hd.step hg hs
  rintro ⟨hstopped, halive, p, hp, -⟩
  have hover : s.receiver.isOver = true := by
    rw [hstopped]
    rfl
  rw [hdrained.drained halive hover] at hp
  exact absurd hp List.not_mem_nil

instance (s : BinaryRpcChannel) : ∀ l, Decidable (InTime s l)
  | .caller _ .register =>
    inferInstanceAs (Decidable (s.running = true → s.receiver.isOver = false))
  | .caller _ (.encode _) | .caller _ (.send _) | .caller _ .rethrow | .caller _ .wake | .call _
  | .receiver _ | .resume _ | .destroyBegin | .destroyEnd => inferInstanceAs (Decidable True)

/-- One call waits when a bad frame comes; the next one finds the channel closed. -/
def badFrameThenCall : List ChannelLabel :=
  [.call none, .caller 0 .register, .caller 0 (.encode none), .caller 0 (.send true),
    .receiver .check, .receiver .readData, .receiver .checkParse, .receiver .badFrame,
    .receiver .tearDown, .receiver .check, .caller 0 .wake, .call none, .caller 1 .register]

theorem no_call_stranded_badFrameThenCall :
    ∃ s, (system .thread parsesSeven).run create badFrameThenCall = some s ∧
      s.receiver = .stopped ∧ ¬ s.Stranded := by
  obtain ⟨s, hs, hstopped⟩ : ∃ s ∈ (system .thread parsesSeven).run create badFrameThenCall,
      s.receiver = .stopped := by decide
  have hg : (system .thread parsesSeven).Admits InTime create badFrameThenCall := by decide
  exact ⟨s, hs, hstopped, no_call_stranded (.of_run _ hs hg)⟩

/-- The peer closes the connection; a call that comes later still passes the `running_` check. -/
def eofThenCall : List ChannelLabel :=
  [.receiver .check, .receiver .readEnd, .receiver .tearDown, .call none, .caller 0 .register,
    .caller 0 (.encode none), .caller 0 (.send true)]

/-- **A call after EOF in thread mode waits forever**: `receive_loop` has returned, but `running_` is
still set. -/
theorem call_after_eof_stranded :
    ∃ s, (system .thread parsesSeven).Reachable s ∧ s.running = true ∧ s.Stranded := by
  obtain ⟨s, hs, hrunning, hstopped, halive, p, hp, call, hcall, hpc⟩ :
      ∃ s ∈ (system .thread parsesSeven).run create eofThenCall, s.running = true ∧
        s.receiver = .stopped ∧ s.lifetime = .alive ∧ ∃ p ∈ s.pendingRequests,
          ∃ call ∈ s.calls[p.2]?, call.pc = .waiting := by decide
  exact ⟨s, .of_run _ hs, hrunning, hstopped, halive, p, hp, call, hcall, .inr (.inr hpc)⟩

end BinaryRpcChannel

end Tudou
