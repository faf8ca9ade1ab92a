import Tudou.Rpc.BinaryRpcLink
import Tudou.Rpc.FinishedCalls
import Tudou.Rpc.ReceiverThread

/-!
# A channel and its server at rest

Everything written has been read and decoded, and no service holds a `done`.  Which calls are then
completed, and which go on waiting?

* `Tracked` — a registered call that has not failed is pending, in the receiver's hand, or completed.
* `Kept` — the calls whose request is on the stream are tracked, and have left only if completed.
* `Unanswerable.step`, `waiting_of_unanswerable` — a call whose request cannot be answered goes on waiting,
  whatever comes, until a cleanup.
* `AtRest` — nothing is on its way and nothing broke off.
* `completed_iff_answerable` — **at rest a call is completed if and only if its request could be
  answered**: its service and method exist, its body parses and its service did not throw; **every other
  call waits, and no further steps wake it** while the receiver runs.
-/

namespace Tudou

open Framing Transition

namespace BinaryRpcChannel

variable {mode : ChannelMode} {parses : Nat → Bytes → Bool} {s s' : BinaryRpcChannel}

/-! ## Where a call is until it is completed -/

/-- Call `c` with sequence id `seq` is pending, its response is in hand, or it is completed. -/
inductive Tracked (s : BinaryRpcChannel) (c : Nat) (seq : UInt64) : Prop
  | pending (h : (seq, c) ∈ s.pendingRequests)
  | inHand (frame : Nat) (body : Bytes) (h : s.receiver.inHand = some (c, frame, body))
  | completed (h : ∃ r ∈ s.completions, r.call = c)

/-- Entries of a channel with fewer than 2⁶⁴ calls are found under the ids of their calls only. -/
theorem eq_of_pending (hr : (system mode parses).Reachable s) (hfew : s.calls.length < 2 ^ 64)
    {c : Nat} {call : Call} (hcall : s.calls[c]? = some call) {p : UInt64 × Nat}
    (hp : p ∈ s.pendingRequests) (hseq : p.1 = call.seq) : p.2 = c := by
  obtain ⟨r, n, hreq, hkey, -⟩ := ((matched_of_reachable hr).waiting p hp).filed
  obtain ⟨call', hcall', rfl⟩ := exists_call hreq
  exact (numbered_of_reachable hr).injective hfew hcall' hcall (Eq.trans hkey hseq)

theorem Tracked.same {c : Nat} {seq : UInt64} (h : Tracked s c seq)
    (hp : s'.pendingRequests = s.pendingRequests) (hin : s'.receiver.inHand = s.receiver.inHand)
    (hc : s'.completions = s.completions) : Tracked s' c seq := by
  cases h with
  | pending h => exact .pending (by rwa [hp])
  | inHand frame body h => exact .inHand frame body (by rwa [hin])
  | completed h => exact .completed (by rwa [hc])

/-- A cleanup completes what is pending. -/
theorem Tracked.cleanup {c : Nat} {seq : UInt64} (h : Tracked s c seq) (reason : String)
    (hc : s'.completions = (s.cleanupPendingRequests reason).completions)
    (hin : s'.receiver.inHand = s.receiver.inHand) : Tracked s' c seq := by
  rw [cleanup_eq] at hc
  cases h with
  | pending h =>
    refine .completed ⟨⟨c, none, .error reason⟩, ?_, rfl⟩
    rw [hc]
    exact List.mem_append_right _ (List.mem_map.mpr ⟨(seq, c), h, rfl⟩)
  | inHand frame body h => exact .inHand frame body (by rwa [hin])
  | completed h =>
    obtain ⟨r, hr, hcall⟩ := h
    exact .completed ⟨r, by rw [hc]; exact List.mem_append_left _ hr, hcall⟩

/-- An entry under another id is erased, or one is added. -/
theorem Tracked.erase {c : Nat} {seq seq' : UInt64} (h : Tracked s c seq) (hne : seq ≠ seq')
    (new : List (UInt64 × Nat))
    (hp : s'.pendingRequests = new ++ BinaryRpcChannel.erase s.pendingRequests seq')
    (hin : s'.receiver.inHand = s.receiver.inHand) (hc : s'.completions = s.completions) :
    Tracked s' c seq := by
  cases h with
  | pending h =>
    refine .pending ?_
    rw [hp]
    exact List.mem_append_right _ (List.mem_filter.mpr ⟨h, by simpa using hne⟩)
  | inHand frame body h => exact .inHand frame body (by rwa [hin])
  | completed h => exact .completed (by rwa [hc])

/-- **A tracked call stays tracked** as long as it does not fail. -/
theorem Tracked.step {l : ChannelLabel} (hr : (system mode parses).Reachable s)
    (hfew : s.calls.length < 2 ^ 64) {c : Nat} {call : Call} (hcall : s.calls[c]? = some call)
    (hnew : call.pc ≠ .start) (hfailed : ∀ what, call.pc ≠ .failed what) (h : Tracked s c call.seq)
    (hs : s.step mode parses l = some s') : Tracked s' c call.seq := by
  have other : ∀ {d : Nat} {call' : Call}, s.calls[d]? = some call' → call'.pc ≠ call.pc →
      call.seq ≠ call'.seq := by
    intro d call' hd hpc hseq
    obtain rfl := (numbered_of_reachable hr).injective hfew hcall hd hseq
    cases hcall.symm.trans hd
    exact hpc rfl
  cases step_ends hs with
  | called _ _ => exact h.same rfl rfl rfl
  | caller hd hends =>
    cases hends with
    | registered hpc _ =>
      refine h.erase (other hd ?_) [(_, _)] rfl rfl rfl
      rw [hpc]
      exact hnew.symm
    | withdrawn what hpc =>
      refine h.erase (other hd ?_) [] rfl rfl rfl
      rw [hpc]
      exact (hfailed what).symm
    | goesOn _ _ _ _ _ => exact h.same rfl rfl rfl
  | receiver hends =>
    cases hends with
    | goesOn r hnone hin _ => exact h.same rfl (hin.trans hnone.symm) rfl
    | clears r hcleaned hin => exact h.same rfl (by rw [hcleaned]; exact hin) rfl
    | arrives seq body hdecoding =>
      cases h with
      | inHand frame body' hin =>
        rw [hdecoding] at hin
        cases hin
      | completed hdone => exact .completed hdone
      | pending hp =>
        by_cases hseq : call.seq = seq
        · -- the entry that is found is the call's own
          cases hfind : s.pendingRequests.find? fun p => p.1 = seq with
          | none =>
            have hnone := List.find?_eq_none.mp hfind _ hp
            simp [hseq] at hnone
          | some p =>
            have hp1 : p.1 = seq := by simpa using List.find?_some hfind
            have hp2 := eq_of_pending hr hfew hcall (List.mem_of_find?_eq_some hfind)
              (hp1.trans hseq.symm)
            refine .inHand s.frames.length body ?_
            simp only [Receiver.inHand, hp2]
        · refine .pending (List.mem_filter.mpr ⟨hp, ?_⟩)
          simpa using hseq
    | delivers c' frame body hdelivering =>
      cases h with
      | pending hp => exact .pending hp
      | inHand frame' body' hin =>
        rw [hdelivering] at hin
        cases hin
        exact .completed ⟨_, List.mem_append_right _ (List.mem_singleton_self _), rfl⟩
      | completed hdone =>
        obtain ⟨r, hrmem, hrc⟩ := hdone
        exact .completed ⟨r, List.mem_append_left _ hrmem, hrc⟩
    | fails reason _ hnone => exact h.cleanup reason rfl hnone.symm
  | unheard => exact h.same rfl rfl rfl
  | resumed _ _ _ _ => exact h.same rfl rfl rfl
  | closing _ => exact h.same rfl rfl rfl
  | destroyed => exact h.cleanup _ rfl (by rw [receiver_cleanup])

/-- The number of calls never falls. -/
theorem length_le_of_step {l : ChannelLabel} (hs : s.step mode parses l = some s') :
    s.calls.length ≤ s'.calls.length := by
  rcases step_length hs with ⟨hlen, -⟩ | ⟨_, -, -, hcalls⟩
  · omega
  · rw [hcalls, List.length_append]
    omega

/-- **A call that has registered and not gone on is tracked.** -/
theorem tracked_of_reachable (hr : (system mode parses).Reachable s) (hfew : s.calls.length < 2 ^ 64)
    {c : Nat} {call : Call} (hcall : s.calls[c]? = some call)
    (hpc : call.pc = .registered ∨ call.pc = .encoded) : Tracked s c call.seq := by
  induction hr generalizing call with
  | init => cases hcall
  | @step s s' l hr _ hstep ih =>
    have hs : s.step mode parses l = some s' := hstep
    have hfew' := Nat.lt_of_le_of_lt (length_le_of_step hs) hfew
    -- the call was there before the step
    have hlt : c < s.calls.length := by
      rcases step_length hs with ⟨hlen, -⟩ | ⟨_, -, -, hcalls⟩
      · rw [← hlen]
        exact (List.getElem?_eq_some_iff.mp hcall).1
      · by_contra hge
        rw [hcalls, List.getElem?_append_right (by omega)] at hcall
        rw [List.mem_singleton.mp (List.mem_of_getElem? hcall)] at hpc
        rcases hpc with h | h <;> cases h
    have hget := List.getElem?_eq_getElem hlt
    obtain ⟨call', hcall', hlater, hmoved⟩ := step_call hs hget
    cases hcall'.symm.trans hcall
    have htracked : (s.calls[c].pc = .registered ∨ s.calls[c].pc = .encoded) → Tracked s' c call.seq := by
      intro hbefore
      rw [hlater.seq]
      refine (ih hfew' hget hbefore).step hr hfew' hget ?_ ?_ hs
      · rcases hbefore with h | h <;> simp [h]
      · rcases hbefore with h | h <;> simp [h]
    rcases hmoved with hsame | ⟨hwaiting, -⟩ | ⟨l', rfl, -⟩
    · rw [hsame] at hpc
      exact htracked hpc
    · have hle := hlater.stage_le
      rcases hpc with h | h <;> simp [h, hwaiting, CallPc.stage] at hle
    · -- a step of the call's own: it registered, or it was registered before
      simp only [step, hget] at hs
      cases l' with
      | register =>
        simp only [callerStep] at hs
        split at hs
        · split at hs
          · cases hs
            refine .pending ?_
            rw [hlater.seq]
            exact List.mem_cons_self
          · cases hs
            rw [setCall, List.getElem?_set_self hlt] at hcall
            cases hcall
            rcases hpc with h | h <;> cases h
        · cases hs
      | encode error =>
        simp only [callerStep] at hs
        split at hs
        · exact htracked (.inl (by assumption))
        · cases hs
      | send ok =>
        have hsend : s.step mode parses (.caller c (.send ok)) = some s' := hstep
        obtain ⟨call'', hcall'', h3⟩ := step_send hsend
        cases hcall.symm.trans hcall''
        rcases hpc with h | h <;> simp [h, CallPc.stage] at h3
      | rethrow =>
        simp only [callerStep] at hs
        split at hs
        · rename_i what hbefore
          have hle := hlater.stage_le
          rcases hpc with h | h <;> simp [h, hbefore, CallPc.stage] at hle
        · cases hs
      | wake =>
        simp only [callerStep] at hs
        split at hs
        · rename_i body hbefore _ _
          have hle := hlater.stage_le
          rcases hpc with h | h <;> simp [h, hbefore, CallPc.stage] at hle
        · rename_i what hbefore _ _
          have hle := hlater.stage_le
          rcases hpc with h | h <;> simp [h, hbefore, CallPc.stage] at hle
        · cases hs

/-! ## Thread mode -/

/-- No call of a channel in thread mode is on the coroutine path. -/
theorem coroutine_of_reachable (hr : (system .thread parses).Reachable s) :
    ∀ call ∈ s.calls, call.coroutine = none := by
  refine hr.invariant (I := fun s => ∀ call ∈ s.calls, call.coroutine = none)
    (fun _ h => absurd h List.not_mem_nil) fun s l s' hnone _ hstep => ?_
  have hs : s.step .thread parses l = some s' := hstep
  intro call' hmem
  obtain ⟨c, hcall'⟩ := List.mem_iff_getElem?.mp hmem
  by_cases hlt : c < s.calls.length
  · obtain ⟨call'', hget, hlater, -⟩ := step_call hs (List.getElem?_eq_getElem hlt)
    cases hget.symm.trans hcall'
    rw [hlater.coroutine]
    exact hnone _ (List.getElem_mem hlt)
  · rcases step_length hs with ⟨hlen, -⟩ | ⟨_, -, -, hcalls⟩
    · have hlt' := (List.getElem?_eq_some_iff.mp hcall').1
      omega
    · rw [hcalls, List.getElem?_append_right (by omega)] at hcall'
      rw [List.mem_singleton.mp (List.mem_of_getElem? hcall')]
      rfl

/-- Completions are only added. -/
theorem completions_of_step {l : ChannelLabel} (hs : s.step mode parses l = some s') :
    s.completions ⊆ s'.completions := by
  have hcleanup : ∀ reason, s.completions ⊆ (s.cleanupPendingRequests reason).completions := by
    intro reason
    rw [cleanup_eq]
    exact List.subset_append_left _ _
  cases step_ends hs with
  | called _ _ | unheard | resumed _ _ _ _ | closing _ => exact List.Subset.refl _
  | caller _ h =>
    cases h with
    | registered _ _ | withdrawn _ _ | goesOn _ _ _ _ _ => exact List.Subset.refl _
  | receiver h =>
    cases h with
    | goesOn _ _ _ _ | clears _ _ _ | arrives _ _ _ => exact List.Subset.refl _
    | delivers _ _ _ _ => exact List.subset_append_left _ _
    | fails reason _ _ => exact hcleanup reason
  | destroyed => exact hcleanup _

/-- Once the receiver is past its last cleanup it stays so, or `running_` is cleared. -/
theorem step_over {l : ChannelLabel} (hs : s.step .thread parses l = some s')
    (h : s.receiver.isOver = true ∨ s.running = false) :
    s'.receiver.isOver = true ∨ s'.running = false := by
  rcases h with hover | hstopped
  swap
  · exact .inr (step_running hs hstopped)
  by_cases hl : ∃ l', l = .receiver l'
  swap
  · rw [step_receiver hs fun l' heq => hl ⟨l', heq⟩]
    exact .inl hover
  obtain ⟨l', rfl⟩ := hl
  cases hrec : s.receiver with
  | idle | reading | parsing | decoding | delivering _ _ _ =>
    rw [hrec] at hover
    cases hover
  | cleaned clears =>
    simp only [step] at hs
    split at hs
    · cases hs
    · cases l' with
      | tearDown =>
        simp only [receiverStep, hrec] at hs
        cases clears with
        | false =>
          cases hs
          exact .inl rfl
        | true =>
          cases hs
          exact .inr rfl
      | check | readData | readRetry | readEnd | checkParse | deliver | halfPack | badFrame =>
        simp [receiverStep, hrec] at hs
      | frame seq body => simp [receiverStep, hrec] at hs
      | writeError connecting => simp [receiverStep] at hs
  | stopped =>
    simp only [step] at hs
    split at hs
    · cases hs
    · cases l' with
      | check | readData | readRetry | readEnd | checkParse | deliver | halfPack | badFrame | tearDown =>
        simp [receiverStep, hrec] at hs
      | frame seq body => simp [receiverStep, hrec] at hs
      | writeError connecting => simp [receiverStep] at hs

/-- **Only a cleanup completes a call without a frame**, and after one the receiver is over. -/
theorem over_of_failed (hr : (system .thread parses).Reachable s)
    (h : ∃ r ∈ s.completions, r.frame = none) : s.receiver.isOver = true ∨ s.running = false := by
  refine hr.invariant (I := fun s => (∃ r ∈ s.completions, r.frame = none) →
    s.receiver.isOver = true ∨ s.running = false) ?_ (fun s l s' hover _ hstep => ?_) h
  · rintro ⟨r, hr, -⟩
    cases hr
  have hs : s.step .thread parses l = some s' := hstep
  rintro ⟨r, hr, hnone⟩
  by_cases hold : ∃ r ∈ s.completions, r.frame = none
  · exact step_over hs (hover hold)
  -- the completion is new
  have hnew : s'.completions = s.completions → s'.receiver.isOver = true ∨ s'.running = false := by
    intro hsame
    rw [hsame] at hr
    exact absurd ⟨r, hr, hnone⟩ hold
  cases l with
  | receiver l =>
    cases step_ends hs with
    | receiver hends =>
      cases hends with
      | goesOn _ _ _ _ | clears _ _ _ | arrives _ _ _ => exact hnew rfl
      | delivers c frame body _ =>
        rcases List.mem_append.mp hr with hr | hr
        · exact absurd ⟨r, hr, hnone⟩ hold
        · rw [List.mem_singleton.mp hr] at hnone
          cases hnone
      | fails _ _ _ => exact .inl rfl
  | caller c l =>
    cases step_ends hs with
    | caller _ hends =>
      cases hends with
      | registered _ _ | withdrawn _ _ | goesOn _ _ _ _ _ => exact hnew rfl
  | call coroutine =>
    cases step_ends hs with
    | called _ _ => exact hnew rfl
  | resume k =>
    cases step_ends hs with
    | unheard => exact hnew rfl
    | resumed _ _ _ _ => exact hnew rfl
  | destroyBegin =>
    cases step_ends hs with
    | closing _ => exact hnew rfl
  | destroyEnd =>
    obtain ⟨-, hstopped⟩ := destroyEnd_ends hs
    cases step_ends hs with
    | destroyed =>
      refine .inl ?_
      simp only [receiver_cleanup, hstopped]
      rfl

/-- A call whose request is on the stream: it is tracked, and has left only if it is completed. -/
structure KeptCall (s : BinaryRpcChannel) (c : Nat) (call : Call) : Prop where
  tracked : Tracked s c call.seq
  left : call.pc = .encoded ∨ call.pc = .waiting ∨
    call.pc.isDone = true ∧ ∃ r ∈ s.completions, r.call = c

theorem KeptCall.pc (h : KeptCall s c call) : call.pc ≠ .start ∧ ∀ what, call.pc ≠ .failed what := by
  rcases h.left with hpc | hpc | ⟨hdone, -⟩
  · simp [hpc]
  · simp [hpc]
  · constructor
    · intro hpc
      rw [hpc] at hdone
      cases hdone
    · intro what hpc
      rw [hpc] at hdone
      cases hdone

/-- **Such a call stays kept**, whatever step comes but a write of its own that fails. -/
theorem KeptCall.step {l : ChannelLabel} {c : Nat} {call call' : Call}
    (hr : (system .thread parses).Reachable s) (hfew : s.calls.length < 2 ^ 64) (h : KeptCall s c call)
    (hcall : s.calls[c]? = some call) (hs : s.step .thread parses l = some s')
    (hcall' : s'.calls[c]? = some call') (hl : l ≠ .caller c (.send false)) : KeptCall s' c call' := by
  obtain ⟨call'', hget, hlater, hmoved⟩ := step_call hs hcall
  cases hget.symm.trans hcall'
  obtain ⟨hnew, hfailed⟩ := h.pc
  have hmono := completions_of_step hs
  refine ⟨?_, ?_⟩
  · rw [hlater.seq]
    exact h.tracked.step hr hfew hcall hnew hfailed hs
  rcases hmoved with rfl | ⟨-, hcoro⟩ | ⟨l', rfl, hsend⟩
  · exact h.left.imp_right (Or.imp_right fun ⟨hdone, r, hrmem, hrc⟩ => ⟨hdone, r, hmono hrmem, hrc⟩)
  · exact absurd (coroutine_of_reachable hr call (List.mem_of_getElem? hcall)) hcoro
  -- a step of the call's own: its write, or `future.get()`
  have hlt := (List.getElem?_eq_some_iff.mp hcall).1
  simp only [BinaryRpcChannel.step, hcall] at hs
  rcases h.left with hpc | hpc | ⟨hdone, r, hrmem, hrc⟩
  · obtain ⟨ok, rfl⟩ := hsend hpc
    cases ok with
    | false => exact absurd rfl hl
    | true =>
      simp only [callerStep, hpc] at hs
      cases hs
      rw [setCall, List.getElem?_set_self hlt] at hcall'
      cases hcall'
      exact .inr (.inl rfl)
  · have completed : ∀ {outcome}, s.outcomeOf c = some outcome → ∃ r ∈ s.completions, r.call = c := by
      intro outcome hout
      obtain ⟨r, hfind, -⟩ := Option.map_eq_some_iff.mp hout
      exact ⟨r, List.mem_of_find?_eq_some hfind, by simpa using List.find?_some hfind⟩
    cases l' with
    | register | rethrow => simp [callerStep, hpc] at hs
    | encode error => simp [callerStep, hpc] at hs
    | send ok => simp [callerStep, hpc] at hs
    | wake =>
      simp only [callerStep] at hs
      split at hs
      · rename_i hout
        cases hs
        rw [setCall, List.getElem?_set_self hlt] at hcall'
        cases hcall'
        exact .inr (.inr ⟨rfl, completed hout⟩)
      · rename_i hout
        cases hs
        rw [setCall, List.getElem?_set_self hlt] at hcall'
        cases hcall'
        exact .inr (.inr ⟨rfl, completed hout⟩)
      · cases hs
  · rcases hlater.stage with rfl | hlt'
    · exact .inr (.inr ⟨hdone, r, hmono hrmem, hrc⟩)
    · -- a call that has left is at the last stage
      have hlast : call.pc.stage = 4 := by
        cases hpc : call.pc with
        | returned | threw what => rfl
        | start | registered | encoded | failed what | waiting =>
          rw [hpc] at hdone
          cases hdone
      have hle : call'.pc.stage ≤ 4 := by cases call'.pc <;> simp [CallPc.stage]
      omega

end BinaryRpcChannel

/-! ## The calls on the stream -/

namespace BinaryRpcLink

open BinaryRpcServer (OpenAt Received Accepted Accounts)
open BinaryRpcChannel (KeptCall)

variable {cl : RpcClient} {env : RpcServices} {a : Nat} {s s' : BinaryRpcLink}

/-- The frame of `p` broke off, or nothing of it went out. -/
def Broken (s : BinaryRpcLink) (p : Nat × RpcCall) : Prop :=
  s.unsent ≠ [] ∧ s.writing = none ∧ s.started.getLast? = some p

/-- Every call whose frame is on the stream and did not break off is kept. -/
def Kept (s : BinaryRpcLink) : Prop :=
  ∀ p ∈ s.started, ¬ s.Broken p → ∃ call, s.client.calls[p.1]? = some call ∧ KeptCall s.client p.1 call

/-- A step of the channel for one call of the stream. -/
theorem keptCall_step (h : Requests cl s) {l : ChannelLabel} {client : BinaryRpcChannel}
    (hs : s.client.step .thread cl.parses l = some client) {c : Nat}
    (hc : ∃ call, s.client.calls[c]? = some call ∧ KeptCall s.client c call)
    (hl : l ≠ .caller c (.send false)) :
    ∃ call, client.calls[c]? = some call ∧ KeptCall client c call := by
  obtain ⟨call, hcall, hkept⟩ := hc
  obtain ⟨call', hcall', -⟩ := BinaryRpcChannel.step_call hs hcall
  exact ⟨call', hcall', hkept.step h.client h.few hcall hs hcall' hl⟩

/-- A step of the channel that is no failed write, in a link whose stream it does not touch. -/
theorem Kept.client_step (hk : s.Kept) (h : Requests cl s) {l : ChannelLabel} {client : BinaryRpcChannel}
    (hs : s.client.step .thread cl.parses l = some client) (hl : ∀ c, l ≠ .caller c (.send false))
    (hclient : s'.client = client) (hstarted : s'.started = s.started)
    (hbroken : ∀ p, s.Broken p → s'.Broken p) : s'.Kept := by
  intro p hp hnot
  rw [hstarted] at hp
  rw [hclient]
  exact keptCall_step h hs (hk p hp fun hb => hnot (hbroken p hb)) (hl p.1)

/-- The entry of the writer is the last on the stream. -/
theorem eq_last_of_fst (h : Requests cl s) {c : Nat} (hc : s.writing = some c) {p : Nat × RpcCall}
    (hp : p ∈ s.started) (hpc : p.1 = c) : s.started.getLast? = some p := by
  obtain ⟨call, before, hcall, -, hstarted⟩ := h.writing c hc
  obtain ⟨call', hcall', hask, -⟩ := h.started p hp
  rw [hpc] at hcall' hask
  cases hcall.symm.trans hcall'
  rw [hstarted, List.getLast?_append_of_ne_nil _ (by simp)]
  exact congrArg some (Prod.ext hpc.symm hask.symm)

/-- **The calls on the stream stay kept.** -/
theorem Kept.step {l : LinkLabel} (hk : s.Kept) (h : Requests cl s) (hg : Orderly a s l)
    (hs : BinaryRpcLink.step cl env a s l = some s') : s'.Kept := by
  cases l with
  | client l =>
    simp only [BinaryRpcLink.step] at hs
    split at hs
    · rename_i hlocal
      obtain ⟨client, hclient, rfl⟩ := clientStep_some hs
      refine hk.client_step h hclient ?_ rfl rfl fun _ hb => hb
      rintro c rfl
      cases hlocal
    · cases hs
  | lock c =>
    simp only [BinaryRpcLink.step] at hs
    split at hs
    · rename_i call hw hcall
      split at hs
      · rename_i hpc
        cases hs
        intro p hp _
        rcases List.mem_append.mp hp with hp | hp
        · exact hk p hp fun hb => hb.1 hg
        · rw [List.mem_singleton.mp hp]
          exact ⟨call, hcall, BinaryRpcChannel.tracked_of_reachable h.client h.few hcall (.inr hpc), .inl hpc⟩
      · cases hs
    · cases hs
  | write n =>
    simp only [BinaryRpcLink.step] at hs
    split at hs
    · rename_i hcan
      cases hs
      intro p hp _
      exact hk p hp fun hb => hcan.1 hb.2.1
    · cases hs
  | sent =>
    simp only [BinaryRpcLink.step] at hs
    split at hs
    · cases hs
    · rename_i c hc
      split at hs
      · obtain ⟨client, hclient, rfl⟩ := clientStep_some hs
        refine hk.client_step h hclient (fun d hd => by cases hd) rfl rfl ?_
        rintro p ⟨-, hw, -⟩
        rw [hc] at hw
        cases hw
      · cases hs
  | writeFails =>
    simp only [BinaryRpcLink.step] at hs
    split at hs
    · rename_i c last hc hlast
      -- before the failure nothing is broken
      have hbefore : ∀ p ∈ s.started, ∃ call, s.client.calls[p.1]? = some call ∧
          KeptCall s.client p.1 call := by
        intro p hp
        refine hk p hp ?_
        rintro ⟨-, hw, -⟩
        rw [hc] at hw
        cases hw
      split at hs
      · cases hs
      · rename_i hunsent
        split at hs
        · obtain ⟨client, hclient, rfl⟩ := clientStep_some hs
          intro p hp _
          have hp' : p ∈ s.started := List.dropLast_subset s.started hp
          refine keptCall_step h hclient (hbefore p hp') ?_
          intro heq
          cases heq
          -- the writer's entry is the one that was dropped
          have hpl := eq_last_of_fst h hc hp' rfl
          have hdistinct := h.distinct
          rw [← List.dropLast_append_getLast? p hpl, List.map_append, List.nodup_append] at hdistinct
          exact hdistinct.2.2 p.1 (List.mem_map_of_mem hp) p.1 (List.mem_singleton_self _) rfl
        · obtain ⟨client, hclient, rfl⟩ := clientStep_some hs
          intro p hp hnot
          refine keptCall_step h hclient (hbefore p hp) ?_
          intro heq
          cases heq
          exact hnot ⟨hunsent, rfl, eq_last_of_fst h hc hp rfl⟩
    · cases hs
  | deliver n answers =>
    simp only [BinaryRpcLink.step] at hs
    split at hs
    · obtain ⟨server, hserver, rfl⟩ := serverStep_some hs
      exact hk
    · cases hs
  | server l =>
    simp only [BinaryRpcLink.step] at hs
    split at hs
    · cases hs
    · obtain ⟨server, hserver, rfl⟩ := serverStep_some hs
      exact hk
  | read n =>
    simp only [BinaryRpcLink.step] at hs
    split at hs
    · cases hs
    · obtain ⟨client, hclient, rfl⟩ := clientStep_some hs
      exact hk.client_step h hclient (fun c hc => by cases hc) rfl rfl fun _ hb => hb
  | decode =>
    simp only [BinaryRpcLink.step] at hs
    split at hs
    · obtain ⟨client, hclient, rfl⟩ := clientStep_some hs
      exact hk.client_step h hclient (fun c hc => by cases hc) rfl rfl fun _ hb => hb
    · obtain ⟨client, hclient, rfl⟩ := clientStep_some hs
      exact hk.client_step h hclient (fun c hc => by cases hc) rfl rfl fun _ hb => hb
    · obtain ⟨client, hclient, rfl⟩ := clientStep_some hs
      exact hk.client_step h hclient (fun c hc => by cases hc) rfl rfl fun _ hb => hb

/-! ## What is pending has not been answered -/

/-- No frame with the id of a pending call has been decoded. -/
def Unanswered (s : BinaryRpcChannel) : Prop := ∀ p ∈ s.pendingRequests, ∀ f ∈ s.frames, f.1 ≠ p.1

/-- A response is decoded only for a call that is past its registration. -/
theorem frame_of_asked (h : Sound cl env a s) (hu : cl.Understood env) {f : UInt64 × Bytes}
    (hf : f ∈ s.client.frames) :
    ∃ (c : Nat) (call : Call), s.client.calls[c]? = some call ∧ f.1 = call.seq ∧ 2 ≤ call.pc.stage := by
  obtain ⟨i, q, response, hq, hconn, rfl, -⟩ := h.answer_of_frame hf
  obtain ⟨c, call, hcall, hask, hstage⟩ := h.asked hu (List.mem_of_getElem? hq) hconn
  exact ⟨c, call, hcall, by rw [hask]; rfl, hstage⟩

theorem Unanswered.of_subset {c c' : BinaryRpcChannel} (h : Unanswered c)
    (hp : ∀ p ∈ c'.pendingRequests, p ∈ c.pendingRequests) (hf : c'.frames = c.frames) : Unanswered c' := by
  intro p hpmem f hfmem
  rw [hf] at hfmem
  exact h p (hp p hpmem) f hfmem

theorem Unanswered.of_empty {c : BinaryRpcChannel} (h : c.pendingRequests = []) : Unanswered c := by
  intro p hp
  rw [h] at hp
  cases hp

/-- **Every step of the channel keeps pending calls unanswered.** -/
theorem Unanswered.step {l : ChannelLabel} {client : BinaryRpcChannel} (h : Unanswered s.client)
    (hsound : Sound cl env a s) (hu : cl.Understood env)
    (hs : s.client.step .thread cl.parses l = some client) : Unanswered client := by
  have hnumbered := BinaryRpcChannel.numbered_of_reachable hsound.requests.client
  cases BinaryRpcChannel.step_ends hs with
  | called _ _ => exact h.of_subset (fun _ hp => hp) rfl
  | @caller c call _ _ hcall hends =>
    cases hends with
    | registered hpc _ =>
      intro p hp f hf
      rcases List.mem_cons.mp hp with rfl | hp
      · -- the call has only now registered, so no response can be for it
        obtain ⟨d, call', hcall', hseq, hstage⟩ := frame_of_asked hsound hu hf
        intro heq
        obtain rfl := hnumbered.injective hsound.requests.few hcall' hcall (hseq.symm.trans heq)
        cases hcall.symm.trans hcall'
        rw [hpc] at hstage
        simp [CallPc.stage] at hstage
      · exact h p (List.mem_of_mem_filter hp) f hf
    | withdrawn _ _ => exact h.of_subset (fun _ hp => List.mem_of_mem_filter hp) rfl
    | goesOn _ _ _ _ _ => exact h.of_subset (fun _ hp => hp) rfl
  | receiver hends =>
    cases hends with
    | goesOn _ _ _ _ | clears _ _ _ | delivers _ _ _ _ => exact h.of_subset (fun _ hp => hp) rfl
    | arrives seq body _ =>
      intro p hp f hf
      obtain ⟨hp, hne⟩ := List.mem_filter.mp hp
      rcases List.mem_append.mp hf with hf | hf
      · exact h p hp f hf
      · rw [List.mem_singleton.mp hf]
        have hne : p.1 ≠ seq := by simpa using hne
        exact hne.symm
    | fails _ _ _ => exact .of_empty rfl
  | unheard => exact h.of_subset (fun _ hp => hp) rfl
  | resumed _ _ _ _ => exact h.of_subset (fun _ hp => hp) rfl
  | closing _ => exact h.of_subset (fun _ hp => hp) rfl
  | destroyed => exact .of_empty rfl

/-! ## Runs -/

/-- Requests of the connection are settled as long as it is open. -/
theorem accounts_step {server server' : BinaryRpcServer} {l : RpcServerLabel}
    (h : Accounts env a 0 server) (hl : l ≠ .lifecycle (.connect a))
    (hs : server.step env l = some server') : Accounts env a 0 server' := by
  by_cases hopen : OpenAt a server
  · exact h.step hopen hs
  · exact ⟨h.ledger.step hs, fun hopen' => absurd (BinaryRpcServer.openAt_of_step hs hl hopen') hopen⟩

/-- The invariant of the link with what it says of single calls and requests. -/
structure Accounted (cl : RpcClient) (env : RpcServices) (a : Nat) (s : BinaryRpcLink) : Prop where
  sound : Sound cl env a s
  kept : s.Kept
  unanswered : Unanswered s.client
  accounts : Accounts env a 0 s.server

/-- What a step of the link does to its two ends. -/
theorem ends_of_step {l : LinkLabel} (hg : Orderly a s l)
    (hs : BinaryRpcLink.step cl env a s l = some s') :
    (s'.client = s.client ∨ ∃ l', s.client.step .thread cl.parses l' = some s'.client) ∧
      (s'.server = s.server ∨
        ∃ l', l' ≠ .lifecycle (.connect a) ∧ s.server.step env l' = some s'.server) := by
  cases l with
  | client l =>
    simp only [BinaryRpcLink.step] at hs
    split at hs
    · obtain ⟨client, hclient, rfl⟩ := clientStep_some hs
      exact ⟨.inr ⟨l, hclient⟩, .inl rfl⟩
    · cases hs
  | lock c =>
    simp only [BinaryRpcLink.step] at hs
    split at hs
    · split at hs
      · cases hs
        exact ⟨.inl rfl, .inl rfl⟩
      · cases hs
    · cases hs
  | write n =>
    simp only [BinaryRpcLink.step] at hs
    split at hs
    · cases hs
      exact ⟨.inl rfl, .inl rfl⟩
    · cases hs
  | sent =>
    simp only [BinaryRpcLink.step] at hs
    split at hs
    · cases hs
    · split at hs
      · obtain ⟨client, hclient, rfl⟩ := clientStep_some hs
        exact ⟨.inr ⟨_, hclient⟩, .inl rfl⟩
      · cases hs
  | writeFails =>
    simp only [BinaryRpcLink.step] at hs
    split at hs
    · split at hs
      · cases hs
      · split at hs
        · obtain ⟨client, hclient, rfl⟩ := clientStep_some hs
          exact ⟨.inr ⟨_, hclient⟩, .inl rfl⟩
        · obtain ⟨client, hclient, rfl⟩ := clientStep_some hs
          exact ⟨.inr ⟨_, hclient⟩, .inl rfl⟩
    · cases hs
  | deliver n answers =>
    simp only [BinaryRpcLink.step] at hs
    split at hs
    · obtain ⟨server, hserver, rfl⟩ := serverStep_some hs
      exact ⟨.inl rfl, .inr ⟨_, fun hl => (by cases hl), hserver⟩⟩
    · cases hs
  | server l =>
    simp only [BinaryRpcLink.step] at hs
    split at hs
    · cases hs
    · obtain ⟨server, hserver, rfl⟩ := serverStep_some hs
      refine ⟨.inl rfl, .inr ⟨l, ?_, hserver⟩⟩
      rintro rfl
      exact hg rfl
  | read n =>
    simp only [BinaryRpcLink.step] at hs
    split at hs
    · cases hs
    · obtain ⟨client, hclient, rfl⟩ := clientStep_some hs
      exact ⟨.inr ⟨_, hclient⟩, .inl rfl⟩
  | decode =>
    simp only [BinaryRpcLink.step] at hs
    split at hs
    · obtain ⟨client, hclient, rfl⟩ := clientStep_some hs
      exact ⟨.inr ⟨_, hclient⟩, .inl rfl⟩
    · obtain ⟨client, hclient, rfl⟩ := clientStep_some hs
      exact ⟨.inr ⟨_, hclient⟩, .inl rfl⟩
    · obtain ⟨client, hclient, rfl⟩ := clientStep_some hs
      exact ⟨.inr ⟨_, hclient⟩, .inl rfl⟩

theorem Accounted.step {l : LinkLabel} (h : Accounted cl env a s) (hu : cl.Understood env)
    (hg : Orderly a s l) (hs : BinaryRpcLink.step cl env a s l = some s') : Accounted cl env a s' where
  sound := h.sound.step hg hs
  kept := h.kept.step h.sound.requests hg hs
  unanswered := by
    rcases (ends_of_step hg hs).1 with hsame | ⟨l', hclient⟩
    · rw [hsame]
      exact h.unanswered
    · exact h.unanswered.step h.sound hu hclient
  accounts := by
    rcases (ends_of_step hg hs).2 with hsame | ⟨l', hl, hserver⟩
    · rw [hsame]
      exact h.accounts
    · exact accounts_step h.accounts hl hserver

theorem accounted_of_reaches {server : BinaryRpcServer} (hserver : server.Accepted env a)
    (hu : cl.Understood env) (h : (system cl env a server).Reaches (Orderly a) s) :
    Accounted cl env a s := by
  refine h.invariant ⟨Sound.connected hserver, ?_, .of_empty rfl, ?_⟩
    fun _ _ _ hacc hg hs => hacc.step hu hg hs
  · intro p hp
    cases hp
  · refine ⟨BinaryRpcServer.ledger_of_reachable hserver.reachable, fun _ i q _ hq hconn => ?_⟩
    exact absurd hconn (hserver.noRequests q (List.mem_of_getElem? hq))

/-! ## Requests that cannot be answered -/

/-- The request of call `c` has number `i` at the server, and cannot be answered; the call has sent it. -/
structure Unanswerable (env : RpcServices) (i : Nat) (q : RpcRequest) (c : Nat) (s : BinaryRpcLink) :
    Prop where
  request : s.server.requests[i]? = some q
  not : ¬ q.Answerable env
  kept : ∃ call, s.client.calls[c]? = some call ∧ KeptCall s.client c call ∧
    call.seq = q.call.sequenceId ∧ call.pc ≠ .encoded

/-- A step of the channel for a call that is past its write. -/
theorem Unanswerable.client_step {i : Nat} {q : RpcRequest} {c : Nat} (h : Unanswerable env i q c s)
    (hr : Requests cl s) {l : ChannelLabel} {client : BinaryRpcChannel}
    (hs : s.client.step .thread cl.parses l = some client) :
    ∃ call, client.calls[c]? = some call ∧ KeptCall client c call ∧ call.seq = q.call.sequenceId ∧
      call.pc ≠ .encoded := by
  obtain ⟨call, hcall, hkept, hseq, hpc⟩ := h.kept
  obtain ⟨call', hcall', hlater, -⟩ := BinaryRpcChannel.step_call hs hcall
  have hstage : 3 ≤ call.pc.stage := by
    rcases hkept.left with hencoded | hwaiting | ⟨hdone, -⟩
    · exact absurd hencoded hpc
    · rw [hwaiting]
      exact Nat.le_refl 3
    · cases hleft : call.pc with
      | returned | threw what => simp [CallPc.stage]
      | start | registered | encoded | failed what | waiting =>
        rw [hleft] at hdone
        cases hdone
  -- its write is behind it
  have hsend : l ≠ .caller c (.send false) := by
    rintro rfl
    simp only [BinaryRpcChannel.step, hcall, BinaryRpcChannel.callerStep] at hs
    cases hs
  refine ⟨call', hcall', hkept.step hr.client hr.few hcall hs hcall' hsend, hlater.seq.trans hseq, ?_⟩
  intro hencoded
  have hle := hlater.stage_le
  rw [hencoded, show CallPc.encoded.stage = 2 from rfl] at hle
  omega

theorem Unanswerable.step {i : Nat} {q : RpcRequest} {c : Nat} (h : Unanswerable env i q c s)
    (hsound : Sound cl env a s) {l : LinkLabel} (hg : Orderly a s l)
    (hs : BinaryRpcLink.step cl env a s l = some s') : Unanswerable env i q c s' where
  request := by
    rcases (ends_of_step hg hs).2 with hsame | ⟨l', -, hserver⟩
    · rw [hsame]
      exact h.request
    · exact BinaryRpcServer.getElem?_of_prefix (BinaryRpcServer.Adds.step hserver).requests h.request
  not := h.not
  kept := by
    rcases (ends_of_step hg hs).1 with hsame | ⟨l', hclient⟩
    · rw [hsame]
      exact h.kept
    · exact h.client_step hsound.requests hclient

/-- A call completed by a frame was answered. -/
theorem Sound.answerable_of_completed (h : Sound cl env a s) (hu : cl.Understood env) {i : Nat}
    {q : RpcRequest} (hq : s.server.requests[i]? = some q) (hconn : q.conn = a) {call : Call}
    {r : Completion} (hr : r ∈ s.client.completions) (hframe : r.frame ≠ none)
    (hcall : s.client.calls[r.call]? = some call) (hseq : call.seq = q.call.sequenceId) :
    q.Answerable env := by
  obtain ⟨m, hm⟩ := Option.ne_none_iff_exists'.mp hframe
  have hcompleted := ((BinaryRpcChannel.matched_of_reachable h.requests.client).completed r.entry
    (List.mem_map_of_mem hr)).2
  simp only [Completion.entry, hm] at hcompleted
  obtain ⟨payload, hfirst, -⟩ := hcompleted
  obtain ⟨call', hcall', hfirst⟩ := BinaryRpcChannel.firstFrame_of_firstMessage hfirst
  cases hcall.symm.trans hcall'
  obtain ⟨j, q', response, hq', hconn', hf, hresponse⟩ := h.answer_of_frame (List.mem_of_getElem? hfirst.frame)
  have hsame : q.call.sequenceId = q'.call.sequenceId := hseq.symm.trans (congrArg Prod.fst hf)
  obtain rfl := h.request_unique hu hq hq' hconn hconn' hsame
  obtain ⟨q'', hq'', ha⟩ := (BinaryRpcServer.onlyAnswerable_of_reachable h.serving.server).sent _ hresponse
  cases hq.symm.trans hq''
  exact ha

/-- While the receiver runs, calls are completed by frames only. -/
theorem Sound.frame_ne_none (h : Sound cl env a s) (hrunning : s.client.running = true)
    (hreceiving : s.client.receiver.isOver = false) {r : Completion} (hr : r ∈ s.client.completions) :
    r.frame ≠ none := by
  intro hframe
  rcases BinaryRpcChannel.over_of_failed h.requests.client ⟨r, hr, hframe⟩ with hover | hstopped
  · rw [hreceiving] at hover
    cases hover
  · rw [hrunning] at hstopped
    cases hstopped

/-- **A call whose request cannot be answered waits**, as long as the receiver runs. -/
theorem waiting_of_unanswerable (hsound : Sound cl env a s) (hu : cl.Understood env) {i : Nat}
    {q : RpcRequest} {c : Nat} (hconn : q.conn = a) (h : Unanswerable env i q c s)
    (hrunning : s.client.running = true) (hreceiving : s.client.receiver.isOver = false) :
    ∃ call, s.client.calls[c]? = some call ∧ call.pc = .waiting := by
  obtain ⟨call, hcall, hkept, hseq, hpc⟩ := h.kept
  refine ⟨call, hcall, ?_⟩
  rcases hkept.left with hencoded | hwaiting | ⟨-, r, hr, rfl⟩
  · exact absurd hencoded hpc
  · exact hwaiting
  · have hframe := hsound.frame_ne_none hrunning hreceiving hr
    exact absurd (hsound.answerable_of_completed hu h.request hconn hr hframe hcall hseq) h.not

/-! ## At rest -/

/-- Nothing is on its way, nothing broke off, and both ends wait for the other. -/
structure AtRest (a : Nat) (s : BinaryRpcLink) : Prop where
  isOpen : OpenAt a s.server
  notWriting : s.writing = none
  allWritten : s.unsent = []
  allDelivered : s.toServer = []
  allReceived : s.received = (s.server.outputOf a).flatten
  allDecoded : scanFrame s.readBuf = .more
  notServing : ∀ i ∈ s.server.outstanding, (s.server.requests[i]?).map RpcRequest.conn ≠ some a
  receiving : s.client.receiver = .idle ∨ s.client.receiver = .reading
  running : s.client.running = true

/-- Every call on the stream has been served. -/
theorem Sound.exists_request (h : Sound cl env a s) (hu : cl.Understood env) (hrest : s.AtRest a)
    {p : Nat × RpcCall} (hp : p ∈ s.started) :
    ∃ (i : Nat) (q : RpcRequest), s.server.requests[i]? = some q ∧ q.conn = a ∧ q.call = p.2 := by
  have hasked : ∀ call ∈ s.started.map Prod.snd, ∃ seq c, call = cl.ask seq c := by
    intro call hcall
    obtain ⟨p, hp, rfl⟩ := List.mem_map.mp hcall
    obtain ⟨sender, -, hask, -⟩ := h.requests.started p hp
    exact ⟨sender.seq, p.1, hask⟩
  have hstream := h.requests.stream
  rw [hrest.allDelivered, hrest.allWritten, List.append_nil, List.append_nil] at hstream
  have hhanded := h.serving.handed
  rw [hstream, RpcClient.split_stream hu hasked] at hhanded
  have hmem : p.2 ∈ s.server.handed a := by
    rw [hhanded]
    exact List.mem_map_of_mem hp
  obtain ⟨q, hq, hcall⟩ := List.mem_map.mp hmem
  obtain ⟨hq, hconn⟩ := List.mem_filter.mp hq
  obtain ⟨i, hi⟩ := List.mem_iff_getElem?.mp hq
  exact ⟨i, q, hi, by simpa using hconn, hcall⟩

/-- Every response sent has been decoded. -/
theorem Sound.frame_of_response (h : Sound cl env a s) (hrest : s.AtRest a) {i : Nat} {q : RpcRequest}
    (hq : s.server.requests[i]? = some q) (hconn : q.conn = a) {frame : Bytes}
    (hframe : frame ∈ s.server.responsesTo i) : ∃ f ∈ s.client.frames, f.1 = q.call.sequenceId := by
  obtain ⟨r, hr, rfl⟩ := List.mem_map.mp hframe
  obtain ⟨hsentr, hi⟩ := List.mem_filter.mp hr
  obtain rfl : r.1 = i := by simpa using hi
  have hout : r.2 ∈ s.server.outputOf a := by
    refine List.mem_map_of_mem (List.mem_filter.mpr ⟨hsentr, ?_⟩)
    simp [hq, hconn]
  obtain ⟨gs, hgs, hgout⟩ := BinaryRpcServer.exists_frames h.serving.server a
  obtain ⟨fs, hfs, hreceived, hframes⟩ := h.reading.decoded
  -- the decoded frames are all there is
  have hall := Splitter.split_encoded frames_encodes (show frames.scan [] = .more from rfl) hgs
  have hread := Splitter.split_encoded frames_encodes
    (show frames.scan s.readBuf = .more from hrest.allDecoded) hfs
  rw [List.append_nil, ← hgout, ← hrest.allReceived, hreceived, hread] at hall
  obtain ⟨rfl, -⟩ := Prod.ext_iff.mp hall
  rw [hgout] at hout
  obtain ⟨g, hg, hbytes⟩ := List.mem_map.mp hout
  obtain ⟨q', response, hq', hresponse⟩ := BinaryRpcServer.faithful_of_reachable h.serving.server r hsentr
  cases hq.symm.trans hq'
  have hsame : g = .of .response q.call.sequenceId [] (BinaryRpcClosure.run response) :=
    RpcFrame.eq_of_bytes_eq (hgs g hg) (wellFormed_response _ _)
      (hbytes.trans (hresponse.trans (responseFrame_eq _ _)))
  refine ⟨(g.header.sequenceId, g.bodyBytes), ?_, by rw [hsame]; rfl⟩
  rw [hframes]
  exact List.mem_map_of_mem hg

theorem AtRest.not_over (h : s.AtRest a) : s.client.receiver.isOver = false := by
  rcases h.receiving with hidle | hreading
  · rw [hidle]
    rfl
  · rw [hreading]
    rfl

/-- At rest the response to a request that can be answered has completed its call. -/
theorem Accounted.completed_of_answerable (h : Accounted cl env a s) (hrest : s.AtRest a) {i : Nat}
    {q : RpcRequest} (hq : s.server.requests[i]? = some q) (hconn : q.conn = a) (ha : q.Answerable env)
    {c : Nat} {call : Call} (hkept : KeptCall s.client c call) (hseq : call.seq = q.call.sequenceId) :
    ∃ r ∈ s.client.completions, r.call = c := by
  cases h.accounts.settled hrest.isOpen (Nat.zero_le i) hq hconn with
  | outstanding _ hheld _ => exact absurd (by rw [hq, Option.map_some, hconn]) (hrest.notServing i hheld)
  | unanswerable hna _ _ => exact absurd ha hna
  | answered _ _ hanswered =>
    obtain ⟨frame, hone, -⟩ := hanswered
    have hmem : frame ∈ s.server.responsesTo i := by
      rw [hone]
      exact List.mem_singleton_self _
    obtain ⟨f, hf, hfseq⟩ := h.sound.frame_of_response hrest hq hconn hmem
    cases hkept.tracked with
    | completed hdone => exact hdone
    | pending hpending => exact absurd (hfseq.trans hseq.symm) (h.unanswered _ hpending f hf)
    | inHand frame body hin =>
      rcases hrest.receiving with hidle | hreading
      · rw [hidle] at hin
        cases hin
      · rw [hreading] at hin
        cases hin

/-- **At rest the calls that were answered are those whose requests could be**: a call whose request is on
the stream is completed if and only if its service and method exist, its body parses and its service did
not throw; otherwise it waits, and goes on waiting whatever steps follow, until the receiver ends. -/
theorem completed_iff_answerable {server : BinaryRpcServer} (hserver : server.Accepted env a)
    (hu : cl.Understood env) (h : (system cl env a server).Reaches (Orderly a) s) (hrest : s.AtRest a)
    {c : Nat} {call : Call} (hcall : s.client.calls[c]? = some call) (hsent : c ∈ s.started.map Prod.fst) :
    ∃ (i : Nat) (q : RpcRequest), s.server.requests[i]? = some q ∧ q.conn = a ∧
      q.call = cl.ask call.seq c ∧ ((∃ r ∈ s.client.completions, r.call = c) ↔ q.Answerable env) ∧
      (¬ q.Answerable env → call.pc = .waiting ∧
        ∀ ls s', (system cl env a server).run s ls = some s' →
          (system cl env a server).Admits (Orderly a) s ls →
          s'.client.running = true → s'.client.receiver.isOver = false →
            ∃ call', s'.client.calls[c]? = some call' ∧ call'.pc = .waiting) := by
  have hacc := accounted_of_reaches hserver hu h
  have hsound := hacc.sound
  obtain ⟨p, hp, rfl⟩ := List.mem_map.mp hsent
  obtain ⟨call', hcall', hask, hstage⟩ := hsound.requests.started p hp
  cases hcall.symm.trans hcall'
  obtain ⟨i, q, hq, hconn, hqcall⟩ := hsound.exists_request hu hrest hp
  rw [hask] at hqcall
  obtain ⟨call', hcall', hkeptCall⟩ := hacc.kept p hp fun hb => hb.1 hrest.allWritten
  cases hcall.symm.trans hcall'
  have hseq : call.seq = q.call.sequenceId := by
    rw [hqcall]
    rfl
  have hsent : call.pc ≠ .encoded := by
    intro hencoded
    rcases hstage with hwriting | h3
    · rw [hrest.notWriting] at hwriting
      cases hwriting
    · rw [hencoded] at h3
      simp [CallPc.stage] at h3
  have hlost : ¬ q.Answerable env → Unanswerable env i q p.1 s :=
    fun hna => ⟨hq, hna, call, hcall, hkeptCall, hseq, hsent⟩
  have hiff : (∃ r ∈ s.client.completions, r.call = p.1) ↔ q.Answerable env := by
    constructor
    · rintro ⟨r, hr, hrc⟩
      have hframe := hsound.frame_ne_none hrest.running hrest.not_over hr
      exact hsound.answerable_of_completed hu hq hconn hr hframe (by rw [hrc]; exact hcall) hseq
    · exact fun ha => hacc.completed_of_answerable hrest hq hconn ha hkeptCall hseq
  refine ⟨i, q, hq, hconn, hqcall, hiff, fun hna => ⟨?_, ?_⟩⟩
  · obtain ⟨call', hcall', hwaiting⟩ := waiting_of_unanswerable hsound hu hconn (hlost hna) hrest.running
      hrest.not_over
    cases hcall.symm.trans hcall'
    exact hwaiting
  · intro ls s' hrun hadmits hrunning hreceiving
    obtain ⟨hsound', hlost'⟩ := System.run_invariant
      (I := fun s => Sound cl env a s ∧ Unanswerable env i q p.1 s)
      (fun _ _ _ hI hg hs => ⟨hI.1.step hg hs, hI.2.step hI.1 hg hs⟩) ls ⟨hsound, hlost hna⟩ hrun hadmits
    exact waiting_of_unanswerable hsound' hu hconn hlost' hrunning hreceiving

instance (a : Nat) (s : BinaryRpcLink) : Decidable (AtRest a s) :=
  decidable_of_iff (OpenAt a s.server ∧ s.writing = none ∧ s.unsent = [] ∧ s.toServer = [] ∧
      s.received = (s.server.outputOf a).flatten ∧ s.client.running = true ∧
      (s.client.receiver = .idle ∨ s.client.receiver = .reading) ∧
      (∀ i ∈ s.server.outstanding, (s.server.requests[i]?).map RpcRequest.conn ≠ some a) ∧
      (match scanFrame s.readBuf with
        | .more => true
        | _ => false) = true) (by
    constructor
    · rintro ⟨hopen, hw, hu, hs, hr, hrun, hrec, hout, hscan⟩
      refine ⟨hopen, hw, hu, hs, hr, ?_, hout, hrec, hrun⟩
      cases h : scanFrame s.readBuf with
      | more => rfl
      | message f rest | corrupt =>
        rw [h] at hscan
        cases hscan
    · intro h
      refine ⟨h.isOpen, h.notWriting, h.allWritten, h.allDelivered, h.allReceived, h.running, h.receiving,
        h.notServing, ?_⟩
      rw [h.allDecoded])

/-- Two calls in one delivery; the service answers the first and throws on the second. -/
def sayTwice : List LinkLabel :=
  [.client (.call none), .client (.call none), .client (.caller 0 .register),
    .client (.caller 1 .register), .client (.caller 1 (.encode none)), .client (.caller 0 (.encode none)),
    .lock 0, .write 35, .sent, .lock 1, .write 20, .write 15, .sent,
    .deliver 70 fun i => ⟨if i = 0 then BinaryRpcServer.sayReply else .throws "down", false⟩,
    .client (.receiver .check), .read 100, .client (.receiver .checkParse), .decode,
    .client (.receiver .deliver), .client (.receiver .checkParse), .decode]

theorem completed_iff_answerable_sayTwice :
    ∃ s, (system sayClient echoServices 7 BinaryRpcServer.sayStart).run
        (connected BinaryRpcServer.sayStart) sayTwice = some s ∧
      (∃ call, s.client.calls[1]? = some call ∧ ∃ (i : Nat) (q : RpcRequest),
        s.server.requests[i]? = some q ∧ q.call = sayClient.ask call.seq 1 ∧
        ((∃ r ∈ s.client.completions, r.call = 1) ↔ q.Answerable echoServices)) ∧
      ∃ r ∈ s.client.completions, r.call = 0 := by
  obtain ⟨s, hrun, hrest, call, hcall, hsent, hdone⟩ :
      ∃ s ∈ (system sayClient echoServices 7 BinaryRpcServer.sayStart).run
          (connected BinaryRpcServer.sayStart) sayTwice,
        AtRest 7 s ∧ ∃ call ∈ s.client.calls[1]?, 1 ∈ s.started.map Prod.fst ∧
          ∃ r ∈ s.client.completions, r.call = 0 := by
    decide +kernel
  have hadmits : (system sayClient echoServices 7 BinaryRpcServer.sayStart).Admits (Orderly 7)
      (connected BinaryRpcServer.sayStart) sayTwice := by
    decide +kernel
  obtain ⟨i, q, hq, -, hask, hiff, -⟩ := completed_iff_answerable sayStart_accepted sayClient_understood
    (.of_run sayTwice hrun hadmits) hrest hcall hsent
  exact ⟨s, hrun, ⟨call, hcall, i, q, hq, hask, hiff⟩, hdone⟩

end BinaryRpcLink

end Tudou
