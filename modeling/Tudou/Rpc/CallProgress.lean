import Mathlib.Algebra.Group.Nat.Defs
import Tudou.Rpc.BinaryRpcChannel

/-!
# How the calls of a channel are numbered and how far they are

* `Numbered` — call `c` has the sequence id `c + 1`, in 64 bits; so fewer than 2⁶⁴ calls have different
  ids (`Numbered.injective`).
* `CallPc.stage` — how far `CallMethod` is; `step_call` — **no step sets a call back, and only its own
  write takes a call on from its encoded frame**; `step_frames` — only a decoded frame adds to `frames`.
-/

namespace Tudou

open Transition

/-- How far `CallMethod` is. -/
def CallPc.stage : CallPc → Nat
  | .start => 0
  | .registered => 1
  | .encoded => 2
  | .failed _ | .waiting => 3
  | .returned | .threw _ => 4

/-- `call` as it may be after a step: itself, or further on with the same sequence id. -/
structure Call.Later (call call' : Call) : Prop where
  seq : call'.seq = call.seq
  coroutine : call'.coroutine = call.coroutine
  stage : call' = call ∨ call.pc.stage < call'.pc.stage

theorem Call.Later.refl (call : Call) : call.Later call := ⟨rfl, rfl, .inl rfl⟩

theorem Call.Later.stage_le {call call' : Call} (h : call.Later call') : call.pc.stage ≤ call'.pc.stage := by
  rcases h.stage with rfl | hlt
  · exact Nat.le_refl _
  · omega

namespace BinaryRpcChannel

/-- Sequence ids are given out in the order of the calls, from 1. -/
structure Numbered (s : BinaryRpcChannel) : Prop where
  next : s.nextSequenceId = UInt64.ofNat (s.calls.length + 1)
  seq : ∀ {c call}, s.calls[c]? = some call → call.seq = UInt64.ofNat (c + 1)

variable {mode : ChannelMode} {parses : Nat → Bytes → Bool}

/-! ## One step of a call -/

/-- One call moves on; its sequence id stays. -/
theorem later_set {s : BinaryRpcChannel} {c d : Nat} {call call' next : Call}
    (hcall : s.calls[c]? = some call) (hd : s.calls[d]? = some call') (hnext : call'.Later next) :
    ∃ call'', (s.calls.set d next)[c]? = some call'' ∧ call.Later call'' ∧ (c ≠ d → call'' = call) := by
  by_cases heq : d = c
  · subst heq
    cases hcall.symm.trans hd
    refine ⟨next, ?_, hnext, fun hne => absurd rfl hne⟩
    exact List.getElem?_set_self (List.getElem?_eq_some_iff.mp hcall).1
  · exact ⟨call, by rw [List.getElem?_set_ne heq, hcall], .refl call, fun _ => rfl⟩

/-- **A step of `CallMethod` takes its own call on**, and only the write leaves the encoded frame. -/
theorem callerStep_call {s s' : BinaryRpcChannel} {c d : Nat} {call call' : Call} {l : CallerLabel}
    (hd : s.calls[d]? = some call') (hs : s.callerStep d call' l = some s')
    (hcall : s.calls[c]? = some call) :
    ∃ call'', s'.calls[c]? = some call'' ∧ call.Later call'' ∧
      (call'' = call ∨ c = d ∧ (call.pc = .encoded → ∃ ok, l = .send ok)) := by
  -- each branch sets call `d` to a later stage
  have moved : ∀ {next : Call}, s'.calls = s.calls.set d next → call'.Later next →
      (call'.pc = .encoded → ∃ ok, l = .send ok) →
      ∃ call'', s'.calls[c]? = some call'' ∧ call.Later call'' ∧
        (call'' = call ∨ c = d ∧ (call.pc = .encoded → ∃ ok, l = .send ok)) := by
    intro next hcalls hnext hsend
    obtain ⟨call'', hget, hlater, hother⟩ := later_set hcall hd hnext
    refine ⟨call'', by rw [hcalls, hget], hlater, ?_⟩
    by_cases heq : c = d
    · subst heq
      cases hcall.symm.trans hd
      exact .inr ⟨rfl, hsend⟩
    · exact .inl (hother heq)
  cases l with
  | register =>
    simp only [callerStep] at hs
    split at hs
    · rename_i hpc
      have hsend : call'.pc = .encoded → ∃ ok, CallerLabel.register = .send ok := by
        intro hencoded
        rw [hpc] at hencoded
        cases hencoded
      split at hs
      · cases hs
        exact moved rfl ⟨rfl, rfl, .inr (by simp [hpc, CallPc.stage])⟩ hsend
      · cases hs
        exact moved rfl ⟨rfl, rfl, .inr (by simp [hpc, CallPc.stage])⟩ hsend
    · cases hs
  | encode error =>
    simp only [callerStep] at hs
    split at hs
    · rename_i hpc
      cases hs
      refine moved rfl ⟨rfl, rfl, .inr ?_⟩ ?_
      · cases error with
        | none | some e => simp [hpc, CallPc.stage]
      · intro hencoded
        rw [hpc] at hencoded
        cases hencoded
    · cases hs
  | send ok =>
    simp only [callerStep] at hs
    split at hs
    · rename_i hpc
      cases hs
      refine moved rfl ⟨rfl, rfl, .inr ?_⟩ fun _ => ⟨ok, rfl⟩
      cases ok with
      | true => simp [hpc, CallPc.stage]
      | false => cases call'.coroutine <;> simp [hpc, CallPc.stage]
    · cases hs
  | rethrow =>
    simp only [callerStep] at hs
    split at hs
    · rename_i what hpc
      cases hs
      refine moved rfl ⟨rfl, rfl, .inr (by simp [hpc, CallPc.stage])⟩ ?_
      intro hencoded
      rw [hpc] at hencoded
      cases hencoded
    · cases hs
  | wake =>
    simp only [callerStep] at hs
    split at hs
    · rename_i body hpc _ _
      cases hs
      refine moved rfl ⟨rfl, rfl, .inr (by simp [hpc, CallPc.stage])⟩ ?_
      intro hencoded
      rw [hpc] at hencoded
      cases hencoded
    · rename_i what hpc _ _
      cases hs
      refine moved rfl ⟨rfl, rfl, .inr (by simp [hpc, CallPc.stage])⟩ ?_
      intro hencoded
      rw [hpc] at hencoded
      cases hencoded
    · cases hs

/-- **No step sets a call back.** Its own steps move it, only its write takes it on from its encoded
frame, and a `resume()` moves it where a coroutine waits in it. -/
theorem step_call {s s' : BinaryRpcChannel} {l : ChannelLabel} {c : Nat} {call : Call}
    (hs : s.step mode parses l = some s') (hcall : s.calls[c]? = some call) :
    ∃ call', s'.calls[c]? = some call' ∧ call.Later call' ∧
      (call' = call ∨ call.pc = .waiting ∧ call.coroutine ≠ none ∨
        ∃ l', l = .caller c l' ∧ (call.pc = .encoded → ∃ ok, l' = .send ok)) := by
  have same : s'.calls = s.calls → ∃ call', s'.calls[c]? = some call' ∧ call.Later call' ∧
      (call' = call ∨ call.pc = .waiting ∧ call.coroutine ≠ none ∨
        ∃ l', l = .caller c l' ∧ (call.pc = .encoded → ∃ ok, l' = .send ok)) :=
    fun h => ⟨call, by rw [h, hcall], .refl call, .inl rfl⟩
  cases l with
  | caller d l =>
    simp only [step] at hs
    split at hs
    · cases hs
    · rename_i call' hd
      obtain ⟨call'', hget, hlater, hmoved⟩ := callerStep_call hd hs hcall
      refine ⟨call'', hget, hlater, ?_⟩
      rcases hmoved with hsame | ⟨rfl, hsend⟩
      · exact .inl hsame
      · exact .inr (.inr ⟨l, rfl, hsend⟩)
  | call coroutine =>
    cases step_ends hs with
    | called _ _ =>
      refine ⟨call, ?_, .refl call, .inl rfl⟩
      exact (List.getElem?_append_left (List.getElem?_eq_some_iff.mp hcall).1).trans hcall
  | receiver l =>
    cases step_ends hs with
    | receiver h => exact same h.calls
  | resume k =>
    cases step_ends hs with
    | unheard => exact same rfl
    | @resumed _ d coro account call' hk hd hcoro hpc =>
      have hnext : call'.Later { call' with pc := s.leaves d, wokenBy := some account } := by
        refine ⟨rfl, rfl, .inr ?_⟩
        have hdone := s.leaves_isDone d
        rw [hpc]
        cases hl : s.leaves d with
        | returned | threw what => simp [CallPc.stage]
        | start | registered | encoded | failed what | waiting =>
          rw [hl] at hdone
          cases hdone
      obtain ⟨call'', hget, hlater, hother⟩ := later_set hcall hd hnext
      refine ⟨call'', hget, hlater, ?_⟩
      by_cases hcd : c = d
      · subst hcd
        cases hcall.symm.trans hd
        exact .inr (.inl ⟨hpc, by rw [hcoro]; exact Option.some_ne_none _⟩)
      · exact .inl (hother hcd)
  | destroyBegin =>
    cases step_ends hs with
    | closing _ => exact same rfl
  | destroyEnd =>
    cases step_ends hs with
    | destroyed => exact same (calls_cleanup s _)

/-- After its write a call does not come back to it. -/
theorem step_send {s s' : BinaryRpcChannel} {c : Nat} {ok : Bool}
    (hs : s.step mode parses (.caller c (.send ok)) = some s') :
    ∃ call', s'.calls[c]? = some call' ∧ 3 ≤ call'.pc.stage := by
  simp only [step] at hs
  split at hs
  · cases hs
  · rename_i call hcall
    have hlt := (List.getElem?_eq_some_iff.mp hcall).1
    simp only [callerStep] at hs
    split at hs
    · cases hs
      refine ⟨_, List.getElem?_set_self hlt, ?_⟩
      cases ok with
      | true => exact Nat.le_refl 3
      | false => cases call.coroutine <;> simp [CallPc.stage]
    · cases hs

/-- Only a decoded frame is added to the frames. -/
theorem step_frames {s s' : BinaryRpcChannel} {l : ChannelLabel} (hs : s.step mode parses l = some s')
    (hl : ∀ seq body, l ≠ .receiver (.frame seq body)) : s'.frames = s.frames := by
  have hcleanup : ∀ reason, (s.cleanupPendingRequests reason).frames = s.frames := by
    intro reason
    rw [cleanup_eq]
  cases l with
  | receiver l =>
    cases step_ends hs with
    | receiver h =>
      cases h with
      | goesOn _ _ _ _ | clears _ _ _ | delivers _ _ _ _ => rfl
      | fails reason _ _ => exact hcleanup reason
      | arrives seq body hdecoding =>
        -- no other step of a receiver that decodes adds a frame
        simp only [step] at hs
        split at hs
        · cases hs
        · cases l with
          | frame seq body => exact absurd rfl (hl seq body)
          | check | readData | readRetry | readEnd | checkParse | deliver | tearDown =>
            simp [receiverStep, hdecoding] at hs
          | writeError connecting => simp [receiverStep, hdecoding] at hs
          | halfPack =>
            simp only [receiverStep, hdecoding, if_true] at hs
            exact (congrArg BinaryRpcChannel.frames (Option.some.inj hs)).symm
          | badFrame =>
            simp only [receiverStep, hdecoding, if_true] at hs
            cases mode with
            | thread | loop =>
              have hframes := congrArg BinaryRpcChannel.frames (Option.some.inj hs)
              exact hframes.symm.trans (hcleanup _)
  | caller c l =>
    cases step_ends hs with
    | caller _ h =>
      cases h with
      | registered _ _ | withdrawn _ _ | goesOn _ _ _ _ _ => rfl
  | call coroutine =>
    cases step_ends hs with
    | called _ _ => rfl
  | resume k =>
    cases step_ends hs with
    | unheard => rfl
    | resumed _ _ _ _ => rfl
  | destroyBegin =>
    cases step_ends hs with
    | closing _ => rfl
  | destroyEnd =>
    cases step_ends hs with
    | destroyed => exact hcleanup _

/-- Calls are only added, one at a time and by `CallMethod`. -/
theorem step_length {s s' : BinaryRpcChannel} {l : ChannelLabel} (hs : s.step mode parses l = some s') :
    s'.calls.length = s.calls.length ∧ s'.nextSequenceId = s.nextSequenceId ∨
      ∃ coroutine, l = .call coroutine ∧ s'.nextSequenceId = s.nextSequenceId + 1 ∧
        s'.calls = s.calls ++ [⟨s.nextSequenceId, callPath mode coroutine, .start, none, none⟩] := by
  cases step_ends hs with
  | called _ _ => exact .inr ⟨_, rfl, rfl, rfl⟩
  | caller _ h =>
    cases h with
    | registered _ _ | withdrawn _ _ | goesOn _ _ _ _ _ => exact .inl ⟨List.length_set, rfl⟩
  | receiver h =>
    refine .inl ⟨by rw [h.calls], ?_⟩
    cases h with
    | goesOn _ _ _ _ | clears _ _ _ | arrives _ _ _ | delivers _ _ _ _ => rfl
    | fails reason _ _ => rw [cleanup_eq]
  | unheard => exact .inl ⟨rfl, rfl⟩
  | resumed _ _ _ _ => exact .inl ⟨List.length_set, rfl⟩
  | closing _ => exact .inl ⟨rfl, rfl⟩
  | destroyed => exact .inl ⟨by rw [calls_cleanup], by rw [cleanup_eq]⟩

/-! ## Sequence ids -/

theorem Numbered.step {s s' : BinaryRpcChannel} {l : ChannelLabel} (h : s.Numbered)
    (hs : s.step mode parses l = some s') : s'.Numbered := by
  -- a call that was there keeps its id
  have kept : ∀ {c call'}, c < s.calls.length → s'.calls[c]? = some call' →
      call'.seq = UInt64.ofNat (c + 1) := by
    intro c call' hlt hcall'
    have hcall := List.getElem?_eq_getElem hlt
    obtain ⟨call'', hget, hlater, -⟩ := step_call hs hcall
    cases hget.symm.trans hcall'
    rw [hlater.seq, h.seq hcall]
  rcases step_length hs with ⟨hlen, hnext⟩ | ⟨coroutine, -, hnext, hcalls⟩
  · refine ⟨by rw [hlen, hnext, h.next], fun {c call'} hcall' => kept ?_ hcall'⟩
    have hlt := (List.getElem?_eq_some_iff.mp hcall').1
    omega
  · constructor
    · rw [hnext, h.next, hcalls, List.length_append, List.length_singleton]
      exact (UInt64.ofNat_add _ 1).symm
    · intro c call' hcall'
      by_cases hlt : c < s.calls.length
      · exact kept hlt hcall'
      · rw [hcalls, List.getElem?_append_right (by omega)] at hcall'
        have hc := (List.getElem?_eq_some_iff.mp hcall').1
        rw [List.length_singleton] at hc
        obtain rfl : c = s.calls.length := by omega
        rw [Nat.sub_self] at hcall'
        cases hcall'
        exact h.next

theorem numbered_of_reachable {s : BinaryRpcChannel} (h : (system mode parses).Reachable s) :
    s.Numbered := by
  refine h.invariant ⟨rfl, ?_⟩ fun _ _ _ hn _ hs => hn.step hs
  intro c call hcall
  cases hcall

/-- **Fewer than 2⁶⁴ calls have different sequence ids.** -/
theorem Numbered.injective {s : BinaryRpcChannel} (h : s.Numbered) (hfew : s.calls.length < 2 ^ 64)
    {c d : Nat} {call call' : Call} (hc : s.calls[c]? = some call) (hd : s.calls[d]? = some call')
    (hseq : call.seq = call'.seq) : c = d := by
  have hltc := (List.getElem?_eq_some_iff.mp hc).1
  have hltd := (List.getElem?_eq_some_iff.mp hd).1
  rw [h.seq hc, h.seq hd] at hseq
  have hc' : c + 1 < UInt64.size := Nat.lt_of_le_of_lt hltc hfew
  have hd' : d + 1 < UInt64.size := Nat.lt_of_le_of_lt hltd hfew
  have hnat := congrArg UInt64.toNat hseq
  rw [UInt64.toNat_ofNat_of_lt' hc', UInt64.toNat_ofNat_of_lt' hd'] at hnat
  omega

end BinaryRpcChannel

end Tudou
