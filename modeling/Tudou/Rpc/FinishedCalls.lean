import Tudou.Rpc.Completion

/-!
# `BinaryRpcChannel`: what is left of a call that has returned

The context of a call is reachable from `pendingRequests_`, from the receiver between the look-up and
the parse, and from a `resume()` on the queue of a loop.  `CallMethod` returns when its context has been
completed, but its error paths only erase the entry of `pendingRequests_`.

* `LeftAlone` — none of the three leads to the call.
* `Tidy.step` — what keeps finished calls alone, step by step.
* `finished_call_left_alone` — **a finished call is left alone**, if a call that leaves by an exception
  is held by nobody at that moment.
* `unheld_of_left_alone` — the condition is exact.
* `parse_after_throw` — an early response and a failed write break it.
-/

namespace Tudou

open Transition Correlation

/-- The call whose response the receiver is about to parse. -/
def Receiver.callInHand (r : Receiver) : Option Nat := r.inHand.map Prod.fst

namespace BinaryRpcChannel

/-- Nothing leads to the context of call `c`: no entry, no parse in progress, no queued `resume()`. -/
structure LeftAlone (s : BinaryRpcChannel) (c : Nat) : Prop where
  pending : ∀ p ∈ s.pendingRequests, p.2 ≠ c
  receiver : s.receiver.callInHand ≠ some c
  resumes : ∀ p ∈ s.resumes, p.2 ≠ c

/-- Call `c` is on the coroutine path. -/
def onCoroutine (s : BinaryRpcChannel) (c : Nat) : Bool := ((s.calls[c]?).bind Call.coroutine).isSome

/-- A call that leaves by an exception is held by nobody, up to the entry it erases itself. -/
def Unheld (s : BinaryRpcChannel) : ChannelLabel → Prop
  | .caller c .rethrow => s.receiver.callInHand ≠ some c ∧ ∀ p ∈ s.resumes, p.2 ≠ c
  | .caller c (.send false) => s.onCoroutine c = true →
      (∀ p ∈ s.pendingRequests, p.2 ≠ c) ∧ s.receiver.callInHand ≠ some c ∧ ∀ p ∈ s.resumes, p.2 ≠ c
  | _ => True

/-- Finished calls are left alone; a coroutine is in one call at a time; and each queued `resume()` is
for the coroutine of its call, one for a call. -/
structure Tidy (s : BinaryRpcChannel) : Prop where
  left : ∀ c call, s.calls[c]? = some call → call.pc.isDone = true → s.LeftAlone c
  oneCall : ∀ (i j : Nat) (ci cj : Call), s.calls[i]? = some ci → s.calls[j]? = some cj →
    ci.coroutine ≠ none → ci.coroutine = cj.coroutine → ci.pc.isDone = false → cj.pc.isDone = false → i = j
  owner : ∀ p ∈ s.resumes, ∃ call, s.calls[p.2]? = some call ∧ call.coroutine = some p.1
  once : (s.resumes.map Prod.snd).Nodup

theorem LeftAlone.of_subset {s s' : BinaryRpcChannel} {c : Nat} (h : s.LeftAlone c)
    (hpending : ∀ p ∈ s'.pendingRequests, p ∈ s.pendingRequests ∨ p.2 ≠ c)
    (hreceiver : s'.receiver.callInHand = some c → s.receiver.callInHand = some c)
    (hresumes : ∀ p ∈ s'.resumes, p ∈ s.resumes ∨ p.2 ≠ c) : s'.LeftAlone c where
  pending := by
    intro p hp
    rcases hpending p hp with hp | hne
    · exact h.pending p hp
    · exact hne
  receiver := fun hin => h.receiver (hreceiver hin)
  resumes := by
    intro p hp
    rcases hresumes p hp with hp | hne
    · exact h.resumes p hp
    · exact hne

/-! ## What the table says of a call -/

section Table

variable {s : BinaryRpcChannel} {c : Nat} {call : Call}

/-- A request of the table is a call. -/
theorem exists_call {r : Request UInt64} (h : s.table.requests[c]? = some r) :
    ∃ call, s.calls[c]? = some call ∧ call.request = r := by
  rw [table, List.getElem?_map, Option.map_eq_some_iff] at h
  exact h

theorem filedAt_of_getElem (hcall : s.calls[c]? = some call) {P : Prop}
    (h : ∃ r, s.table.requests[c]? = some r ∧ r.filedAt ≠ none) (hnew : call.registeredAt = none) : P := by
  obtain ⟨r, hr, hfiled⟩ := h
  obtain ⟨call', hcall', rfl⟩ := exists_call hr
  rw [hcall] at hcall'
  cases hcall'
  exact absurd hnew hfiled

/-- The entry of a call has its sequence id. -/
theorem seq_of_mem_pending (hm : s.table.Matched) (hcall : s.calls[c]? = some call) {p : UInt64 × Nat}
    (hp : p ∈ s.pendingRequests) (hc : p.2 = c) : p.1 = call.seq := by
  subst hc
  obtain ⟨r, n, hr, hkey, -⟩ := (hm.waiting p hp).filed
  obtain ⟨call', hcall', rfl⟩ := exists_call hr
  rw [hcall] at hcall'
  cases hcall'
  exact hkey.symm

theorem exists_inHand (h : s.receiver.callInHand = some c) :
    ∃ frame body, s.receiver.inHand = some (c, frame, body) := by
  obtain ⟨⟨c', frame, body⟩, hin, rfl⟩ := Option.map_eq_some_iff.mp h
  exact ⟨frame, body, hin⟩

/-- A completed call is neither pending nor in hand. -/
theorem free_of_completed (hm : s.table.Matched) (hdone : ∃ r ∈ s.completions, r.call = c) :
    (∀ p ∈ s.pendingRequests, p.2 ≠ c) ∧ s.receiver.callInHand ≠ some c := by
  obtain ⟨r, hr, rfl⟩ := hdone
  have hentry : r.entry ∈ s.table.completions := List.mem_map_of_mem hr
  constructor
  · intro p hp heq
    exact (hm.waiting p hp).fresh r.entry hentry heq.symm
  · intro hin
    obtain ⟨frame, body, hin⟩ := exists_inHand hin
    exact ((hm.inHand r.call frame body hin).2.2 r.entry hentry).1 rfl

/-- A call that never registered is left alone. -/
theorem leftAlone_of_unregistered (hm : s.table.Matched)
    (hresumes : ∀ p ∈ s.resumes, ∃ r ∈ s.completions, r.call = p.2) (hcall : s.calls[c]? = some call)
    (hnew : call.registeredAt = none) : s.LeftAlone c where
  pending := by
    rintro p hp rfl
    exact filedAt_of_getElem hcall (hm.waiting p hp).filedAt hnew
  receiver := by
    intro hin
    obtain ⟨frame, body, hin⟩ := exists_inHand hin
    exact filedAt_of_getElem hcall (hm.inHand c frame body hin).1.filedAt hnew
  resumes := by
    rintro p hp rfl
    obtain ⟨r, hr, heq⟩ := hresumes p hp
    have hfiled := (hm.completed r.entry (List.mem_map_of_mem hr)).1
    rw [show r.entry.request = p.2 from heq] at hfiled
    exact filedAt_of_getElem hcall hfiled hnew

end Table

/-! ## The steps -/

theorem mem_wakes {s : BinaryRpcChannel} {c : Nat} {p : Nat × Nat} (h : p ∈ s.wakes c) :
    p.2 = c ∧ ∃ call, s.calls[c]? = some call ∧ call.coroutine = some p.1 := by
  unfold wakes at h
  split at h
  · cases h
  · rename_i coro hcoro
    rw [List.mem_singleton] at h
    subst h
    exact ⟨rfl, Option.bind_eq_some_iff.mp hcoro⟩

theorem nodup_wakes {s : BinaryRpcChannel} {cs : List Nat} (h : cs.Nodup) :
    ((cs.flatMap s.wakes).map Prod.snd).Nodup := by
  induction cs with
  | nil => exact List.nodup_nil
  | cons c cs ih =>
    obtain ⟨hc, hcs⟩ := List.nodup_cons.mp h
    have hone : ((s.wakes c).map Prod.snd).Nodup := by
      unfold wakes
      split
      · exact List.nodup_nil
      · exact List.nodup_singleton _
    rw [List.flatMap_cons, List.map_append, List.nodup_append]
    refine ⟨hone, ih hcs, ?_⟩
    intro x hx y hy heq
    obtain ⟨p, hp, rfl⟩ := List.mem_map.mp hx
    obtain ⟨q, hq, rfl⟩ := List.mem_map.mp hy
    obtain ⟨d, hd, hq⟩ := List.mem_flatMap.mp hq
    rw [(mem_wakes hp).1, (mem_wakes hq).1] at heq
    exact hc (heq ▸ hd)

/-- Calls `new` are completed, none of them finished; nothing else is touched. -/
theorem Tidy.complete {s s' : BinaryRpcChannel} (h : Tidy s) (new : List Nat)
    (hcalls : s'.calls = s.calls) (hresumes : s'.resumes = s.resumes ++ new.flatMap s.wakes)
    (hnodup : new.Nodup)
    (hlive : ∀ c ∈ new, ∀ call, s.calls[c]? = some call → call.pc.isDone = false)
    (hfresh : ∀ c ∈ new, ∀ p ∈ s.resumes, p.2 ≠ c)
    (hpending : ∀ p ∈ s'.pendingRequests, p ∈ s.pendingRequests)
    (hreceiver : ∀ c, s'.receiver.callInHand = some c → s.receiver.callInHand = some c ∨
      ∃ p ∈ s.pendingRequests, p.2 = c) : Tidy s' where
  left := by
    intro c call hcall hdone
    rw [hcalls] at hcall
    have hleft := h.left c call hcall hdone
    refine hleft.of_subset (fun p hp => .inl (hpending p hp)) ?_ ?_
    · intro hin
      rcases hreceiver c hin with hin | ⟨p, hp, heq⟩
      · exact hin
      · exact absurd heq (hleft.pending p hp)
    · intro p hp
      rw [hresumes] at hp
      rcases List.mem_append.mp hp with hp | hp
      · exact .inl hp
      · obtain ⟨d, hd, hp⟩ := List.mem_flatMap.mp hp
        refine .inr ?_
        rw [(mem_wakes hp).1]
        rintro rfl
        have hnot := hlive d hd call hcall
        rw [hdone] at hnot
        cases hnot
  oneCall := by
    rw [hcalls]
    exact h.oneCall
  owner := by
    intro p hp
    rw [hcalls]
    rw [hresumes] at hp
    rcases List.mem_append.mp hp with hp | hp
    · exact h.owner p hp
    · obtain ⟨d, hd, hp⟩ := List.mem_flatMap.mp hp
      obtain ⟨hc, hcall⟩ := mem_wakes hp
      rw [hc]
      exact hcall
  once := by
    rw [hresumes, List.map_append, List.nodup_append]
    refine ⟨h.once, nodup_wakes hnodup, ?_⟩
    intro x hx y hy heq
    obtain ⟨p, hp, rfl⟩ := List.mem_map.mp hx
    obtain ⟨q, hq, rfl⟩ := List.mem_map.mp hy
    obtain ⟨d, hd, hq⟩ := List.mem_flatMap.mp hq
    rw [(mem_wakes hq).1] at heq
    exact hfresh d hd p hp heq

/-- A step that completes nothing. -/
theorem Tidy.quiet {s s' : BinaryRpcChannel} (h : Tidy s) (hcalls : s'.calls = s.calls)
    (hresumes : s'.resumes = s.resumes)
    (hpending : ∀ p ∈ s'.pendingRequests, p ∈ s.pendingRequests)
    (hreceiver : ∀ c, s'.receiver.callInHand = some c → s.receiver.callInHand = some c ∨
      ∃ p ∈ s.pendingRequests, p.2 = c) : Tidy s' :=
  h.complete [] hcalls (by rw [hresumes]; simp) List.nodup_nil (fun _ hc => absurd hc List.not_mem_nil)
    (fun _ hc => absurd hc List.not_mem_nil) hpending hreceiver

/-- **A cleanup** completes every pending call. -/
theorem Tidy.cleanup {s s' : BinaryRpcChannel} (h : Tidy s) (hm : s.table.Matched)
    (hsound : ∀ p ∈ s.resumes, ∃ r ∈ s.completions, r.call = p.2) {reason : String}
    (hcalls : s'.calls = s.calls) (hresumes : s'.resumes = (s.cleanupPendingRequests reason).resumes)
    (hpending : s'.pendingRequests = [])
    (hreceiver : s'.receiver.callInHand = none ∨ s'.receiver = s.receiver) :
    Tidy s' := by
  apply h.complete (s.pendingRequests.map Prod.snd) hcalls
  · rw [hresumes, cleanup_eq, List.flatMap_map]
  · exact hm.distinct
  · intro c hc call hcall
    obtain ⟨p, hp, rfl⟩ := List.mem_map.mp hc
    rw [Bool.eq_false_iff]
    intro hdone
    exact (h.left p.2 call hcall hdone).pending p hp rfl
  · intro c hc p hp heq
    obtain ⟨q, hq, rfl⟩ := List.mem_map.mp hc
    obtain ⟨r, hr, hcall⟩ := hsound p hp
    exact (hm.waiting q hq).fresh r.entry (List.mem_map_of_mem hr) (hcall.trans heq)
  · intro p hp
    rw [hpending] at hp
    cases hp
  · intro c hin
    rcases hreceiver with hnone | hsame
    · rw [hnone] at hin
      cases hin
    · rw [hsame] at hin
      exact .inl hin

/-- **One call moves on**, and is left alone if it is finished now. -/
theorem Tidy.move {s s' : BinaryRpcChannel} (h : Tidy s) {c : Nat} {call call' : Call}
    (hcall : s.calls[c]? = some call) (hlive : call.pc.isDone = false)
    (hcalls : s'.calls = s.calls.set c call') (hcoro : call'.coroutine = call.coroutine)
    (hpending : ∀ p ∈ s'.pendingRequests, p ∈ s.pendingRequests ∨ p.2 = c)
    (hreceiver : s'.receiver = s.receiver) (hresumes : s'.resumes.Sublist s.resumes)
    (hleft : call'.pc.isDone = true → s'.LeftAlone c) : Tidy s' := by
  have hget : ∀ d x, s'.calls[d]? = some x →
      c = d ∧ x = call' ∨ c ≠ d ∧ s.calls[d]? = some x := by
    intro d x hx
    rw [hcalls] at hx
    by_cases hd : c = d
    · subst hd
      rw [List.getElem?_set_self (List.getElem?_eq_some_iff.mp hcall).1] at hx
      exact .inl ⟨rfl, (Option.some.inj hx).symm⟩
    · rw [List.getElem?_set_ne hd] at hx
      exact .inr ⟨hd, hx⟩
  -- a call that is not finished was not finished before
  have hback : ∀ (d : Nat) (x : Call), s'.calls[d]? = some x → x.pc.isDone = false →
      ∃ y : Call, s.calls[d]? = some y ∧ y.coroutine = x.coroutine ∧ y.pc.isDone = false := by
    intro d x hx hnot
    rcases hget d x hx with ⟨rfl, rfl⟩ | ⟨-, hx⟩
    · exact ⟨call, hcall, hcoro.symm, hlive⟩
    · exact ⟨x, hx, rfl, hnot⟩
  constructor
  · intro d x hx hdone
    rcases hget d x hx with ⟨rfl, rfl⟩ | ⟨hne, hx⟩
    · exact hleft hdone
    · apply (h.left d x hx hdone).of_subset
      · intro p hp
        rcases hpending p hp with hp | hp
        · exact .inl hp
        · exact .inr (by rw [hp]; exact hne)
      · intro hin
        rwa [hreceiver] at hin
      · intro p hp
        exact .inl (hresumes.subset hp)
  · intro i j ci cj hi hj hsome hsame hci hcj
    obtain ⟨yi, hyi, hyic, hyid⟩ := hback i ci hi hci
    obtain ⟨yj, hyj, hyjc, hyjd⟩ := hback j cj hj hcj
    apply h.oneCall i j yi yj hyi hyj
    · rw [hyic]
      exact hsome
    · rw [hyic, hyjc]
      exact hsame
    · exact hyid
    · exact hyjd
  · intro p hp
    obtain ⟨x, hx, hxc⟩ := h.owner p (hresumes.subset hp)
    rw [hcalls]
    by_cases hd : c = p.2
    · subst hd
      rw [hcall] at hx
      cases hx
      exact ⟨call', List.getElem?_set_self (List.getElem?_eq_some_iff.mp hcall).1, hcoro.trans hxc⟩
    · exact ⟨x, by rw [List.getElem?_set_ne hd]; exact hx, hxc⟩
  · exact h.once.sublist (hresumes.map Prod.snd)

theorem Tidy.called {s : BinaryRpcChannel} (h : Tidy s) {seq : UInt64} {coroutine : Option Nat}
    (hfree : ∀ call ∈ s.calls, call.coroutine = coroutine → coroutine = none ∨ call.pc.isDone = true) :
    Tidy { s with
      nextSequenceId := s.nextSequenceId + 1
      calls := s.calls ++ [⟨seq, coroutine, .start, none, none⟩] } := by
  have hget : ∀ (d : Nat) (x : Call), (s.calls ++ [⟨seq, coroutine, .start, none, none⟩])[d]? = some x →
      s.calls[d]? = some x ∨ d = s.calls.length ∧ x = ⟨seq, coroutine, .start, none, none⟩ := by
    intro d x hx
    by_cases hd : d < s.calls.length
    · rw [List.getElem?_append_left hd] at hx
      exact .inl hx
    · have hlt := (List.getElem?_eq_some_iff.mp hx).1
      simp only [List.length_append, List.length_singleton] at hlt
      have hd : d = s.calls.length := by omega
      subst hd
      rw [List.getElem?_append_right (Nat.le_refl _), Nat.sub_self, List.getElem?_cons_zero] at hx
      exact .inr ⟨rfl, (Option.some.inj hx).symm⟩
  -- the coroutine of the new call is in no other one
  have hnot : ∀ (d : Nat) (x : Call), s.calls[d]? = some x → x.coroutine ≠ none → x.coroutine = coroutine →
      x.pc.isDone = true := by
    intro d x hx hsome hsame
    rcases hfree x (List.mem_of_getElem? hx) hsame with hnone | hdone
    · exact absurd (hsame.trans hnone) hsome
    · exact hdone
  constructor
  · intro d x hx hdone
    rcases hget d x hx with hx | ⟨-, rfl⟩
    · have hleft := h.left d x hx hdone
      exact ⟨hleft.pending, hleft.receiver, hleft.resumes⟩
    · cases hdone
  · intro i j ci cj hi hj hsome hsame hci hcj
    rcases hget i ci hi with hi | ⟨rfl, rfl⟩
    · rcases hget j cj hj with hj | ⟨rfl, rfl⟩
      · exact h.oneCall i j ci cj hi hj hsome hsame hci hcj
      · rw [hnot i ci hi hsome hsame] at hci
        cases hci
    · rcases hget j cj hj with hj | ⟨rfl, rfl⟩
      · rw [hnot j cj hj (by rw [← hsame]; exact hsome) hsame.symm] at hcj
        cases hcj
      · rfl
  · intro p hp
    obtain ⟨x, hx, hxc⟩ := h.owner p hp
    refine ⟨x, ?_, hxc⟩
    rw [List.getElem?_append_left (List.getElem?_eq_some_iff.mp hx).1]
    exact hx
  · exact h.once

/-- Two queued `resume()`s are for different calls. -/
theorem Tidy.eraseIdx {s : BinaryRpcChannel} (h : Tidy s) {k : Nat} {p : Nat × Nat}
    (hk : s.resumes[k]? = some p) : ∀ q ∈ s.resumes.eraseIdx k, q.2 ≠ p.2 := by
  intro q hq heq
  obtain ⟨i, hne, hi⟩ := List.mem_eraseIdx_iff_getElem?.mp hq
  have hki : (s.resumes.map Prod.snd)[k]? = some p.2 := by rw [List.getElem?_map, hk, Option.map_some]
  have hii : (s.resumes.map Prod.snd)[i]? = some p.2 := by
    rw [List.getElem?_map, hi, Option.map_some, heq]
  exact hne ((List.getElem?_inj (List.getElem?_eq_some_iff.mp hii).1 h.once).mp (hii.trans hki.symm))

section Step

variable {mode : ChannelMode} {parses : Nat → Bytes → Bool} {s s' : BinaryRpcChannel}

theorem Tidy.caller (h : Tidy s) (hm : s.table.Matched) (hu : s.Unregistered) (hsound : Sound parses s)
    {c : Nat} {call : Call} {l : CallerLabel} (hg : s.Unheld (.caller c l)) (hcall : s.calls[c]? = some call)
    (hs : CallerEnds s c call l s') : Tidy s' := by
  cases hs with
  | registered hpc hrunning =>
    refine h.move hcall (by rw [hpc]; rfl) rfl rfl ?_ rfl (List.Sublist.refl _) (by rintro ⟨⟩)
    intro p hp
    rcases List.mem_cons.mp hp with rfl | hp
    · exact .inr rfl
    · exact .inl (List.mem_filter.mp hp).1
  | withdrawn what hpc =>
    obtain ⟨hhand, hresumes⟩ := hg
    refine h.move hcall (by rw [hpc]; rfl) rfl rfl ?_ rfl (List.Sublist.refl _) fun _ => ⟨?_, hhand, hresumes⟩
    · intro p hp
      exact .inl (List.mem_filter.mp hp).1
    · -- the entry of the call is the one it erases
      intro p hp hpc
      obtain ⟨hmem, hne⟩ := List.mem_filter.mp hp
      simp only [ne_eq, decide_eq_true_eq] at hne
      exact hne (seq_of_mem_pending hm hcall hmem hpc)
  | goesOn pc _ _ hlive hdone =>
    refine h.move hcall hlive rfl rfl (fun p hp => .inl hp) rfl (List.Sublist.refl _) ?_
    intro hpc
    have hleft : s.LeftAlone c := by
      rcases hdone hpc with hstart | ⟨rfl, hcoro⟩ | ⟨hcoro, outcome, hout⟩
      · exact leftAlone_of_unregistered hm hsound.resumes hcall (hu call (List.mem_of_getElem? hcall) hstart)
      · have hon : s.onCoroutine c = true := by
          rw [onCoroutine, hcall, Option.bind_some, Option.isSome_iff_ne_none]
          exact hcoro
        obtain ⟨hpending, hhand, hresumes⟩ := hg hon
        exact ⟨hpending, hhand, hresumes⟩
      · obtain ⟨r, hfind, -⟩ := Option.map_eq_some_iff.mp hout
        have hc : r.call = c := by simpa using List.find?_some hfind
        obtain ⟨hpending, hhand⟩ := free_of_completed hm ⟨r, List.mem_of_find?_eq_some hfind, hc⟩
        refine ⟨hpending, hhand, ?_⟩
        rintro p hp rfl
        obtain ⟨x, hx, hxc⟩ := h.owner p hp
        rw [hcall] at hx
        cases hx
        rw [hcoro] at hxc
        cases hxc
    exact ⟨hleft.pending, hleft.receiver, hleft.resumes⟩

theorem Tidy.receiver (h : Tidy s) (hm : s.table.Matched) (hsound : Sound parses s)
    (hs : ReceiverEnds parses s s') : Tidy s' := by
  cases hs with
  | goesOn r _ hr _ | clears r _ hr =>
    refine h.quiet rfl rfl (fun p hp => hp) ?_
    intro c hin
    rw [show Receiver.callInHand _ = r.inHand.map Prod.fst from rfl, hr] at hin
    cases hin
  | arrives seq body _ =>
    refine h.quiet rfl rfl (fun p hp => (List.mem_filter.mp hp).1) ?_
    intro c hin
    cases hfind : s.pendingRequests.find? fun p => p.1 = seq with
    | none =>
      simp only [hfind] at hin
      cases hin
    | some p =>
      simp only [hfind] at hin
      exact .inr ⟨p, List.mem_of_find?_eq_some hfind, Option.some.inj hin⟩
  | delivers c frame body hdelivering =>
    have hhand : s.receiver.callInHand = some c := by
      rw [hdelivering]
      rfl
    obtain ⟨frame', body', hin⟩ := exists_inHand hhand
    have hothers := (hm.inHand c frame' body' hin).2.2
    refine h.complete [c] rfl ?_ (List.nodup_singleton c) ?_ ?_ (fun p hp => hp) ?_
    · simp [BinaryRpcChannel.complete]
    · intro d hd call hcall
      rw [List.mem_singleton.mp hd] at hcall
      rw [Bool.eq_false_iff]
      intro hdone
      exact (h.left c call hcall hdone).receiver hhand
    · intro d hd p hp heq
      rw [List.mem_singleton.mp hd] at heq
      obtain ⟨r, hr, hrc⟩ := hsound.resumes p hp
      exact (hothers r.entry (List.mem_map_of_mem hr)).1 (hrc.trans heq)
    · rintro d ⟨⟩
  | fails reason clears _ => exact h.cleanup hm hsound.resumes (calls_cleanup s reason) rfl rfl (.inl rfl)

/-- **Step lemma** for finished calls. -/
theorem Tidy.step (h : Tidy s) (hm : s.table.Matched) (hu : s.Unregistered) (hsound : Sound parses s)
    {l : ChannelLabel} (hg : s.Unheld l) (hs : s.step mode parses l = some s') : Tidy s' := by
  cases step_ends hs with
  | called _ hfree => exact h.called hfree
  | caller hcall hends => exact h.caller hm hu hsound hg hcall hends
  | receiver hends => exact h.receiver hm hsound hends
  | @unheard k =>
    refine ⟨?_, h.oneCall, ?_, ?_⟩
    · intro c call hcall hdone
      have hleft := h.left c call hcall hdone
      exact ⟨hleft.pending, hleft.receiver, fun p hp => hleft.resumes p (List.mem_of_mem_eraseIdx hp)⟩
    · intro p hp
      exact h.owner p (List.mem_of_mem_eraseIdx hp)
    · exact h.once.sublist ((List.eraseIdx_sublist _ _).map Prod.snd)
  | @resumed k c coro account call hk hcall hcoro hpc =>
    have hmem := List.mem_of_getElem? hk
    obtain ⟨x, hx, hxc⟩ := h.owner _ hmem
    -- the call the `resume()` is for is not finished, so it is the one its coroutine is in
    have hxlive : x.pc.isDone = false := by
      rw [Bool.eq_false_iff]
      intro hdone
      exact (h.left account x hx hdone).resumes _ hmem rfl
    have hsame : c = account := by
      apply h.oneCall c account call x hcall hx
      · rw [hcoro]
        simp
      · rw [hcoro, hxc]
      · rw [hpc]
        rfl
      · exact hxlive
    subst hsame
    have hfree := free_of_completed hm (hsound.resumes _ hmem)
    show Tidy (BinaryRpcChannel.setCall { s with resumes := s.resumes.eraseIdx k } c
      { call with pc := s.leaves c, wokenBy := some c })
    refine h.move hcall (by rw [hpc]; rfl) rfl rfl (fun p hp => .inl hp) rfl
      (List.eraseIdx_sublist _ _) fun _ => ⟨hfree.1, hfree.2, ?_⟩
    exact h.eraseIdx hk
  | closing _ => exact h.quiet rfl rfl (fun p hp => hp) fun c hin => .inl hin
  | destroyed =>
    exact h.cleanup hm hsound.resumes (calls_cleanup s _) rfl rfl (.inr (receiver_cleanup s _))

end Step

variable {mode : ChannelMode} {parses : Nat → Bytes → Bool}

theorem unregistered_of_reachable {s : BinaryRpcChannel} (h : (system mode parses).Reachable s) :
    s.Unregistered := by
  obtain ⟨t, -, -, hu⟩ := (channel_refines_table mode parses).reaches h
  exact hu

theorem tidy_of_reaches {s : BinaryRpcChannel} (h : (system mode parses).Reaches Unheld s) :
    (system mode parses).Reachable s ∧ Tidy s := by
  apply h.invariant (I := fun s => (system mode parses).Reachable s ∧ Tidy s)
  · refine ⟨.init, ?_, ?_, ?_, List.nodup_nil⟩
    · intro c call hcall
      cases hcall
    · intro i j ci cj hi
      cases hi
    · intro p hp
      cases hp
  · rintro s l s' ⟨hreach, htidy⟩ hg hs
    exact ⟨hreach.step trivial hs, htidy.step (matched_of_reachable hreach)
      (unregistered_of_reachable hreach) (sound_of_reachable hreach) hg hs⟩

/-- **A finished call is left alone**: once `CallMethod` has returned or thrown, its context is not in
`pendingRequests_`, the receiver does not parse into its response, and no coroutine is to be resumed on
its account. -/
theorem finished_call_left_alone {s : BinaryRpcChannel} (h : (system mode parses).Reaches Unheld s)
    {c : Nat} {call : Call} (hcall : s.calls[c]? = some call) (hdone : call.pc.isDone = true) :
    (∀ p ∈ s.pendingRequests, p.2 ≠ c) ∧ s.receiver.callInHand ≠ some c ∧
      ∀ p ∈ s.resumes, p.2 ≠ c := by
  have hleft := (tidy_of_reaches h).2.left c call hcall hdone
  exact ⟨hleft.pending, hleft.receiver, hleft.resumes⟩

/-- **The condition is exact**: after a step that does not meet it, a finished call is not left alone. -/
theorem unheld_of_left_alone {s s' : BinaryRpcChannel} {l : ChannelLabel}
    (hs : s.step mode parses l = some s')
    (hleft : ∀ c call, s'.calls[c]? = some call → call.pc.isDone = true → s'.LeftAlone c) : s.Unheld l := by
  unfold Unheld
  split
  · rename_i c
    simp only [step, callerStep] at hs
    split at hs
    · cases hs
    · rename_i call hcall
      split at hs
      · cases hs
        have hdone := hleft c _ (List.getElem?_set_self (List.getElem?_eq_some_iff.mp hcall).1) rfl
        exact ⟨hdone.receiver, hdone.resumes⟩
      · cases hs
  · rename_i c
    intro hcoro
    simp only [step, callerStep] at hs
    split at hs
    · cases hs
    · rename_i call hcall
      obtain ⟨coro, hsome⟩ : ∃ coro, call.coroutine = some coro := by
        rw [onCoroutine, hcall, Option.bind_some, Option.isSome_iff_exists] at hcoro
        exact hcoro
      split at hs
      · cases hs
        have hdone := hleft c _ (List.getElem?_set_self (List.getElem?_eq_some_iff.mp hcall).1)
          (by simp only [hsome]; rfl)
        exact ⟨hdone.pending, hdone.receiver, hdone.resumes⟩
      · cases hs
  · trivial

instance (s : BinaryRpcChannel) : ∀ l, Decidable (s.Unheld l)
  | .caller c .rethrow =>
    inferInstanceAs (Decidable (s.receiver.callInHand ≠ some c ∧ ∀ p ∈ s.resumes, p.2 ≠ c))
  | .caller c (.send false) =>
    inferInstanceAs (Decidable (s.onCoroutine c = true →
      (∀ p ∈ s.pendingRequests, p.2 ≠ c) ∧ s.receiver.callInHand ≠ some c ∧
        ∀ p ∈ s.resumes, p.2 ≠ c))
  | .caller _ .register | .caller _ (.encode _) | .caller _ (.send true) | .caller _ .wake | .call _
  | .receiver _ | .resume _ | .destroyBegin | .destroyEnd => inferInstanceAs (Decidable True)

/-- A write fails while nothing has come back; a coroutine's call is answered. -/
def failedWriteThenAnswer : List ChannelLabel :=
  [.call none, .caller 0 .register, .caller 0 (.encode none), .caller 0 (.send false), .caller 0 .rethrow,
    .call (some 5), .caller 1 .register, .caller 1 (.encode none), .caller 1 (.send true),
    .receiver .check, .receiver .readData, .receiver .checkParse, .receiver (.frame 1 [7]),
    .receiver .checkParse, .receiver (.frame 2 [7]), .receiver .deliver, .resume 0]

theorem finished_call_left_alone_failedWriteThenAnswer :
    ∃ s ∈ (system .loop parsesSeven).run create failedWriteThenAnswer,
      ∃ call ∈ s.calls[0]?, call.pc.isDone = true ∧ s.receiver.callInHand ≠ some 0 := by
  have hg : (system .loop parsesSeven).Admits Unheld create failedWriteThenAnswer := by decide
  obtain ⟨s, hs, call, hcall, hdone⟩ : ∃ s ∈ (system .loop parsesSeven).run create failedWriteThenAnswer,
      ∃ call ∈ s.calls[0]?, call.pc.isDone = true := by decide
  exact ⟨s, hs, call, hcall, hdone, (finished_call_left_alone (.of_run _ hs hg) hcall hdone).2.1⟩

/-- The peer answers a request it has not received yet; the receiver has taken its context when the
write fails. -/
def earlyResponse : List ChannelLabel :=
  [.call none, .caller 0 .register, .caller 0 (.encode none), .receiver .check, .receiver .readData,
    .receiver .checkParse, .receiver (.frame 1 [7]), .caller 0 (.send false), .caller 0 .rethrow]

/-- **The receiver parses into the response of a call that has thrown.** -/
theorem parse_after_throw :
    ¬ ∀ (mode : ChannelMode) (parses : Nat → Bytes → Bool) (s : BinaryRpcChannel),
      (system mode parses).Reachable s → ∀ c call, s.calls[c]? = some call → call.pc.isDone = true →
        (∀ p ∈ s.pendingRequests, p.2 ≠ c) ∧ s.receiver.callInHand ≠ some c ∧
          ∀ p ∈ s.resumes, p.2 ≠ c := by
  intro h
  obtain ⟨s, hs, call, hcall, hdone, hhand⟩ : ∃ s ∈ (system .thread parsesSeven).run create earlyResponse,
      ∃ call ∈ s.calls[0]?, call.pc.isDone = true ∧ s.receiver.callInHand = some 0 := by decide
  exact (h .thread parsesSeven s (.of_run _ hs) 0 call hcall hdone).2.1 hhand

end BinaryRpcChannel

end Tudou
