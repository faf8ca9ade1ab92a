import Mathlib.Data.List.Basic
import Mathlib.Data.List.Nodup
import Tudou.Foundation.Run

/-!
# Matching replies to requests by key

Many requests share one stream of messages; a request is filed under a key, and a message completes
the request filed under its key when it arrives.  Keys may be reused and need not be distinct.

* `Table` — requests, what is filed, the message in hand, and the history of messages and completions.
* `system` — requests are issued, filed, withdrawn or failed all at once; messages arrive and are
  finished one at a time; all in any order.
* `FirstMessage` — the first message with the request's key since it was filed.
* `Matched` — the invariant; from it, in every reachable state, **a request is completed at most once,
  by its first message or by a failure, and no message completes two requests**.
-/

namespace Correlation

open Transition

/-- A request with its key and the number of messages that had arrived when it was filed. -/
structure Request (κ : Type*) where
  key : κ
  filedAt : Option Nat
  deriving DecidableEq

/-- Request number `request` was completed, by message number `message` or by a failure; `result` is
the payload where it was accepted. -/
structure Completion (β : Type*) where
  request : Nat
  message : Option Nat
  result : Option β
  deriving DecidableEq

structure Table (κ β : Type*) where
  requests : List (Request κ)
  filed : List (κ × Nat)
  /-- The message that is being worked on: the request it is for, its number and its payload. -/
  inHand : Option (Nat × Nat × β)
  messages : List (κ × β)
  completions : List (Completion β)

inductive Label (κ β : Type*) where
  | issue (key : κ)
  | file (i : Nat)
  | withdraw (key : κ)
  | arrive (key : κ) (payload : β)
  | finish (accepted : Bool)
  | failAll

namespace Table

variable {κ β : Type*}

def empty : Table κ β := ⟨[], [], none, [], []⟩

/-- What is filed under other keys. -/
def without [DecidableEq κ] (filed : List (κ × Nat)) (key : κ) : List (κ × Nat) :=
  filed.filter fun p => p.1 ≠ key

def step [DecidableEq κ] (t : Table κ β) : Label κ β → Option (Table κ β)
  | .issue key => some { t with requests := t.requests ++ [⟨key, none⟩] }
  | .file i =>
    match t.requests[i]? with
    | none => none
    | some r =>
      if r.filedAt = none then
        some { t with
          requests := t.requests.set i { r with filedAt := some t.messages.length }
          filed := (r.key, i) :: without t.filed r.key }
      else none
  | .withdraw key => some { t with filed := without t.filed key }
  | .arrive key payload =>
    match t.inHand with
    | some _ => none
    | none =>
      some { t with
        messages := t.messages ++ [(key, payload)]
        filed := without t.filed key
        inHand := (t.filed.find? fun p => p.1 = key).map fun p => (p.2, t.messages.length, payload) }
  | .finish accepted =>
    match t.inHand with
    | none => none
    | some (i, m, payload) =>
      some { t with
        inHand := none
        completions := t.completions ++ [⟨i, some m, if accepted then some payload else none⟩] }
  | .failAll =>
    some { t with
      filed := []
      completions := t.completions ++ t.filed.map fun p => ⟨p.2, none, none⟩ }

def system [DecidableEq κ] : System (Table κ β) (Label κ β) := ⟨empty, step⟩

/-- Message `m` is the first with the key of request `i` since that was filed. -/
structure FirstMessage (t : Table κ β) (i m : Nat) (payload : β) : Prop where
  filed : ∃ r n, t.requests[i]? = some r ∧ r.filedAt = some n ∧ n ≤ m ∧
    t.messages[m]? = some (r.key, payload) ∧
      ∀ j p, n ≤ j → j < m → t.messages[j]? = some p → p.1 ≠ r.key

/-- Request `i` is filed under `key`, and no message with that key has come since. -/
structure Waiting (t : Table κ β) (key : κ) (i : Nat) : Prop where
  filed : ∃ r n, t.requests[i]? = some r ∧ r.key = key ∧ r.filedAt = some n ∧ n ≤ t.messages.length ∧
    ∀ j p, n ≤ j → t.messages[j]? = some p → p.1 ≠ key
  fresh : ∀ c ∈ t.completions, c.request ≠ i

/-- Requests that wait, the one in hand, and completed ones are different, and so are messages. -/
structure Matched (t : Table κ β) : Prop where
  waiting : ∀ p ∈ t.filed, t.Waiting p.1 p.2
  distinct : (t.filed.map Prod.snd).Nodup
  inHand : ∀ i m payload, t.inHand = some (i, m, payload) →
    t.FirstMessage i m payload ∧ (∀ p ∈ t.filed, p.2 ≠ i) ∧
      ∀ c ∈ t.completions, c.request ≠ i ∧ c.message ≠ some m
  completed : ∀ c ∈ t.completions, (∃ r, t.requests[c.request]? = some r ∧ r.filedAt ≠ none) ∧
    match c.message with
    | none => c.result = none
    | some m => ∃ payload, t.FirstMessage c.request m payload ∧
        (c.result = none ∨ c.result = some payload)
  requestsOnce : (t.completions.map Completion.request).Nodup
  messagesOnce : (t.completions.filterMap Completion.message).Nodup

/-! ## What later steps leave as it was -/

/-- Filed requests stay as they are, and messages are only added. -/
structure Extends (t t' : Table κ β) : Prop where
  requests : ∀ {i : Nat} {r : Request κ}, t.requests[i]? = some r → r.filedAt ≠ none →
    t'.requests[i]? = some r
  messages : t.messages <+: t'.messages

theorem Extends.of_eq {t t' : Table κ β} (hr : t'.requests = t.requests)
    (hm : t'.messages = t.messages) : t.Extends t' where
  requests h _ := by rwa [hr]
  messages := ⟨[], by rw [List.append_nil, hm]⟩

theorem FirstMessage.extend {t t' : Table κ β} {i m : Nat} {payload : β} (h : t.FirstMessage i m payload)
    (hext : t.Extends t') : t'.FirstMessage i m payload := by
  obtain ⟨r, n, hr, hfiled, hle, hm, hfirst⟩ := h.filed
  obtain ⟨later, hlater⟩ := hext.messages
  have hlt := (List.getElem?_eq_some_iff.mp hm).1
  have hsame : ∀ j, j ≤ m → t'.messages[j]? = t.messages[j]? := by
    intro j hj
    rw [← hlater, List.getElem?_append_left (by omega)]
  refine ⟨r, n, hext.requests hr (by simp [hfiled]), hfiled, hle, ?_, ?_⟩
  · rw [hsame m (Nat.le_refl m)]
    exact hm
  · intro j p hn hj hp
    rw [hsame j (by omega)] at hp
    exact hfirst j p hn hj hp

/-- A message of a completion has arrived. -/
theorem FirstMessage.lt {t : Table κ β} {i m : Nat} {payload : β} (h : t.FirstMessage i m payload) :
    m < t.messages.length := by
  obtain ⟨r, n, -, -, -, hm, -⟩ := h.filed
  exact (List.getElem?_eq_some_iff.mp hm).1

theorem FirstMessage.filedAt {t : Table κ β} {i m : Nat} {payload : β} (h : t.FirstMessage i m payload) :
    ∃ r, t.requests[i]? = some r ∧ r.filedAt ≠ none := by
  obtain ⟨r, n, hr, hfiled, -⟩ := h.filed
  exact ⟨r, hr, by simp [hfiled]⟩

theorem Waiting.filedAt {t : Table κ β} {key : κ} {i : Nat} (h : t.Waiting key i) :
    ∃ r, t.requests[i]? = some r ∧ r.filedAt ≠ none := by
  obtain ⟨r, n, hr, -, hfiled, -⟩ := h.filed
  exact ⟨r, hr, by simp [hfiled]⟩

/-- While no message comes, a request goes on waiting until it is completed. -/
theorem Waiting.extend {t t' : Table κ β} {key : κ} {i : Nat} (h : t.Waiting key i)
    (hext : t.Extends t') (hm : t'.messages = t.messages)
    (hfresh : ∀ c ∈ t'.completions, c.request ≠ i) : t'.Waiting key i := by
  obtain ⟨r, n, hr, hkey, hfiled, hle, hnone⟩ := h.filed
  refine ⟨⟨r, n, hext.requests hr (by simp [hfiled]), hkey, hfiled, ?_, ?_⟩, hfresh⟩
  · rwa [hm]
  · rwa [hm]

theorem Matched.completed_extend {t t' : Table κ β} (h : t.Matched) (hext : t.Extends t') :
    ∀ c ∈ t.completions, (∃ r, t'.requests[c.request]? = some r ∧ r.filedAt ≠ none) ∧
      match c.message with
      | none => c.result = none
      | some m => ∃ payload, t'.FirstMessage c.request m payload ∧
          (c.result = none ∨ c.result = some payload) := by
  intro c hc
  obtain ⟨⟨r, hr, hfiled⟩, hmessage⟩ := h.completed c hc
  refine ⟨⟨r, hext.requests hr hfiled, hfiled⟩, ?_⟩
  split
  · rename_i hnone
    rwa [hnone] at hmessage
  · rename_i m hm
    rw [hm] at hmessage
    obtain ⟨payload, hfirst, hresult⟩ := hmessage
    exact ⟨payload, hfirst.extend hext, hresult⟩

/-! ## The steps -/

theorem Matched.empty : (empty : Table κ β).Matched where
  waiting _ h := absurd h List.not_mem_nil
  distinct := List.nodup_nil
  inHand _ _ _ h := by cases h
  completed _ h := absurd h List.not_mem_nil
  requestsOnce := List.nodup_nil
  messagesOnce := List.nodup_nil

theorem Matched.issue {t : Table κ β} (h : t.Matched) (key : κ) :
    Matched { t with requests := t.requests ++ [⟨key, none⟩] } := by
  have hext : t.Extends { t with requests := t.requests ++ [⟨key, none⟩] } := by
    refine ⟨fun {i r} hr _ => ?_, List.prefix_refl _⟩
    rw [List.getElem?_append_left (List.getElem?_eq_some_iff.mp hr).1]
    exact hr
  exact {
    waiting := fun p hp => (h.waiting p hp).extend hext rfl (h.waiting p hp).fresh
    distinct := h.distinct
    inHand := by
      intro i m payload hhand
      obtain ⟨hfirst, hothers⟩ := h.inHand i m payload hhand
      exact ⟨hfirst.extend hext, hothers⟩
    completed := h.completed_extend hext
    requestsOnce := h.requestsOnce
    messagesOnce := h.messagesOnce }

/-- The request in hand is completed by its message. -/
theorem Matched.finish {t : Table κ β} (h : t.Matched) {i m : Nat} {payload : β}
    (hhand : t.inHand = some (i, m, payload)) (accepted : Bool) :
    Matched { t with
      inHand := none
      completions := t.completions ++ [⟨i, some m, if accepted then some payload else none⟩] } := by
  obtain ⟨hfirst, hfiled, hothers⟩ := h.inHand i m payload hhand
  have hext : t.Extends { t with
      inHand := none
      completions := t.completions ++ [⟨i, some m, if accepted then some payload else none⟩] } :=
    .of_eq rfl rfl
  exact {
    waiting := by
      intro p hp
      refine (h.waiting p hp).extend hext rfl ?_
      intro c hc
      rcases List.mem_append.mp hc with hc | hc
      · exact (h.waiting p hp).fresh c hc
      · rw [List.mem_singleton.mp hc]
        exact (hfiled p hp).symm
    distinct := h.distinct
    inHand := by
      intro j n pl hnone
      cases hnone
    completed := by
      intro c hc
      rcases List.mem_append.mp hc with hc | hc
      · exact h.completed_extend hext c hc
      · rw [List.mem_singleton.mp hc]
        refine ⟨hfirst.filedAt, payload, hfirst.extend hext, ?_⟩
        cases accepted with
        | false => exact .inl rfl
        | true => exact .inr rfl
    requestsOnce := by
      rw [List.map_append, List.map_singleton, ← List.concat_eq_append]
      refine List.Nodup.concat ?_ h.requestsOnce
      intro hmem
      obtain ⟨c, hc, hci⟩ := List.mem_map.mp hmem
      exact (hothers c hc).1 hci
    messagesOnce := by
      rw [List.filterMap_append]
      change (t.completions.filterMap Completion.message ++ [m]).Nodup
      rw [← List.concat_eq_append]
      refine List.Nodup.concat ?_ h.messagesOnce
      intro hmem
      obtain ⟨c, hc, hcm⟩ := List.mem_filterMap.mp hmem
      exact (hothers c hc).2 hcm }

/-- Every waiting request fails. -/
theorem Matched.failAll {t : Table κ β} (h : t.Matched) :
    Matched { t with
      filed := []
      completions := t.completions ++ t.filed.map fun p => ⟨p.2, none, none⟩ } := by
  have hext : t.Extends { t with
      filed := []
      completions := t.completions ++ t.filed.map fun p => ⟨p.2, none, none⟩ } := .of_eq rfl rfl
  exact {
    waiting := fun p hp => absurd hp List.not_mem_nil
    distinct := List.nodup_nil
    inHand := by
      intro i m payload hhand
      obtain ⟨hfirst, hfiled, hothers⟩ := h.inHand i m payload hhand
      refine ⟨hfirst.extend hext, fun p hp => absurd hp List.not_mem_nil, ?_⟩
      intro c hc
      rcases List.mem_append.mp hc with hc | hc
      · exact hothers c hc
      · obtain ⟨p, hp, rfl⟩ := List.mem_map.mp hc
        exact ⟨hfiled p hp, by simp⟩
    completed := by
      intro c hc
      rcases List.mem_append.mp hc with hc | hc
      · exact h.completed_extend hext c hc
      · obtain ⟨p, hp, rfl⟩ := List.mem_map.mp hc
        exact ⟨(h.waiting p hp).filedAt, rfl⟩
    requestsOnce := by
      rw [List.map_append, List.map_map, List.nodup_append]
      refine ⟨h.requestsOnce, h.distinct, ?_⟩
      intro i hi j hj heq
      obtain ⟨c, hc, rfl⟩ := List.mem_map.mp hi
      obtain ⟨p, hp, rfl⟩ := List.mem_map.mp hj
      exact (h.waiting p hp).fresh c hc heq
    messagesOnce := by
      have hnone : (t.filed.map fun p => (⟨p.2, none, none⟩ : Completion β)).filterMap
          Completion.message = [] := by
        simp
      rw [List.filterMap_append, hnone, List.append_nil]
      exact h.messagesOnce }

section Steps

variable [DecidableEq κ]

theorem mem_without {filed : List (κ × Nat)} {key : κ} {p : κ × Nat} :
    p ∈ without filed key ↔ p ∈ filed ∧ p.1 ≠ key := by
  simp [without]

theorem distinct_without {filed : List (κ × Nat)} (h : (filed.map Prod.snd).Nodup) (key : κ) :
    ((without filed key).map Prod.snd).Nodup :=
  h.sublist (List.filter_sublist.map Prod.snd)

theorem Matched.withdraw {t : Table κ β} (h : t.Matched) (key : κ) :
    Matched { t with filed := without t.filed key } where
  waiting p hp := (h.waiting p (mem_without.mp hp).1).extend (.of_eq rfl rfl) rfl
    (h.waiting p (mem_without.mp hp).1).fresh
  distinct := distinct_without h.distinct key
  inHand := by
    intro i m payload hhand
    obtain ⟨hfirst, hfiled, hothers⟩ := h.inHand i m payload hhand
    exact ⟨hfirst.extend (.of_eq rfl rfl), fun p hp => hfiled p (mem_without.mp hp).1, hothers⟩
  completed := h.completed_extend (.of_eq rfl rfl)
  requestsOnce := h.requestsOnce
  messagesOnce := h.messagesOnce

/-- A request that was never filed is filed now. -/
theorem Matched.file {t : Table κ β} (h : t.Matched) {i : Nat} {r : Request κ}
    (hr : t.requests[i]? = some r) (hnew : r.filedAt = none) :
    Matched { t with
      requests := t.requests.set i { r with filedAt := some t.messages.length }
      filed := (r.key, i) :: without t.filed r.key } := by
  have hlt := (List.getElem?_eq_some_iff.mp hr).1
  -- whatever was filed before is another request
  have hother : ∀ {j}, (∃ q, t.requests[j]? = some q ∧ q.filedAt ≠ none) → j ≠ i := by
    rintro j ⟨q, hq, hfiled⟩ rfl
    rw [hr] at hq
    cases hq
    exact hfiled hnew
  have hext : t.Extends { t with
      requests := t.requests.set i { r with filedAt := some t.messages.length }
      filed := (r.key, i) :: without t.filed r.key } := by
    refine ⟨fun {j q} hq hfiled => ?_, List.prefix_refl _⟩
    rw [List.getElem?_set_ne (hother ⟨q, hq, hfiled⟩).symm]
    exact hq
  have hfresh : ∀ c ∈ t.completions, c.request ≠ i := by
    intro c hc
    exact hother (h.completed c hc).1
  have hwaiting : ∀ p ∈ without t.filed r.key, p.2 ≠ i := by
    intro p hp
    exact hother (h.waiting p (mem_without.mp hp).1).filedAt
  exact {
    waiting := by
      intro p hp
      rcases List.mem_cons.mp hp with rfl | hp
      · refine ⟨⟨{ r with filedAt := some t.messages.length }, t.messages.length,
          by rw [List.getElem?_set_self hlt], rfl, rfl, Nat.le_refl _, ?_⟩, hfresh⟩
        intro j q hj hq
        have hjlt : j < t.messages.length := (List.getElem?_eq_some_iff.mp hq).1
        omega
      · have hold := h.waiting p (mem_without.mp hp).1
        exact hold.extend hext rfl hold.fresh
    distinct := by
      rw [List.map_cons, List.nodup_cons]
      refine ⟨?_, distinct_without h.distinct r.key⟩
      intro hmem
      obtain ⟨p, hp, hpi⟩ := List.mem_map.mp hmem
      exact hwaiting p hp hpi
    inHand := by
      intro j m payload hhand
      obtain ⟨hfirst, hfiled, hothers⟩ := h.inHand j m payload hhand
      refine ⟨hfirst.extend hext, ?_, hothers⟩
      intro p hp
      rcases List.mem_cons.mp hp with rfl | hp
      · exact (hother hfirst.filedAt).symm
      · exact hfiled p (mem_without.mp hp).1
    completed := h.completed_extend hext
    requestsOnce := h.requestsOnce
    messagesOnce := h.messagesOnce }

/-- A message arrives: the request filed under its key is taken in hand. -/
theorem Matched.arrive {t : Table κ β} (h : t.Matched) (key : κ) (payload : β) :
    Matched { t with
      messages := t.messages ++ [(key, payload)]
      filed := without t.filed key
      inHand := (t.filed.find? fun p => p.1 = key).map fun p => (p.2, t.messages.length, payload) } := by
  have hext : t.Extends { t with
      messages := t.messages ++ [(key, payload)]
      filed := without t.filed key
      inHand := (t.filed.find? fun p => p.1 = key).map fun p => (p.2, t.messages.length, payload) } :=
    ⟨fun hr _ => hr, List.prefix_append _ _⟩
  -- what is known about the old messages, about all of them
  have hmessage : ∀ {j p}, (t.messages ++ [(key, payload)])[j]? = some p →
      t.messages[j]? = some p ∨ j = t.messages.length ∧ p = (key, payload) := by
    intro j p hp
    by_cases hj : j < t.messages.length
    · rw [List.getElem?_append_left hj] at hp
      exact .inl hp
    · have hlen := (List.getElem?_eq_some_iff.mp hp).1
      rw [List.length_append, List.length_singleton] at hlen
      obtain rfl : j = t.messages.length := by omega
      rw [List.getElem?_append_right (Nat.le_refl _), Nat.sub_self] at hp
      cases hp
      exact .inr ⟨rfl, rfl⟩
  exact {
    waiting := by
      intro p hp
      obtain ⟨hmem, hkey⟩ := mem_without.mp hp
      obtain ⟨⟨r, n, hr, hrkey, hfiled, hle, hnone⟩, hfresh⟩ := h.waiting p hmem
      refine ⟨⟨r, n, hr, hrkey, hfiled, ?_, ?_⟩, hfresh⟩
      · rw [List.length_append]
        omega
      · intro j q hn hq
        rcases hmessage hq with hq | ⟨-, rfl⟩
        · exact hnone j q hn hq
        · exact fun heq => hkey heq.symm
    distinct := distinct_without h.distinct key
    inHand := by
      intro i m pl hhand
      obtain ⟨p, hfind, hp⟩ := Option.map_eq_some_iff.mp hhand
      cases hp
      have hmem := List.mem_of_find?_eq_some hfind
      have hpkey : p.1 = key := by simpa using List.find?_some hfind
      obtain ⟨⟨r, n, hr, hrkey, hfiled, hle, hnone⟩, hfresh⟩ := h.waiting p hmem
      refine ⟨⟨r, n, hr, hfiled, hle, ?_, ?_⟩, ?_, fun c hc => ⟨hfresh c hc, ?_⟩⟩
      · rw [List.getElem?_append_right (Nat.le_refl _), Nat.sub_self, hrkey, hpkey]
        rfl
      · intro j q hn hj hq
        rcases hmessage hq with hq | ⟨hlast, -⟩
        · rw [hrkey]
          exact hnone j q hn hq
        · omega
      · -- another entry of the same request would be this one, which is filed under `key`
        intro q hq heq
        obtain ⟨hqmem, hqkey⟩ := mem_without.mp hq
        have hsame := List.inj_on_of_nodup_map h.distinct hqmem hmem heq
        exact hqkey (by rw [hsame, hpkey])
      · intro hm
        have hcompleted := (h.completed c hc).2
        rw [hm] at hcompleted
        obtain ⟨pl', hfirst, -⟩ := hcompleted
        exact Nat.lt_irrefl _ hfirst.lt
    completed := h.completed_extend hext
    requestsOnce := h.requestsOnce
    messagesOnce := h.messagesOnce }

/-- **Every step keeps requests and messages matched.** -/
theorem Matched.step {t t' : Table κ β} {l : Label κ β} (h : t.Matched) (hs : t.step l = some t') :
    t'.Matched := by
  cases l with
  | issue key =>
    cases hs
    exact h.issue key
  | file i =>
    simp only [Table.step] at hs
    split at hs
    · cases hs
    rename_i r hr
    split at hs
    · rename_i hnew
      cases hs
      exact h.file hr hnew
    · cases hs
  | withdraw key =>
    cases hs
    exact h.withdraw key
  | arrive key payload =>
    simp only [Table.step] at hs
    split at hs
    · cases hs
    · cases hs
      exact h.arrive key payload
  | finish accepted =>
    simp only [Table.step] at hs
    split at hs
    · cases hs
    · rename_i i m payload hhand
      cases hs
      exact h.finish hhand accepted
  | failAll =>
    cases hs
    exact h.failAll

/-- **Requests and messages are matched in every state reached.** -/
theorem matched_of_reachable {t : Table κ β} (h : (system : System (Table κ β) (Label κ β)).Reachable t) :
    t.Matched :=
  h.invariant Matched.empty fun _ _ _ hm _ hs => hm.step hs

end Steps

end Table

end Correlation
