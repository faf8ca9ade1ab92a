import Mathlib.Data.List.Basic

/-!
# Operations that take effect one at a time

Clients invoke operations on one object and are answered later; in between each operation takes effect
at one moment.  What the clients see is then what a sequential object would have told them.

* `replay` — a history, replayed on the sequential object.
* `ofClient` — one client's part of a history.
* `Linearizes` — **a history accounts for what the clients have invoked and been told**: its operations
  are the clients' own, in their order, and the answers are the replayed ones.
* `Linearizes.invoke`, `takeEffect`, `answer` — the three rules of such an object.
* `Linearizes.precedes` — **the order is that of real time**: what has been answered at some moment comes
  before what is invoked after it.
-/

namespace Linearization

variable {T op out σ : Type*}

/-- The entries of one client. -/
def ofClient [DecidableEq T] {α : Type*} (t : T) (entries : List (T × α)) : List α :=
  (entries.filter fun e => e.1 = t).map Prod.snd

section OfClient

variable [DecidableEq T] {α β : Type*} (t : T)

@[simp] theorem ofClient_nil : ofClient t ([] : List (T × α)) = [] := rfl

theorem ofClient_append (entries entries' : List (T × α)) :
    ofClient t (entries ++ entries') = ofClient t entries ++ ofClient t entries' := by
  simp [ofClient]

theorem ofClient_append_self (entries : List (T × α)) (x : α) :
    ofClient t (entries ++ [(t, x)]) = ofClient t entries ++ [x] := by
  simp [ofClient]

theorem ofClient_append_other {t t' : T} (h : t' ≠ t) (entries : List (T × α)) (x : α) :
    ofClient t (entries ++ [(t', x)]) = ofClient t entries := by
  simp [ofClient, h]

theorem ofClient_take_mono {m n : Nat} (h : m ≤ n) (entries : List (T × α)) :
    ofClient t (entries.take m) <+: ofClient t (entries.take n) := by
  obtain ⟨rest, hrest⟩ := List.take_prefix_take_left h (l := entries)
  rw [← hrest, ofClient_append]
  exact List.prefix_append _ _

/-- The client's entries up to one of them. -/
theorem ofClient_take_succ {t : T} {entries : List (T × α)} {i : Nat} {x : α}
    (h : entries[i]? = some (t, x)) :
    ofClient t (entries.take (i + 1)) = ofClient t (entries.take i) ++ [x] := by
  rw [List.take_add_one, h, Option.toList_some, ofClient_append_self]

theorem length_ofClient (entries : List (T × α)) :
    (ofClient t entries).length = (entries.map Prod.fst).count t := by
  induction entries with
  | nil => rfl
  | cons e entries ih =>
    obtain ⟨t', x⟩ := e
    by_cases h : t' = t
    · simpa [ofClient, h] using ih
    · simpa [ofClient, h] using ih

end OfClient

variable (apply : op → σ → out × σ)

/-- The answers to a history, and the state it leads to. -/
def replay : List (T × op) → σ → List (T × out) × σ
  | [], w => ([], w)
  | (t, o) :: history, w =>
    ((t, (apply o w).1) :: (replay history (apply o w).2).1, (replay history (apply o w).2).2)

/-- One more operation takes effect. -/
theorem replay_append_singleton (history : List (T × op)) (t : T) (o : op) (w : σ) :
    replay apply (history ++ [(t, o)]) w =
      ((replay apply history w).1 ++ [(t, (apply o (replay apply history w).2).1)],
        (apply o (replay apply history w).2).2) := by
  induction history generalizing w with
  | nil => rfl
  | cons e history ih => simp only [List.cons_append, replay, ih]

theorem map_fst_replay (history : List (T × op)) (w : σ) :
    (replay apply history w).1.map Prod.fst = history.map Prod.fst := by
  induction history generalizing w with
  | nil => rfl
  | cons e history ih => simp only [replay, List.map_cons, ih]

variable [DecidableEq T]

/-- A client has as many answers as operations that took effect. -/
theorem length_ofClient_replay (t : T) (history : List (T × op)) (w : σ) :
    (ofClient t (replay apply history w).1).length = (ofClient t history).length := by
  rw [length_ofClient, length_ofClient, map_fst_replay]

/-- **A history accounts for what the clients have invoked and been told.** -/
structure Linearizes (w₀ : σ) (history : List (T × op)) (invoked : T → List op) (told : T → List out)
    (w : σ) : Prop where
  state : (replay apply history w₀).2 = w
  invoked : ∀ t, ofClient t history <+: invoked t
  told : ∀ t, told t <+: ofClient t (replay apply history w₀).1

variable {apply} {w₀ w : σ} {history : List (T × op)} {invoked invoked' : T → List op}
  {told told' : T → List out}

theorem Linearizes.init (w₀ : σ) : Linearizes (T := T) apply w₀ [] (fun _ => []) (fun _ => []) w₀ where
  state := rfl
  invoked _ := List.nil_prefix
  told _ := List.nil_prefix

/-- A client invokes an operation. -/
theorem Linearizes.invoke (h : Linearizes apply w₀ history invoked told w)
    (hinvoked : ∀ t, invoked t <+: invoked' t) : Linearizes apply w₀ history invoked' told w where
  state := h.state
  invoked t := (h.invoked t).trans (hinvoked t)
  told := h.told

/-- The oldest operation of a client that has not taken effect does so. -/
theorem Linearizes.takeEffect (h : Linearizes apply w₀ history invoked told w) {t : T} {o : op}
    (ho : ofClient t history ++ [o] <+: invoked t) :
    Linearizes apply w₀ (history ++ [(t, o)]) invoked told (apply o w).2 where
  state := by rw [replay_append_singleton, h.state]
  invoked := by
    intro t'
    by_cases ht : t = t'
    · subst ht
      rw [ofClient_append_self]
      exact ho
    · rw [ofClient_append_other ht]
      exact h.invoked t'
  told := by
    intro t'
    rw [replay_append_singleton, ofClient_append]
    exact (h.told t').trans (List.prefix_append _ _)

/-- What the operation that takes effect will be answered. -/
theorem Linearizes.takeEffect_told (h : Linearizes apply w₀ history invoked told w) (t : T) (o : op) :
    ofClient t (replay apply (history ++ [(t, o)]) w₀).1 =
      ofClient t (replay apply history w₀).1 ++ [(apply o w).1] := by
  rw [replay_append_singleton, ofClient_append_self, h.state]

/-- **Real time**: if the first `m` operations are those that have taken effect by some moment, one that has
been answered by then comes before one that has not been invoked. -/
theorem Linearizes.precedes {m i j : Nat} {t t' : T} {o : op}
    (h : Linearizes apply w₀ (history.take m) invoked told w) (hj : history[j]? = some (t', o))
    (hanswered : (ofClient t (history.take i)).length < (told t).length)
    (hlater : (invoked t').length ≤ (ofClient t' (history.take j)).length) : i < j := by
  have him : i < m := by
    by_contra hmi
    have hbefore := (ofClient_take_mono t (Nat.le_of_not_lt hmi) history).length_le
    have htold := (h.told t).length_le
    rw [length_ofClient_replay] at htold
    omega
  have hmj : m ≤ j := by
    by_contra hjm
    have hbefore := (ofClient_take_mono t' (Nat.succ_le_of_lt (Nat.lt_of_not_le hjm)) history).length_le
    rw [Nat.succ_eq_add_one, ofClient_take_succ hj, List.length_append, List.length_singleton] at hbefore
    have hinvoked := (h.invoked t').length_le
    omega
  omega

/-- A client is told what its oldest unanswered operation returned. -/
theorem Linearizes.answer (h : Linearizes apply w₀ history invoked told w)
    (htold : ∀ t, told' t <+: ofClient t (replay apply history w₀).1) :
    Linearizes apply w₀ history invoked told' w where
  state := h.state
  invoked := h.invoked
  told := htold

end Linearization
