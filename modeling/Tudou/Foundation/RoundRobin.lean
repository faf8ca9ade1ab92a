import Mathlib.Data.List.Count

/-!
# Dealing in turn

A dealer that goes round `n` places, one a time.

* `Balanced` — what has been dealt, with the dealer before `index`: every place has had the same number of
  rounds, and those before `index` one more.
* `Balanced.deal` — it is kept by a turn.
* `Balanced.count_le` — **no place is more than one ahead of another**.
* `Balanced.dealt_range` — the remainders of `0, 1, …` are such a deal.
-/

namespace RoundRobin

/-- Every place has had the same number of rounds, those before `index` one more. -/
structure Balanced (n index : Nat) (dealt : List Nat) : Prop where
  index_lt : index < n
  mem_lt : ∀ k ∈ dealt, k < n
  counts : ∃ rounds, ∀ k < n, dealt.count k = rounds + if k < index then 1 else 0

variable {n index : Nat} {dealt : List Nat}

theorem Balanced.init (h : 0 < n) : Balanced n 0 [] where
  index_lt := h
  mem_lt k hk := absurd hk List.not_mem_nil
  counts := ⟨0, fun k _ => by simp⟩

/-- The place at the turn is dealt one. -/
theorem Balanced.deal (h : Balanced n index dealt) :
    Balanced n ((index + 1) % n) (dealt ++ [index]) where
  index_lt := Nat.mod_lt _ (by have := h.index_lt; omega)
  mem_lt := by
    intro k hk
    rcases List.mem_append.mp hk with hk | hk
    · exact h.mem_lt k hk
    · rw [List.mem_singleton.mp hk]
      exact h.index_lt
  counts := by
    obtain ⟨rounds, hrounds⟩ := h.counts
    have hlt := h.index_lt
    by_cases hlast : index + 1 = n
    · -- the round is over
      refine ⟨rounds + 1, fun k hk => ?_⟩
      rw [hlast, Nat.mod_self, List.count_append, hrounds k hk, List.count_singleton]
      by_cases hself : index = k
      · simp [hself]
      · have hbefore : k < index := by omega
        simp [hself, hbefore]
    · refine ⟨rounds, fun k hk => ?_⟩
      rw [Nat.mod_eq_of_lt (by omega), List.count_append, hrounds k hk, List.count_singleton]
      by_cases hself : index = k
      · simp [hself]
      · have hsame : k < index + 1 ↔ k < index := by omega
        simp [hself, hsame]

/-- **No place is more than one ahead of another.** -/
theorem Balanced.count_le (h : Balanced n index dealt) {j k : Nat} (hj : j < n) (hk : k < n) :
    dealt.count j ≤ dealt.count k + 1 := by
  obtain ⟨rounds, hrounds⟩ := h.counts
  rw [hrounds j hj, hrounds k hk]
  split <;> omega

/-- **The remainders of `0, 1, …, m - 1`** are dealt in turn. -/
theorem Balanced.dealt_range (h : 0 < n) (m : Nat) :
    Balanced n (m % n) ((List.range m).map (· % n)) := by
  induction m with
  | zero =>
    rw [Nat.zero_mod]
    exact .init h
  | succ m ih =>
    have hnext := ih.deal
    rw [Nat.mod_add_mod] at hnext
    rw [List.range_succ, List.map_append, List.map_singleton]
    exact hnext

end RoundRobin
