import Mathlib.Data.List.Infix

/-!
# Searching for a pattern

* `seek` — the list from the first occurrence of a pattern on; `after` — what follows that occurrence.
* `seek_self`, `seek_cons`, `seek_cons_of_ne` — an occurrence, and what is not the beginning of one.
* `eq_of_stop` — words that end at the same stop.
-/

namespace Search

variable {α : Type*} [DecidableEq α]

/-- From the first occurrence of the pattern on. -/
def seek (pattern : List α) : List α → Option (List α)
  | [] => if pattern.isEmpty then some [] else none
  | a :: s => if pattern.isPrefixOf (a :: s) then some (a :: s) else seek pattern s

/-- What follows the first occurrence of the pattern. -/
def after (pattern s : List α) : Option (List α) := (seek pattern s).map fun t => t.drop pattern.length

/-- The pattern is found where it is. -/
theorem seek_self (pattern rest : List α) : seek pattern (pattern ++ rest) = some (pattern ++ rest) := by
  cases hs : pattern ++ rest with
  | nil =>
    obtain ⟨rfl, rfl⟩ := List.append_eq_nil_iff.mp hs
    rfl
  | cons a s =>
    have hfound : pattern.isPrefixOf (a :: s) = true := by
      rw [List.isPrefixOf_iff_prefix, ← hs]
      apply List.prefix_append
    unfold seek
    rw [if_pos hfound]

/-- An element at which no occurrence begins is passed over. -/
theorem seek_cons {pattern s : List α} {a : α} (h : ¬pattern <+: a :: s) :
    seek pattern (a :: s) = seek pattern s := by
  rw [seek, if_neg (by rwa [List.isPrefixOf_iff_prefix])]

/-- So is one that is not the first of the pattern. -/
theorem seek_cons_of_ne {a b : α} (h : a ≠ b) (pattern s : List α) :
    seek (b :: pattern) (a :: s) = seek (b :: pattern) s := by
  apply seek_cons
  intro hpre
  exact h (List.cons_prefix_cons.mp hpre).1.symm

theorem after_self (pattern rest : List α) : after pattern (pattern ++ rest) = some rest := by
  simp [after, seek_self]

theorem after_cons {pattern s : List α} {a : α} (h : ¬pattern <+: a :: s) :
    after pattern (a :: s) = after pattern s := by
  simp only [after, seek_cons h]

theorem after_cons_of_ne {a b : α} (h : a ≠ b) (pattern s : List α) :
    after (b :: pattern) (a :: s) = after (b :: pattern) s := by
  simp only [after, seek_cons_of_ne h]

/-- A single element is found behind all others. -/
theorem after_singleton {a : α} {front : List α} (h : a ∉ front) (rest : List α) :
    after [a] (front ++ a :: rest) = some rest := by
  induction front with
  | nil => exact after_self [a] rest
  | cons b front ih =>
    rw [List.mem_cons, not_or] at h
    rw [List.cons_append, after_cons_of_ne (Ne.symm h.1)]
    exact ih h.2

omit [DecidableEq α] in
/-- Two words, each up to the first stop. -/
theorem eq_of_stop {stop : α} {word other : List α} (h : stop ∉ word) (h' : stop ∉ other) {rest : List α}
    (hpre : word ++ [stop] <+: other ++ stop :: rest) : word = other := by
  induction word generalizing other with
  | nil =>
    cases other with
    | nil => rfl
    | cons c other =>
      rw [List.mem_cons, not_or] at h'
      exact absurd (List.cons_prefix_cons.mp hpre).1 h'.1
  | cons b word ih =>
    rw [List.mem_cons, not_or] at h
    cases other with
    | nil => exact absurd (List.cons_prefix_cons.mp hpre).1.symm h.1
    | cons c other =>
      rw [List.mem_cons, not_or] at h'
      obtain ⟨hhead, hrest⟩ := List.cons_prefix_cons.mp hpre
      rw [ih h.2 h'.2 hrest, hhead]

end Search
