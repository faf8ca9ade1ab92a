import Mathlib.Data.List.Basic
import Tudou.Foundation.Run

/-!
# An abstract byte pipe

What an ordered, lossless output path is for, without any code: producers append to it, a
consumer takes prefixes of any length, and nothing is lost, duplicated or reordered.

* `Pipe` — what was delivered, what is still queued and everything pushed, with the law that
  ties the three together as a field.
* `pipe` — the transition system of pushes and deliveries.
-/

namespace Transition

variable {α : Type*}

/-- A pipe: `delivered ++ queued` is, in order, everything pushed so far. -/
structure Pipe (α : Type*) where
  delivered : List α
  queued : List α
  pushed : List α
  conserved : delivered ++ queued = pushed

namespace Pipe

/-- The pipe nothing has been pushed to. -/
def empty : Pipe α := ⟨[], [], [], rfl⟩

/-- Append `xs` to the queue. -/
def push (p : Pipe α) (xs : List α) : Pipe α :=
  ⟨p.delivered, p.queued ++ xs, p.pushed ++ xs, by rw [← List.append_assoc, p.conserved]⟩

/-- Deliver the first `n` queued elements. -/
def deliver (p : Pipe α) (n : Nat) : Pipe α :=
  ⟨p.delivered ++ p.queued.take n, p.queued.drop n, p.pushed, by
    rw [List.append_assoc, List.take_append_drop, p.conserved]⟩

end Pipe

inductive PipeLabel (α : Type*) where
  | push (xs : List α)
  | deliver (n : Nat)

/-- Pushes are always possible, a delivery takes at most what is queued. -/
def pipe (α : Type*) : System (Pipe α) (PipeLabel α) where
  init := Pipe.empty
  step p
    | .push xs => some (p.push xs)
    | .deliver n => if n ≤ p.queued.length then some (p.deliver n) else none

theorem pipe_run_push_deliver (p : Pipe α) (xs : List α) {n : Nat}
    (h : n ≤ p.queued.length + xs.length) :
    (pipe α).run p [.push xs, .deliver n] = some ((p.push xs).deliver n) := by
  simp only [System.run, pipe, Pipe.push, List.length_append, if_pos h]

end Transition
