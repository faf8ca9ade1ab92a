import Mathlib.Data.List.Basic
import Mathlib.Logic.Function.Basic

/-!
# Descriptor tables

The descriptors of a process: a number is free or names what it was opened for, a new descriptor gets
the lowest free number, and there is a limit to the numbers.

* `FdTable` — the table, over any type of things a descriptor can name.
* `FdTable.openFd`, `FdTable.closeFd` — allocation and release, with what they leave alone.
* `openFd_ends`, `openFd_eq_none` — what an allocation does, and when there is none.
-/

namespace Descriptors

variable {H : Type*}

structure FdTable (H : Type*) where
  limit : Nat
  /-- What a number names; `none` if it is free. -/
  holder : Nat → Option H

namespace FdTable

def lowestFree (t : FdTable H) : Option Nat :=
  (List.range t.limit).find? fun fd => (t.holder fd).isNone

/-- A new descriptor for `h`, or `none` for `EMFILE`. -/
def openFd (t : FdTable H) (h : H) : Option (FdTable H × Nat) :=
  t.lowestFree.map fun fd => ({ t with holder := Function.update t.holder fd (some h) }, fd)

def closeFd (t : FdTable H) (fd : Nat) : FdTable H :=
  { t with holder := Function.update t.holder fd none }

theorem lowestFree_eq_none_iff {t : FdTable H} :
    t.lowestFree = none ↔ ∀ fd < t.limit, t.holder fd ≠ none := by
  rw [lowestFree, List.find?_eq_none]
  constructor
  · intro h fd hlt hnone
    exact h fd (List.mem_range.mpr hlt) (by rw [hnone]; rfl)
  · intro h fd hmem hnone
    exact h fd (List.mem_range.mp hmem) (Option.isNone_iff_eq_none.mp hnone)

theorem lowestFree_ne_none_iff {t : FdTable H} :
    t.lowestFree ≠ none ↔ ∃ fd < t.limit, t.holder fd = none := by
  rw [ne_eq, lowestFree_eq_none_iff]
  simp only [not_forall, not_not, exists_prop]

theorem of_lowestFree {t : FdTable H} {fd : Nat} (h : t.lowestFree = some fd) :
    fd < t.limit ∧ t.holder fd = none := by
  rw [lowestFree] at h
  constructor
  · exact List.mem_range.mp (List.mem_of_find?_eq_some h)
  · simpa using List.find?_some h

theorem openFd_eq_none {t : FdTable H} {h : H} : t.openFd h = none ↔ t.lowestFree = none := by
  rw [openFd, Option.map_eq_none_iff]

/-- What allocation does. -/
theorem openFd_ends {t t' : FdTable H} {h : H} {fd : Nat} (ho : t.openFd h = some (t', fd)) :
    fd < t.limit ∧ t.holder fd = none ∧
      t' = { t with holder := Function.update t.holder fd (some h) } := by
  obtain ⟨fd', hfree, heq⟩ := Option.map_eq_some_iff.mp ho
  cases heq
  exact ⟨(of_lowestFree hfree).1, (of_lowestFree hfree).2, rfl⟩

/-- Allocation leaves the numbers in use alone. -/
theorem holder_openFd {t t' : FdTable H} {h h' : H} {fd n : Nat} (ho : t.openFd h = some (t', fd))
    (hn : t.holder n = some h') : t'.holder n = some h' := by
  obtain ⟨-, hfree, rfl⟩ := openFd_ends ho
  have hne : n ≠ fd := by
    rintro rfl
    rw [hfree] at hn
    cases hn
  exact (Function.update_of_ne hne _ _).trans hn

/-- A number that names something after an allocation named it before, or names what was opened. -/
theorem of_holder_openFd {t t' : FdTable H} {h h' : H} {fd n : Nat}
    (ho : t.openFd h = some (t', fd)) (hn : t'.holder n = some h') :
    t.holder n = some h' ∨ n = fd ∧ h' = h := by
  obtain ⟨-, -, rfl⟩ := openFd_ends ho
  simp only [Function.update_apply] at hn
  split at hn
  · rename_i heq
    cases hn
    exact .inr ⟨heq, rfl⟩
  · exact .inl hn

theorem holder_closeFd_of_ne {t : FdTable H} {fd n : Nat} (h : n ≠ fd) :
    (t.closeFd fd).holder n = t.holder n :=
  Function.update_of_ne h _ _

theorem holder_closeFd_self (t : FdTable H) (fd : Nat) : (t.closeFd fd).holder fd = none :=
  Function.update_self ..

/-- A number below the limit is free after its release. -/
theorem lowestFree_closeFd {t : FdTable H} {fd : Nat} (h : fd < t.limit) :
    (t.closeFd fd).lowestFree ≠ none :=
  lowestFree_ne_none_iff.mpr ⟨fd, h, t.holder_closeFd_self fd⟩

/-- A release takes no room away. -/
theorem lowestFree_closeFd_of_ne_none {t : FdTable H} (fd : Nat) (h : t.lowestFree ≠ none) :
    (t.closeFd fd).lowestFree ≠ none := by
  obtain ⟨n, hlt, hfree⟩ := lowestFree_ne_none_iff.mp h
  refine lowestFree_ne_none_iff.mpr ⟨n, hlt, ?_⟩
  by_cases heq : n = fd
  · rw [heq]
    exact t.holder_closeFd_self fd
  · rw [holder_closeFd_of_ne heq, hfree]

theorem of_holder_closeFd {t : FdTable H} {h' : H} {fd n : Nat}
    (hn : (t.closeFd fd).holder n = some h') : t.holder n = some h' ∧ n ≠ fd := by
  simp only [closeFd, Function.update_apply] at hn
  split at hn
  · cases hn
  · exact ⟨hn, ‹_›⟩

end FdTable

end Descriptors
