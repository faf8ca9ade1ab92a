import Mathlib.Logic.Function.Basic

/-!
# Tables keyed by the address of a connection

The servers keep per-connection state in maps from `TcpConnection*` to an entry.  The model of
such a map next to the connections it is about: an address holds no connection, an open one, or
one whose `isClosed_` is set and which somebody still refers to.

* `ConnectionTable` — statuses, entries, and whether a reference to an erased entry was used.
* `lifecycle` — what `TcpServer` does to connections, with the close callback of the server where it
  runs.
* `Follows` — **entries are those of open connections, and no erased entry was used**; kept by
  `connect`, `close` and `destroy`, and by `shutdown` when there is no entry.
* `Follows.connect_entries` — then a connection starts with what `on_connect` made for it, whatever
  stood at its address before.
-/

namespace Tudou

/-- What stands at an address. -/
inductive ConnStatus where
  | free
  | open
  | closed
  deriving DecidableEq, Repr

/-- A map from addresses of connections to entries, next to the connections. -/
structure ConnectionTable (E : Type*) where
  /-- `state_ == ServerState::Running`. -/
  running : Bool
  status : Nat → ConnStatus
  entries : Nat → Option E
  /-- A reference into the map was used after its entry was erased. -/
  usedErased : Bool

/-- What `TcpServer` does to its connections; `close` is a peer close, an error or a `force_close`. -/
inductive Lifecycle where
  | connect (a : Nat)
  | close (a : Nat)
  | destroy (a : Nat)
  | shutdown
  deriving DecidableEq, Repr

namespace ConnectionTable

variable {E : Type*}

def create : ConnectionTable E where
  running := true
  status _ := .free
  entries _ := none
  usedErased := false

/-- `map[conn.get()] = entry`. -/
def store (t : ConnectionTable E) (a : Nat) (entry : E) : ConnectionTable E :=
  { t with entries := Function.update t.entries a (some entry) }

/-- `map.erase(conn.get())`. -/
def erase (t : ConnectionTable E) (a : Nat) : ConnectionTable E :=
  { t with entries := Function.update t.entries a none }

/-- Use a reference whose entry is gone. -/
def useErased (t : ConnectionTable E) : ConnectionTable E := { t with usedErased := true }

/-- Assign through a reference obtained from `map[conn.get()]` earlier. -/
def assign (t : ConnectionTable E) (a : Nat) (entry : E) : ConnectionTable E :=
  match t.entries a with
  | none => t.useErased
  | some _ => t.store a entry

/-- A new connection at a free address; `entry` is what the connection callback stores, if it does. -/
def connect (t : ConnectionTable E) (a : Nat) (entry : Option E) : Option (ConnectionTable E) :=
  if t.running ∧ t.status a = .free then
    let t := { t with status := Function.update t.status a .open }
    some (match entry with
      | none => t
      | some e => t.store a e)
  else none

/-- `close_connection`, once: the close callback erases the entry. -/
def close (t : ConnectionTable E) (a : Nat) : ConnectionTable E :=
  if t.status a = .open then
    { t with status := Function.update t.status a .closed, entries := Function.update t.entries a none }
  else t

/-- The last reference to a closed connection goes. -/
def destroy (t : ConnectionTable E) (a : Nat) : Option (ConnectionTable E) :=
  if t.status a = .closed then some { t with status := Function.update t.status a .free } else none

/-- `TcpServer::shutdown_connections`: every connection is closed without its close callback. -/
def shutdown (t : ConnectionTable E) : ConnectionTable E :=
  { t with running := false, status := fun a => if t.status a = .open then .closed else t.status a }

def lifecycle (fresh : Option E) (t : ConnectionTable E) : Lifecycle → Option (ConnectionTable E)
  | .connect a => t.connect a fresh
  | .close a => some (t.close a)
  | .destroy a => t.destroy a
  | .shutdown => if t.running then some t.shutdown else none

/-- Entries belong to open connections, and no reference outlived its entry. -/
structure Follows (t : ConnectionTable E) : Prop where
  openOnly : ∀ {a e}, t.entries a = some e → t.status a = .open
  notUsed : t.usedErased = false

theorem Follows.create : (create : ConnectionTable E).Follows := ⟨fun h => (by cases h), rfl⟩

theorem Follows.store {t : ConnectionTable E} (h : t.Follows) {a : Nat} (ha : t.status a = .open)
    (entry : E) : (t.store a entry).Follows := by
  refine ⟨fun {a' e} he => ?_, h.notUsed⟩
  by_cases heq : a' = a
  · rw [heq]
    exact ha
  · exact h.openOnly ((Function.update_of_ne heq _ _).symm.trans he)

/-- Through a reference whose entry is there. -/
theorem Follows.assign {t : ConnectionTable E} (h : t.Follows) {a : Nat} (ha : t.entries a ≠ none)
    (entry : E) : (t.assign a entry).Follows := by
  unfold ConnectionTable.assign
  split
  · rename_i hnone
    exact absurd hnone ha
  · rename_i e he
    exact h.store (h.openOnly he) entry

theorem Follows.connect {t t' : ConnectionTable E} (h : t.Follows) {a : Nat} {entry : Option E}
    (hc : t.connect a entry = some t') : t'.Follows := by
  unfold ConnectionTable.connect at hc
  split at hc
  · cases hc
    have hopen : Follows { t with status := Function.update t.status a .open } := by
      refine ⟨fun {a' e} he => ?_, h.notUsed⟩
      by_cases heq : a' = a
      · rw [heq]
        exact Function.update_self ..
      · exact (Function.update_of_ne heq _ _).trans (h.openOnly he)
    cases entry with
    | none => exact hopen
    | some e => exact hopen.store (Function.update_self ..) e
  · cases hc

theorem Follows.close {t : ConnectionTable E} (h : t.Follows) (a : Nat) : (t.close a).Follows := by
  unfold ConnectionTable.close
  split
  · refine ⟨fun {a' e} he => ?_, h.notUsed⟩
    by_cases heq : a' = a
    · rw [heq] at he
      simp at he
    · simp only [Function.update_of_ne heq] at he ⊢
      exact h.openOnly he
  · exact h

theorem Follows.destroy {t t' : ConnectionTable E} (h : t.Follows) {a : Nat}
    (hd : t.destroy a = some t') : t'.Follows := by
  unfold ConnectionTable.destroy at hd
  split at hd
  · rename_i hclosed
    cases hd
    refine ⟨fun {a' e} he => ?_, h.notUsed⟩
    have hopen := h.openOnly he
    have heq : a' ≠ a := by
      rintro rfl
      rw [hclosed] at hopen
      cases hopen
    exact (Function.update_of_ne heq _ _).trans hopen
  · cases hd

/-- A shutdown leaves entries behind, so there must be none. -/
theorem Follows.shutdown {t : ConnectionTable E} (h : t.Follows) (hempty : ∀ a, t.entries a = none) :
    t.shutdown.Follows := by
  refine ⟨fun {a e} he => ?_, h.notUsed⟩
  have hsome : t.entries a = some e := he
  rw [hempty a] at hsome
  cases hsome

/-- **Connections come and go with their entries**, as long as a shutdown finds none. -/
theorem Follows.lifecycle {t t' : ConnectionTable E} (h : t.Follows) {fresh : Option E}
    {l : Lifecycle} (hl : t.lifecycle fresh l = some t')
    (hempty : l = .shutdown → ∀ a, t.entries a = none) : t'.Follows := by
  cases l with
  | connect a => exact h.connect hl
  | close a =>
    cases hl
    exact h.close a
  | destroy a => exact h.destroy hl
  | shutdown =>
    simp only [ConnectionTable.lifecycle] at hl
    split at hl
    · cases hl
      exact h.shutdown (hempty rfl)
    · cases hl

/-- **A connection starts with what its connection callback made for it.** -/
theorem Follows.connect_entries {t t' : ConnectionTable E} (h : t.Follows) {a : Nat}
    {entry : Option E} (hc : t.connect a entry = some t') : t'.entries a = entry := by
  unfold ConnectionTable.connect at hc
  split at hc
  · rename_i hfree
    replace hfree := hfree.2
    cases hc
    cases entry with
    | none =>
      refine Option.eq_none_iff_forall_ne_some.mpr fun e he => ?_
      have hopen := h.openOnly he
      rw [hfree] at hopen
      cases hopen
    | some e => exact Function.update_self ..
  · cases hc

/-! ## What concerns one address -/

@[simp] theorem status_store (t : ConnectionTable E) (a : Nat) (e : E) :
    (t.store a e).status = t.status := rfl

@[simp] theorem status_erase (t : ConnectionTable E) (a : Nat) : (t.erase a).status = t.status := rfl

@[simp] theorem status_assign (t : ConnectionTable E) (a : Nat) (e : E) :
    (t.assign a e).status = t.status := by
  unfold assign
  split <;> rfl

theorem status_close_self_ne (t : ConnectionTable E) (a : Nat) : (t.close a).status a ≠ .open := by
  unfold close
  split
  · simp
  · assumption

@[simp] theorem close_close (t : ConnectionTable E) (a : Nat) : (t.close a).close a = t.close a :=
  if_neg (status_close_self_ne t a)

theorem close_of_ne {t : ConnectionTable E} {a b : Nat} (h : b ≠ a) :
    (t.close a).status b = t.status b ∧ (t.close a).entries b = t.entries b := by
  unfold close
  split
  · exact ⟨Function.update_of_ne h _ _, Function.update_of_ne h _ _⟩
  · exact ⟨rfl, rfl⟩

theorem open_of_close {t : ConnectionTable E} {a b : Nat} (h : (t.close b).status a = .open) :
    t.status a = .open := by
  by_cases heq : a = b
  · rw [heq] at h
    exact absurd h (status_close_self_ne t b)
  · rwa [(close_of_ne heq).1] at h

@[simp] theorem usedErased_close (t : ConnectionTable E) (a : Nat) :
    (t.close a).usedErased = t.usedErased := by
  unfold close
  split <;> rfl

/-- Whatever was stored for a connection, closing it and erasing its entry leaves nothing behind. -/
theorem Follows.forget {t : ConnectionTable E} (h : t.Follows) (a : Nat) (entry : E) :
    (((t.store a entry).close a).erase a).Follows := by
  refine ⟨fun {b e} he => ?_, (usedErased_close _ a).trans h.notUsed⟩
  by_cases hba : b = a
  · have hnone : (((t.store a entry).close a).erase a).entries a = none := Function.update_self ..
    rw [hba, hnone] at he
    cases he
  · have hentries : (((t.store a entry).close a).erase a).entries b = t.entries b := by
      have herase : (((t.store a entry).close a).erase a).entries b = ((t.store a entry).close a).entries b :=
        Function.update_of_ne hba _ _
      have hstore : (t.store a entry).entries b = t.entries b := Function.update_of_ne hba _ _
      rw [herase, (close_of_ne hba).2, hstore]
    rw [status_erase, (close_of_ne hba).1, status_store]
    exact h.openOnly (hentries.symm.trans he)

theorem connect_of_open {t t' : ConnectionTable E} {a b : Nat} {entry : Option E}
    (h : t.connect b entry = some t') (hopen : t.status a = .open) :
    t'.status a = .open ∧ t'.entries a = t.entries a := by
  unfold connect at h
  split at h
  · rename_i hfree
    have hne : a ≠ b := by
      rintro rfl
      rw [hfree.2] at hopen
      cases hopen
    cases h
    cases entry with
    | none => exact ⟨(Function.update_of_ne hne _ _).trans hopen, rfl⟩
    | some e => exact ⟨(Function.update_of_ne hne _ _).trans hopen, Function.update_of_ne hne _ _⟩
  · cases h

theorem entries_destroy {t t' : ConnectionTable E} {a : Nat} (h : t.destroy a = some t') :
    t'.entries = t.entries := by
  unfold destroy at h
  split at h
  · cases h
    rfl
  · cases h

/-- The entry of a connection that is open before and after is left alone. -/
theorem entries_lifecycle {t t' : ConnectionTable E} {fresh : Option E} {l : Lifecycle}
    (hl : t.lifecycle fresh l = some t') {a : Nat} (hopen : t.status a = .open)
    (hopen' : t'.status a = .open) : t'.entries a = t.entries a := by
  cases l with
  | connect b => exact (connect_of_open hl hopen).2
  | close b =>
    cases hl
    have hab : a ≠ b := by
      rintro rfl
      exact status_close_self_ne t a hopen'
    exact (close_of_ne hab).2
  | destroy b => exact congrFun (entries_destroy hl) a
  | shutdown =>
    simp only [lifecycle] at hl
    split at hl
    · cases hl
      rfl
    · cases hl

theorem entries_store_self (t : ConnectionTable E) (a : Nat) (e : E) :
    (t.store a e).entries a = some e := Function.update_self ..

theorem store_entry {t : ConnectionTable E} {a : Nat} {e : E} (h : t.entries a = some e) :
    t.store a e = t := by
  rw [store, ← h, Function.update_eq_self]

@[simp] theorem store_store (t : ConnectionTable E) (a : Nat) (e e' : E) :
    (t.store a e).store a e' = t.store a e' := by
  simp only [store, Function.update_idem]

theorem entries_store_of_ne {t : ConnectionTable E} {a b : Nat} (h : b ≠ a) (e : E) :
    (t.store a e).entries b = t.entries b := Function.update_of_ne h _ _

theorem entries_assign_of_ne {t : ConnectionTable E} {a b : Nat} (h : b ≠ a) (e : E) :
    (t.assign a e).entries b = t.entries b := by
  unfold assign
  split
  · rfl
  · exact entries_store_of_ne h e

theorem entries_assign_self {t : ConnectionTable E} {a : Nat} (h : t.entries a ≠ none) (e : E) :
    (t.assign a e).entries a = some e := by
  unfold assign
  split
  · rename_i hnone
    exact absurd hnone h
  · exact entries_store_self t a e

end ConnectionTable

end Tudou
