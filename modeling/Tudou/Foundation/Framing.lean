import Mathlib.Data.List.Basic

/-!
# Incremental framing of a byte stream

A receiver that looks for a message at the front of what it has buffered, takes it off if it is
complete, and otherwise waits for more.  Which messages come out depends on the stream, not on how
it was cut into chunks.

* `Scan` — one look at the buffered elements; `Splitter` — a scanner whose verdicts are stable
  under more input.
* `Splitter.split` — take off messages until the scanner asks for more, or gives up.
* `split_append` — **chunk invariance**: more elements continue from what was left; `split_front` —
  a prefix of a stream gives a prefix of its messages.
* `split_encoded` — what a matching encoder wrote comes out again, each message once, in order.
* `Splitter.single` — one element a message; `Splitter.validated` — the same framing where some
  messages are rejected.
-/

namespace Framing

/-- One look at the front of the buffered elements. -/
inductive Scan (α β : Type*) where
  /-- No complete message yet. -/
  | more
  | message (b : β) (rest : List α)
  /-- No message can start like this. -/
  | corrupt

/-- A scanner that takes at least one element for each message and does not change its mind when
more elements arrive. -/
structure Splitter (α β : Type*) where
  scan : List α → Scan α β
  length_lt : ∀ {xs b rest}, scan xs = .message b rest → rest.length < xs.length
  message_append : ∀ {xs b rest} (ys), scan xs = .message b rest →
    scan (xs ++ ys) = .message b (rest ++ ys)
  corrupt_append : ∀ {xs} (ys), scan xs = .corrupt → scan (xs ++ ys) = .corrupt

namespace Splitter

variable {α β : Type*} (S : Splitter α β)

/-- Take off at most `fuel` messages; what is left, `none` where the stream is corrupt. -/
def drain : Nat → List α → List β × Option (List α)
  | 0, xs => ([], some xs)
  | fuel + 1, xs =>
    match S.scan xs with
    | .more => ([], some xs)
    | .corrupt => ([], none)
    | .message b rest => (b :: (drain fuel rest).1, (drain fuel rest).2)

/-- Take off all messages: there are no more than elements. -/
def split (xs : List α) : List β × Option (List α) := S.drain (xs.length + 1) xs

variable {S}

theorem drain_fuel : ∀ {n m : Nat} {xs : List α}, xs.length < n → xs.length < m →
    S.drain n xs = S.drain m xs
  | 0, _, _, hn, _ => by omega
  | _ + 1, 0, _, _, hm => by omega
  | n + 1, m + 1, xs, hn, hm => by
    simp only [drain]
    cases h : S.scan xs with
    | more => rfl
    | corrupt => rfl
    | message b rest =>
      have hlt := S.length_lt h
      have hrest : S.drain n rest = S.drain m rest := drain_fuel (by omega) (by omega)
      simp only [hrest]

theorem drain_eq_split {n : Nat} {xs : List α} (h : xs.length < n) : S.drain n xs = S.split xs :=
  drain_fuel h (by omega)

theorem split_of_more {xs : List α} (h : S.scan xs = .more) : S.split xs = ([], some xs) := by
  simp only [split, drain, h]

theorem split_of_corrupt {xs : List α} (h : S.scan xs = .corrupt) : S.split xs = ([], none) := by
  simp only [split, drain, h]

theorem split_of_message {xs rest : List α} {b : β} (h : S.scan xs = .message b rest) :
    S.split xs = (b :: (S.split rest).1, (S.split rest).2) := by
  have hrest : S.drain xs.length rest = S.split rest := drain_eq_split (S.length_lt h)
  simp only [split, drain, h, hrest]

/-- **Induction over a stream**: from what is left after its first message to the stream. -/
theorem stream_induction {P : List α → Prop}
    (step : ∀ xs, (∀ b rest, S.scan xs = .message b rest → P rest) → P xs) (xs : List α) : P xs := by
  have bounded : ∀ n (xs : List α), xs.length < n → P xs := by
    intro n
    induction n with
    | zero =>
      intro xs hn
      omega
    | succ n ih =>
      intro xs hn
      refine step xs fun b rest hs => ih rest ?_
      have hlt := S.length_lt hs
      omega
  exact bounded (xs.length + 1) xs (by omega)

/-- More elements continue from what is left. -/
theorem split_append {xs left : List α} (ys : List α) (h : (S.split xs).2 = some left) :
    S.split (xs ++ ys) = ((S.split xs).1 ++ (S.split (left ++ ys)).1, (S.split (left ++ ys)).2) := by
  induction xs using S.stream_induction with
  | step xs ih =>
    cases hs : S.scan xs with
    | more =>
      rw [split_of_more hs] at h ⊢
      cases h
      rfl
    | corrupt =>
      rw [split_of_corrupt hs] at h
      cases h
    | message b rest =>
      rw [split_of_message hs] at h ⊢
      rw [split_of_message (S.message_append ys hs), ih b rest hs h]
      rfl

/-- Nothing after corruption changes what came before it. -/
theorem split_append_of_corrupt {xs : List α} (ys : List α) (h : (S.split xs).2 = none) :
    S.split (xs ++ ys) = S.split xs := by
  induction xs using S.stream_induction with
  | step xs ih =>
    cases hs : S.scan xs with
    | more =>
      rw [split_of_more hs] at h
      cases h
    | corrupt => rw [split_of_corrupt hs, split_of_corrupt (S.corrupt_append ys hs)]
    | message b rest =>
      rw [split_of_message hs] at h
      rw [split_of_message hs, split_of_message (S.message_append ys hs), ih b rest hs h]

/-- **A prefix of a stream that is not corrupt** gives the first of its messages. -/
theorem split_front {xs ys tail : List α} {bs : List β} (h : S.split (xs ++ ys) = (bs, some tail)) :
    ∃ left, (S.split xs).2 = some left ∧ (S.split xs).1 <+: bs := by
  cases hleft : (S.split xs).2 with
  | none =>
    rw [split_append_of_corrupt ys hleft] at h
    rw [h] at hleft
    cases hleft
  | some left =>
    rw [split_append ys hleft] at h
    exact ⟨left, rfl, (S.split (left ++ ys)).1, (Prod.ext_iff.mp h).1⟩

/-- `encode` writes messages that the scanner takes off again, and no proper prefix of one is
taken for anything. -/
structure Encodes (S : Splitter α β) (encode : β → List α) (P : β → Prop) : Prop where
  scan_encode : ∀ {b}, P b → ∀ ys, S.scan (encode b ++ ys) = .message b ys
  scan_prefix : ∀ {b xs}, P b → xs <+: encode b → xs ≠ encode b → S.scan xs = .more

/-- A scanner that takes a message off whatever follows it takes no proper prefix of one for anything. -/
theorem Encodes.of_scan {encode : β → List α} {P : β → Prop}
    (h : ∀ {b}, P b → ∀ ys, S.scan (encode b ++ ys) = .message b ys) : S.Encodes encode P where
  scan_encode := h
  scan_prefix := by
    rintro b xs hb ⟨ys, hxs⟩ hne
    have hall := h hb []
    rw [List.append_nil, ← hxs] at hall
    cases hs : S.scan xs with
    | more => rfl
    | corrupt =>
      rw [S.corrupt_append ys hs] at hall
      cases hall
    | message b' rest =>
      rw [S.message_append ys hs] at hall
      injection hall with _ hnil
      rw [← hxs, (List.append_eq_nil_iff.mp hnil).2, List.append_nil] at hne
      exact absurd rfl hne

/-- **Round trip**: encoded messages come out, each once, in order, and an incomplete one is left. -/
theorem split_encoded {encode : β → List α} {P : β → Prop} (h : S.Encodes encode P)
    {tail : List α} (htail : S.scan tail = .more) : ∀ {bs : List β}, (∀ b ∈ bs, P b) →
    S.split ((bs.map encode).flatten ++ tail) = (bs, some tail)
  | [], _ => split_of_more htail
  | b :: bs, hP => by
    obtain ⟨hb, hbs⟩ := List.forall_mem_cons.mp hP
    rw [List.map_cons, List.flatten_cons, List.append_assoc, split_of_message (h.scan_encode hb _),
      split_encoded h htail hbs]

/-- Every element is a message, or corrupts the stream. -/
def single (f : α → Option β) : Splitter α β where
  scan
    | [] => .more
    | x :: xs =>
      match f x with
      | none => .corrupt
      | some b => .message b xs
  length_lt := by
    intro xs b rest h
    cases xs with
    | nil => cases h
    | cons x xs =>
      simp only at h
      split at h <;> cases h
      exact Nat.lt_succ_self _
  message_append := by
    intro xs b rest ys h
    cases xs with
    | nil => cases h
    | cons x xs =>
      simp only at h
      split at h <;> cases h
      rename_i hf
      simp only [List.cons_append, hf]
  corrupt_append := by
    intro xs ys h
    cases xs with
    | nil => cases h
    | cons x xs =>
      simp only at h
      split at h <;> cases h
      rename_i hf
      simp only [List.cons_append, hf]

/-! ## Validated messages -/

variable {γ : Type*}

/-- The same stream, where a message `f` rejects corrupts it. -/
def validated (S : Splitter α β) (f : β → Option γ) : Splitter α γ where
  scan xs :=
    match S.scan xs with
    | .more => .more
    | .corrupt => .corrupt
    | .message b rest =>
      match f b with
      | none => .corrupt
      | some c => .message c rest
  length_lt := by
    intro xs c rest h
    split at h
    · cases h
    · cases h
    · rename_i b rest' hs
      split at h <;> cases h
      exact S.length_lt hs
  message_append := by
    intro xs c rest ys h
    split at h
    · cases h
    · cases h
    · rename_i b rest' hs
      split at h <;> cases h
      rename_i hf
      simp only [S.message_append ys hs, hf]
  corrupt_append := by
    intro xs ys h
    split at h
    · cases h
    · rename_i hs
      simp only [S.corrupt_append ys hs]
    · rename_i b rest' hs
      split at h <;> cases h
      rename_i hf
      simp only [S.message_append ys hs, hf]

theorem validated_scan_message {f : β → Option γ} {xs rest : List α} {b : β} {c : γ}
    (hs : S.scan xs = .message b rest) (hf : f b = some c) :
    (S.validated f).scan xs = .message c rest := by
  simp only [validated, hs, hf]

theorem validated_scan_rejected {f : β → Option γ} {xs rest : List α} {b : β}
    (hs : S.scan xs = .message b rest) (hf : f b = none) : (S.validated f).scan xs = .corrupt := by
  simp only [validated, hs, hf]

theorem validated_scan_corrupt {f : β → Option γ} {xs : List α} (hs : S.scan xs = .corrupt) :
    (S.validated f).scan xs = .corrupt := by
  simp only [validated, hs]

theorem validated_scan_more {f : β → Option γ} {xs : List α} (hs : S.scan xs = .more) :
    (S.validated f).scan xs = .more := by
  simp only [validated, hs]

/-- Messages that all pass come out of the validated stream in the same order. -/
theorem split_validated {f : β → Option γ} {xs left : List α} {bs : List β} {cs : List γ}
    (h : S.split xs = (bs, some left)) (hf : bs.map f = cs.map some) :
    (S.validated f).split xs = (cs, some left) := by
  induction xs using S.stream_induction generalizing bs cs with
  | step xs ih =>
    cases hs : S.scan xs with
    | more =>
      rw [split_of_more hs] at h
      cases h
      rw [split_of_more (validated_scan_more hs), List.map_eq_nil_iff.mp hf.symm]
    | corrupt =>
      rw [split_of_corrupt hs] at h
      cases h
    | message b rest =>
      rw [split_of_message hs, Prod.mk.injEq] at h
      obtain ⟨hbs, hleft⟩ := h
      cases cs with
      | nil =>
        rw [← hbs] at hf
        cases hf
      | cons c cs =>
        rw [← hbs, List.map_cons, List.map_cons, List.cons.injEq] at hf
        rw [split_of_message (validated_scan_message hs hf.1),
          ih b rest hs (Prod.ext rfl hleft) hf.2]

end Splitter

end Framing
