import Tudou.Foundation.Framing

/-!
# Resumable parsers

A parser that keeps what it has seen of a message in its state: it is fed chunks, asks for more,
stops behind the end of a message, or fails.  Unlike a scanner it never looks at an element twice.

* `Resumable` — one feeding step, with the laws that make cutting the input invisible.
* `Resumable.splitter` — the scanner such a parser stands for: feed everything from the start.
* `Resumable.Reads` — the state after an unfinished message, said by the elements of that message.
* `Reads.more`, `Reads.complete`, `Reads.failed` — **one feeding step continues the scan** of what
  was read before.
-/

namespace Framing

/-- What one feeding step ends with. -/
inductive Verdict where
  /-- All elements are taken and the message goes on. -/
  | more
  /-- A message ends behind the first `consumed` elements of this step. -/
  | complete (consumed : Nat)
  | failed
  deriving DecidableEq, Repr

/-- The verdict counted from `k` elements earlier. -/
def Verdict.later (k : Nat) : Verdict → Verdict
  | .more => .more
  | .complete consumed => .complete (k + consumed)
  | .failed => .failed

/-- What the verdict says about the elements `xs` of the step, whose message would be `b`. -/
def Verdict.scan {α β : Type*} (xs : List α) (b : β) : Verdict → Scan α β
  | .more => .more
  | .complete consumed => .message b (xs.drop consumed)
  | .failed => .corrupt

/-- A parser with a state; `Mid` are the states between two steps on one message. -/
structure Resumable (α σ : Type*) where
  init : σ
  feed : σ → List α → σ × Verdict
  Mid : σ → Prop
  mid_init : Mid init
  mid_feed : ∀ {s t xs}, Mid s → xs ≠ [] → feed s xs = (t, .more) → Mid t
  bounds : ∀ {s t xs n}, Mid s → feed s xs = (t, .complete n) → 0 < n ∧ n ≤ xs.length
  /-- What a failure leaves behind may depend on the cuts. -/
  more_append : ∀ {s t xs ys}, Mid s → xs ≠ [] → ys ≠ [] → feed s xs = (t, .more) →
    (feed s (xs ++ ys)).2 = (feed t ys).2.later xs.length ∧
      ((feed t ys).2 ≠ .failed → (feed s (xs ++ ys)).1 = (feed t ys).1)
  complete_append : ∀ {s t xs n} (ys), Mid s → feed s xs = (t, .complete n) →
    feed s (xs ++ ys) = (t, .complete n)
  failed_append : ∀ {s xs} (ys), Mid s → xs ≠ [] → (feed s xs).2 = .failed →
    (feed s (xs ++ ys)).2 = .failed

namespace Resumable

variable {α β σ : Type*} (R : Resumable α σ) (extract : σ → β)

/-- One look at the elements: feed them all to a fresh parser. -/
def scan (xs : List α) : Scan α β :=
  if xs = [] then .more else (R.feed R.init xs).2.scan xs (extract (R.feed R.init xs).1)

variable {R extract}

theorem scan_eq {xs : List α} {s : σ} {v : Verdict} (hxs : xs ≠ [])
    (hf : R.feed R.init xs = (s, v)) : R.scan extract xs = v.scan xs (extract s) := by
  simp only [scan, if_neg hxs, hf]

/-- Only a completed message is taken off. -/
theorem feed_of_scan_message {xs rest : List α} {b : β} (h : R.scan extract xs = .message b rest) :
    ∃ s n, R.feed R.init xs = (s, .complete n) ∧ extract s = b ∧ xs.drop n = rest := by
  unfold scan at h
  split at h
  · cases h
  · cases hf : R.feed R.init xs with
    | mk s v =>
      rw [hf] at h
      cases v with
      | more => cases h
      | failed => cases h
      | complete n =>
        cases h
        exact ⟨s, n, rfl, rfl, rfl⟩

theorem feed_of_scan_corrupt {xs : List α} (h : R.scan extract xs = .corrupt) :
    xs ≠ [] ∧ (R.feed R.init xs).2 = .failed := by
  unfold scan at h
  split at h
  · cases h
  · rename_i hne
    refine ⟨hne, ?_⟩
    cases hv : (R.feed R.init xs).2 with
    | failed => rfl
    | more =>
      rw [hv] at h
      cases h
    | complete n =>
      rw [hv] at h
      cases h

theorem ne_nil_of_complete {s t : σ} {xs : List α} {n : Nat} (hs : R.Mid s)
    (h : R.feed s xs = (t, .complete n)) : xs ≠ [] := by
  rintro rfl
  obtain ⟨hpos, hle⟩ := R.bounds hs h
  rw [List.length_nil] at hle
  omega

variable (R extract) in
/-- **The scanner of a resumable parser** does not change its mind. -/
def splitter : Splitter α β where
  scan := R.scan extract
  length_lt := by
    intro xs b rest h
    obtain ⟨s, n, hf, -, rfl⟩ := feed_of_scan_message h
    obtain ⟨hpos, hle⟩ := R.bounds R.mid_init hf
    rw [List.length_drop]
    omega
  message_append := by
    intro xs b rest ys h
    obtain ⟨s, n, hf, rfl, rfl⟩ := feed_of_scan_message h
    have hne : xs ≠ [] := ne_nil_of_complete R.mid_init hf
    rw [scan_eq (List.append_ne_nil_of_left_ne_nil hne ys) (R.complete_append ys R.mid_init hf),
      Verdict.scan, List.drop_append_of_le_length (R.bounds R.mid_init hf).2]
  corrupt_append := by
    intro xs ys h
    obtain ⟨hne, hf⟩ := feed_of_scan_corrupt h
    have hfailed := R.failed_append ys R.mid_init hne hf
    show (if _ then _ else _) = _
    rw [if_neg (List.append_ne_nil_of_left_ne_nil hne ys), hfailed]
    rfl

/-! ## Reading on -/

variable (R) in
/-- The state `s` has read the elements `left` of a message that goes on. -/
def Reads (s : σ) (left : List α) : Prop :=
  left = [] ∧ s = R.init ∨ left ≠ [] ∧ R.feed R.init left = (s, .more)

theorem Reads.init : R.Reads R.init [] := .inl ⟨rfl, rfl⟩

theorem Reads.mid {s : σ} {left : List α} (h : R.Reads s left) : R.Mid s := by
  rcases h with ⟨-, rfl⟩ | ⟨hne, hf⟩
  · exact R.mid_init
  · exact R.mid_feed R.mid_init hne hf

/-- A step from what was read is a step over all of it. -/
theorem Reads.feed_append {s : σ} {left xs : List α} (h : R.Reads s left) (hxs : xs ≠ []) :
    (R.feed R.init (left ++ xs)).2 = (R.feed s xs).2.later left.length ∧
      ((R.feed s xs).2 ≠ .failed → (R.feed R.init (left ++ xs)).1 = (R.feed s xs).1) := by
  rcases h with ⟨rfl, rfl⟩ | ⟨hne, hf⟩
  · rw [List.nil_append, List.length_nil]
    refine ⟨?_, fun _ => rfl⟩
    cases (R.feed R.init xs).2 with
    | more => rfl
    | complete n => simp only [Verdict.later, Nat.zero_add]
    | failed => rfl
  · exact R.more_append R.mid_init hne hxs hf

/-- A step that does not fail is the same step over all of it. -/
theorem Reads.feed_append_eq {s t : σ} {left xs : List α} {v : Verdict} (h : R.Reads s left)
    (hxs : xs ≠ []) (hf : R.feed s xs = (t, v)) (hv : v ≠ .failed) :
    R.feed R.init (left ++ xs) = (t, v.later left.length) := by
  obtain ⟨hverdict, hstate⟩ := h.feed_append hxs
  rw [hf] at hverdict hstate
  exact Prod.ext (hstate hv) hverdict

theorem Reads.split {s : σ} {left : List α} (h : R.Reads s left) :
    (R.splitter extract).split left = ([], some left) := by
  refine Splitter.split_of_more ?_
  show R.scan extract left = .more
  rcases h with ⟨rfl, rfl⟩ | ⟨hne, hf⟩
  · exact if_pos rfl
  · exact scan_eq hne hf

/-- **The message goes on.** -/
theorem Reads.more {s t : σ} {left xs : List α} (h : R.Reads s left) (hxs : xs ≠ [])
    (hf : R.feed s xs = (t, .more)) : R.Reads t (left ++ xs) := by
  refine .inr ⟨List.append_ne_nil_of_right_ne_nil left hxs, ?_⟩
  rw [h.feed_append_eq hxs hf (by decide)]
  rfl

/-- **A message ends** and the next one starts behind it. -/
theorem Reads.complete {s t : σ} {left xs : List α} {n : Nat} (h : R.Reads s left)
    (hf : R.feed s xs = (t, .complete n)) :
    (R.splitter extract).split (left ++ xs) =
      (extract t :: ((R.splitter extract).split (xs.drop n)).1,
        ((R.splitter extract).split (xs.drop n)).2) := by
  have hxs : xs ≠ [] := ne_nil_of_complete h.mid hf
  refine Splitter.split_of_message ?_
  have hall := h.feed_append_eq hxs hf (by exact fun heq => by cases heq)
  show R.scan extract (left ++ xs) = _
  rw [scan_eq (List.append_ne_nil_of_right_ne_nil left hxs) hall, Verdict.later, Verdict.scan,
    List.drop_length_add_append]

/-- **The stream is corrupt** from here on. -/
theorem Reads.failed {s t : σ} {left xs : List α} (h : R.Reads s left) (hxs : xs ≠ [])
    (hf : R.feed s xs = (t, .failed)) : (R.splitter extract).split (left ++ xs) = ([], none) := by
  refine Splitter.split_of_corrupt ?_
  have hall := (h.feed_append hxs).1
  rw [hf] at hall
  have hfeed : R.feed R.init (left ++ xs) = ((R.feed R.init (left ++ xs)).1, .failed) :=
    Prod.ext rfl hall
  exact scan_eq (List.append_ne_nil_of_right_ne_nil left hxs) hfeed

end Resumable

end Framing
