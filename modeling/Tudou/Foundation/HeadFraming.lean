import Tudou.Foundation.Framing

/-!
# Messages of lines and a body

A message is some lines, an empty line, and as many bytes as the lines say; every line ends with CR LF.

* `linesOf` — a text cut at its ends of line; `innerLines` — those of a head behind its first line.
* `takeLine`, `takeHead` — the front of the stream up to an end of line, and up to an empty line.
* `messages` — **the stream as such messages**; `bodyLength` says what the lines of a head announce.
* `encodes` — a message whose lines hold no CR and announce the length of its body is read back.
-/

namespace HeadFraming

open Framing

/-- A text cut at every CR LF. -/
def linesOf : List UInt8 → List (List UInt8)
  | 13 :: 10 :: rest => [] :: linesOf rest
  | b :: bytes =>
    match linesOf bytes with
    | line :: lines => (b :: line) :: lines
    | [] => [[b]]
  | [] => [[]]

theorem linesOf_ne_nil (bytes : List UInt8) : linesOf bytes ≠ [] := by
  fun_cases linesOf bytes with
  | _ => simp

/-- **A CR LF ends a line**, whatever is around it. -/
theorem linesOf_append_crlf (bytes rest : List UInt8) :
    linesOf (bytes ++ 13 :: 10 :: rest) = linesOf bytes ++ linesOf rest := by
  induction bytes using linesOf.induct with
  | case1 bytes ih =>
    rw [List.cons_append, List.cons_append, linesOf, ih, linesOf, List.cons_append]
  | case2 b bytes hnot line lines hlines ih =>
    have hnot' : ∀ rest', b = 13 → bytes ++ 13 :: 10 :: rest = 10 :: rest' → False := by
      intro rest' hb heq
      cases bytes with
      | nil => cases heq
      | cons b' bytes =>
        injection heq with hb' _
        exact hnot bytes hb (by rw [hb'])
    rw [hlines] at ih
    rw [List.cons_append, linesOf, ih, linesOf, hlines]
    · rfl
    · exact hnot
    · exact hnot'
  | case3 b bytes _ hnil _ => exact absurd hnil (linesOf_ne_nil bytes)
  | case4 => rfl

/-- A front without CR is in the first line. -/
theorem linesOf_append {front bytes line : List UInt8} {lines : List (List UInt8)} (hfront : 13 ∉ front)
    (h : linesOf bytes = line :: lines) : linesOf (front ++ bytes) = (front ++ line) :: lines := by
  induction front with
  | nil => exact h
  | cons b front ih =>
    rw [List.mem_cons, not_or] at hfront
    rw [List.cons_append, linesOf, ih hfront.2]
    · rfl
    · intro _ hb
      exact absurd hb.symm hfront.1

theorem linesOf_line {line : List UInt8} (hline : 13 ∉ line) : linesOf line = [line] := by
  have hall := linesOf_append hline (show linesOf [] = [] :: [] from rfl)
  simpa using hall

/-- The bytes in front of the first CR LF, and those behind it. -/
def takeLine : List UInt8 → Option (List UInt8 × List UInt8)
  | 13 :: 10 :: rest => some ([], rest)
  | b :: bytes => (takeLine bytes).map fun line => (b :: line.1, line.2)
  | [] => none

theorem takeLine_append {bytes line rest : List UInt8} (more : List UInt8)
    (h : takeLine bytes = some (line, rest)) : takeLine (bytes ++ more) = some (line, rest ++ more) := by
  induction bytes using takeLine.induct generalizing line with
  | case1 rest' =>
    cases h
    rfl
  | case2 b bytes hnot ih =>
    rw [takeLine] at h
    · obtain ⟨⟨line', rest'⟩, hline, heq⟩ := Option.map_eq_some_iff.mp h
      cases heq
      rw [List.cons_append, takeLine]
      · rw [ih hline]
        rfl
      · intro rest'' hb heq
        cases bytes with
        | nil => cases hline
        | cons b' bytes =>
          injection heq with hb' _
          exact hnot bytes hb (by rw [hb'])
    · exact hnot
  | case3 => cases h

theorem length_takeLine {bytes line rest : List UInt8} (h : takeLine bytes = some (line, rest)) :
    rest.length < bytes.length := by
  induction bytes using takeLine.induct generalizing line with
  | case1 rest' =>
    cases h
    simp only [List.length_cons]
    omega
  | case2 b bytes hnot ih =>
    rw [takeLine] at h
    · obtain ⟨⟨line', rest'⟩, hline, heq⟩ := Option.map_eq_some_iff.mp h
      cases heq
      have hlt := ih hline
      rw [List.length_cons]
      omega
    · exact hnot
  | case3 => cases h

/-- A line without CR is taken off. -/
theorem takeLine_line {line : List UInt8} (hline : 13 ∉ line) (rest : List UInt8) :
    takeLine (line ++ 13 :: 10 :: rest) = some (line, rest) := by
  induction line with
  | nil => rfl
  | cons b line ih =>
    rw [List.mem_cons, not_or] at hline
    rw [List.cons_append, takeLine]
    · rw [ih hline.2]
      rfl
    · intro _ hb
      exact absurd hb.symm hline.1

/-- The lines in front of the first empty one, and what follows that. -/
def takeHead : Nat → List UInt8 → Option (List (List UInt8) × List UInt8)
  | 0, _ => none
  | fuel + 1, bytes =>
    match takeLine bytes with
    | none => none
    | some ([], rest) => some ([], rest)
    | some (line, rest) => (takeHead fuel rest).map fun head => (line :: head.1, head.2)

theorem takeHead_append {fuel fuel' : Nat} {bytes rest : List UInt8} {lines : List (List UInt8)}
    (more : List UInt8) (hfuel : fuel ≤ fuel') (h : takeHead fuel bytes = some (lines, rest)) :
    takeHead fuel' (bytes ++ more) = some (lines, rest ++ more) := by
  induction fuel generalizing fuel' bytes lines with
  | zero => cases h
  | succ fuel ih =>
    obtain ⟨fuel', rfl⟩ := Nat.exists_eq_add_one_of_ne_zero (n := fuel') (by omega)
    unfold takeHead at h ⊢
    cases hline : takeLine bytes with
    | none =>
      rw [hline] at h
      cases h
    | some line =>
      obtain ⟨line, rest'⟩ := line
      rw [hline] at h
      rw [takeLine_append more hline]
      cases line with
      | nil =>
        cases h
        rfl
      | cons b line =>
        obtain ⟨⟨lines', rest''⟩, hhead, heq⟩ := Option.map_eq_some_iff.mp h
        cases heq
        simp only [ih (Nat.le_of_succ_le_succ hfuel) hhead, Option.map_some]

theorem length_takeHead {fuel : Nat} {bytes rest : List UInt8} {lines : List (List UInt8)}
    (h : takeHead fuel bytes = some (lines, rest)) : rest.length < bytes.length := by
  induction fuel generalizing bytes lines with
  | zero => cases h
  | succ fuel ih =>
    unfold takeHead at h
    cases hline : takeLine bytes with
    | none =>
      rw [hline] at h
      cases h
    | some line =>
      obtain ⟨line, rest'⟩ := line
      have hlt := length_takeLine hline
      rw [hline] at h
      cases line with
      | nil =>
        cases h
        exact hlt
      | cons b line =>
        obtain ⟨⟨lines', rest''⟩, hhead, heq⟩ := Option.map_eq_some_iff.mp h
        cases heq
        have hlt' := ih hhead
        omega

/-- The lines of a head and the empty one. -/
def headBytes (lines : List (List UInt8)) : List UInt8 :=
  (lines.map (· ++ [13, 10])).flatten ++ [13, 10]

/-- The lines of a head, whose lines may hold ends of line themselves. -/
theorem linesOf_headBytes (lines : List (List UInt8)) :
    linesOf (headBytes lines) = lines.flatMap linesOf ++ [[], []] := by
  induction lines with
  | nil => rfl
  | cons line lines ih =>
    have hbytes : headBytes (line :: lines) = line ++ 13 :: 10 :: headBytes lines := by
      simp [headBytes]
    rw [hbytes, linesOf_append_crlf, ih, List.flatMap_cons, List.append_assoc]

/-- The lines of a head between the first one and the empty one at its end. -/
def innerLines (bytes : List UInt8) : List (List UInt8) := (linesOf bytes).tail.dropLast.dropLast

theorem innerLines_headBytes {line first : List UInt8} {more : List (List UInt8)}
    (hline : linesOf line = first :: more) (lines : List (List UInt8)) :
    innerLines (headBytes (line :: lines)) = more ++ lines.flatMap linesOf := by
  have hend : (more ++ lines.flatMap linesOf) ++ [[], []] =
      (more ++ lines.flatMap linesOf) ++ [[]] ++ ([[]] : List (List UInt8)) := by
    rw [List.append_assoc _ [[]] [[]]]
    rfl
  unfold innerLines
  rw [linesOf_headBytes, List.flatMap_cons, hline, List.cons_append, List.cons_append, List.tail_cons, hend,
    List.dropLast_concat, List.dropLast_concat]

/-- Lines without CR that are not empty are taken off. -/
theorem takeHead_headBytes {lines : List (List UInt8)} (hlines : ∀ line ∈ lines, line ≠ [] ∧ 13 ∉ line)
    {fuel : Nat} (hfuel : lines.length < fuel) (rest : List UInt8) :
    takeHead fuel (headBytes lines ++ rest) = some (lines, rest) := by
  induction lines generalizing fuel with
  | nil =>
    obtain ⟨fuel, rfl⟩ := Nat.exists_eq_add_one_of_ne_zero (n := fuel) (by omega)
    rfl
  | cons line lines ih =>
    obtain ⟨⟨hne, hcr⟩, hrest⟩ := List.forall_mem_cons.mp hlines
    rw [List.length_cons] at hfuel
    obtain ⟨fuel, rfl⟩ := Nat.exists_eq_add_one_of_ne_zero (n := fuel) (by omega)
    have hbytes : headBytes (line :: lines) ++ rest =
        line ++ 13 :: 10 :: (headBytes lines ++ rest) := by
      simp [headBytes]
    obtain ⟨b, line', rfl⟩ := List.exists_cons_of_ne_nil hne
    rw [hbytes, takeHead, takeLine_line hcr]
    simp only [ih hrest (Nat.lt_of_succ_lt_succ hfuel), Option.map_some]

section

variable (bodyLength : List (List UInt8) → Option Nat)

/-- One look at the stream. -/
def scanMessage (bytes : List UInt8) : Scan UInt8 (List (List UInt8) × List UInt8) :=
  match takeHead (bytes.length + 1) bytes with
  | none => .more
  | some (lines, rest) =>
    match bodyLength lines with
    | some n => if n ≤ rest.length then .message (lines, rest.take n) (rest.drop n) else .more
    | none => .corrupt

/-- **The stream as messages of lines and a body.** -/
def messages : Splitter UInt8 (List (List UInt8) × List UInt8) where
  scan := scanMessage bodyLength
  length_lt := by
    intro bytes m rest h
    unfold scanMessage at h
    split at h
    · cases h
    · rename_i lines rest' hhead
      have hlt := length_takeHead hhead
      split at h
      · split at h
        · cases h
          rw [List.length_drop]
          omega
        · cases h
      · cases h
  message_append := by
    intro bytes m rest more h
    unfold scanMessage at h ⊢
    split at h
    · cases h
    · rename_i lines rest' hhead
      rw [takeHead_append more (by rw [List.length_append]; omega) hhead]
      split at h
      · rename_i n hn
        split at h
        · rename_i hle
          cases h
          simp only [hn]
          rw [if_pos (by rw [List.length_append]; omega), List.take_append_of_le_length hle,
            List.drop_append_of_le_length hle]
        · cases h
      · cases h
  corrupt_append := by
    intro bytes more h
    unfold scanMessage at h ⊢
    split at h
    · cases h
    · rename_i lines rest' hhead
      rw [takeHead_append more (by rw [List.length_append]; omega) hhead]
      split at h
      · split at h
        · cases h
        · cases h
      · rename_i hnone
        simp only [hnone]

/-- A message on the stream. -/
def encode (m : List (List UInt8) × List UInt8) : List UInt8 := headBytes m.1 ++ m.2

/-- The lines can be told apart, and announce the body. -/
structure WellFormed (m : List (List UInt8) × List UInt8) : Prop where
  lines : ∀ line ∈ m.1, line ≠ [] ∧ 13 ∉ line
  length : bodyLength m.1 = some m.2.length

/-- **Well-formed messages are read back**, whatever follows them, and no part of one is taken for
anything. -/
theorem encodes : (messages bodyLength).Encodes encode (WellFormed bodyLength) := by
  refine .of_scan fun {m} hm more => ?_
  show scanMessage bodyLength (headBytes m.1 ++ m.2 ++ more) = .message m more
  have hfuel : m.1.length < (headBytes m.1 ++ m.2 ++ more).length + 1 := by
    have hlen : ∀ lines : List (List UInt8), lines.length ≤ (lines.map (· ++ [13, 10])).flatten.length := by
      intro lines
      induction lines with
      | nil => exact Nat.le_refl _
      | cons line lines ih =>
        simp only [List.map_cons, List.flatten_cons, List.length_append, List.length_cons]
        omega
    have hle := hlen m.1
    simp only [headBytes, List.length_append]
    omega
  unfold scanMessage
  rw [List.append_assoc, takeHead_headBytes hm.lines (by rwa [List.append_assoc] at hfuel)]
  simp only [hm.length, List.length_append, Nat.le_add_right, if_true, List.take_left, List.drop_left]

end

end HeadFraming
