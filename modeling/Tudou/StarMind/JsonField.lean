import Tudou.Foundation.Search
import Tudou.Http.HttpResponse

/-!
# The JSON of `StarMindServer`

`json_escape_minimal` and `extract_json_string_field_from` of `src/examples/StarMind/StarMindServer.cpp`, which
look for a field in the text and do not parse it.

* `jsonEscapeMinimal`, `readString` — what goes between two quotes, and back; `readString_escape`.
* `member`, `object` — the texts that clients send.
* `PlainKey` — a key that an escaped text does not contain; `Confusing` — a value that ends like one.
* `extract_object` — **a field is read back whatever its value is**, if no value but the one in front of it
  is confused with its key.
-/

namespace Tudou

namespace StarMind

open Search

/-! ## Strings -/

/-- One character of `json_escape_minimal`. -/
def escapeByte (c : Byte) : Bytes :=
  if c = 92 then [92, 92]
  else if c = 34 then [92, 34]
  else if c = 10 then [92, 110]
  else if c = 13 then [92, 114]
  else if c = 9 then [92, 116]
  else [c]

/-- `json_escape_minimal(s)`. -/
def jsonEscapeMinimal (s : Bytes) : Bytes := s.flatMap escapeByte

/-- The character after a backslash. -/
def unescape (esc : Byte) : Byte :=
  if esc = 110 then 10 else if esc = 114 then 13 else if esc = 116 then 9 else esc

/-- The loop of `extract_json_string_field_from`, behind the opening quote: the value, and what follows the
closing one. -/
def readString : Bytes → Option (Bytes × Bytes)
  | [] => none
  | c :: body =>
    if c = 34 then some ([], body)
    else if c = 92 then
      match body with
      | [] => none
      | esc :: body => (readString body).map fun r => (unescape esc :: r.1, r.2)
    else (readString body).map fun r => (c :: r.1, r.2)

/-- An escaped character is one that needs no escape, or a backslash and another. -/
theorem escapeByte_cases (c : Byte) :
    escapeByte c = [c] ∧ c ≠ 34 ∧ c ≠ 92 ∨ ∃ esc, escapeByte c = [92, esc] ∧ unescape esc = c ∧
      (esc = 34 → c = 34) := by
  unfold escapeByte
  by_cases h92 : c = 92
  · subst h92
    exact .inr ⟨92, rfl, rfl, by decide⟩
  · rw [if_neg h92]
    by_cases h34 : c = 34
    · subst h34
      exact .inr ⟨34, rfl, rfl, fun _ => rfl⟩
    · rw [if_neg h34]
      by_cases h10 : c = 10
      · subst h10
        exact .inr ⟨110, rfl, rfl, by decide⟩
      · rw [if_neg h10]
        by_cases h13 : c = 13
        · subst h13
          exact .inr ⟨114, rfl, rfl, by decide⟩
        · rw [if_neg h13]
          by_cases h9 : c = 9
          · subst h9
            exact .inr ⟨116, rfl, rfl, by decide⟩
          · rw [if_neg h9]
            exact .inl ⟨rfl, h34, h92⟩

theorem jsonEscapeMinimal_cons (c : Byte) (s : Bytes) :
    jsonEscapeMinimal (c :: s) = escapeByte c ++ jsonEscapeMinimal s := List.flatMap_cons

/-- **An escaped string is read back**, up to its closing quote. -/
theorem readString_escape (s rest : Bytes) :
    readString (jsonEscapeMinimal s ++ 34 :: rest) = some (s, rest) := by
  induction s with
  | nil =>
    show readString (34 :: rest) = _
    unfold readString
    rw [if_pos rfl]
  | cons c s ih =>
    rw [jsonEscapeMinimal_cons, List.append_assoc]
    rcases escapeByte_cases c with ⟨heq, h34, h92⟩ | ⟨esc, heq, hback, _⟩
    · rw [heq, List.singleton_append]
      unfold readString
      rw [if_neg h34, if_neg h92, ih]
      rfl
    · rw [heq]
      show readString (92 :: esc :: (jsonEscapeMinimal s ++ 34 :: rest)) = _
      unfold readString
      simp [ih, hback]

/-! ## Fields -/

/-- Between a key and its value. -/
def isGap (c : Byte) : Bool := c = 58 || c = 32 || c = 9 || c = 13 || c = 10

/-- What stands behind a key: a colon somewhere, and a string at once. -/
def valueBehind (body : Bytes) : Option (Bytes × Bytes) :=
  match after [58] body with
  | none => none
  | some body =>
    match body.dropWhile isGap with
    | [] => none
    | c :: body => if c = 34 then readString body else none

/-- A key with its quotes. -/
def quoted (key : Bytes) : Bytes := 34 :: (key ++ [34])

/-- `extract_json_string_field_from(body, fromPos, key, …)`, for the text from `fromPos` on. -/
def extractJsonStringFieldFrom (body key : Bytes) : Option (Bytes × Bytes) :=
  (after (quoted key) body).bind valueBehind

/-- `extract_json_string_field(body, key, outValue)`. -/
def extractJsonStringField (body key : Bytes) : Option Bytes :=
  (extractJsonStringFieldFrom body key).map Prod.fst

/-- A key and its string. -/
def member (field : Bytes × Bytes) : Bytes :=
  quoted field.1 ++ 58 :: 34 :: (jsonEscapeMinimal field.2 ++ [34])

/-- `{"key":"value","key":"value"}`. -/
def object (fields : List (Bytes × Bytes)) : Bytes :=
  123 :: (List.intercalate [44] (fields.map member) ++ [125])

/-- A key that is written as it is, and has none of the marks between fields. -/
def PlainKey (key : Bytes) : Prop := ∀ b ∈ key, b ≠ 34 ∧ b ≠ 92 ∧ b ≠ 58 ∧ b ≠ 44

/-- A value that ends like the key: as an escaped string, with its closing quote, it has the quoted key. -/
def Confusing (key value : Bytes) : Prop := value = key ∨ 34 :: key <:+ value

theorem PlainKey.tail {b : Byte} {key : Bytes} (h : PlainKey (b :: key)) : PlainKey key :=
  fun b' hb' => h b' (List.mem_cons_of_mem _ hb')

/-- Up to a quote, an escaped string is a key only if the string is, and needs no escape. -/
theorem PlainKey.eq_of_prefix {key : Bytes} (h : PlainKey key) {value rest : Bytes}
    (hpre : key ++ [34] <+: jsonEscapeMinimal value ++ 34 :: rest) :
    value = key ∧ jsonEscapeMinimal value = key := by
  induction key generalizing value with
  | nil =>
    cases value with
    | nil => exact ⟨rfl, rfl⟩
    | cons c value =>
      rw [jsonEscapeMinimal_cons] at hpre
      rcases escapeByte_cases c with ⟨heq, h34, _⟩ | ⟨esc, heq, _, _⟩
      · rw [heq] at hpre
        exact absurd (List.cons_prefix_cons.mp hpre).1.symm h34
      · rw [heq] at hpre
        exact absurd (List.cons_prefix_cons.mp hpre).1 (by decide)
  | cons b key ih =>
    have hb := h b List.mem_cons_self
    cases value with
    | nil => exact absurd (List.cons_prefix_cons.mp hpre).1 hb.1
    | cons c value =>
      rw [jsonEscapeMinimal_cons] at hpre ⊢
      rcases escapeByte_cases c with ⟨heq, _, _⟩ | ⟨esc, heq, _, _⟩
      · rw [heq] at hpre ⊢
        obtain ⟨hhead, hrest⟩ := List.cons_prefix_cons.mp hpre
        obtain ⟨hvalue, hescape⟩ := ih h.tail hrest
        rw [hhead, hvalue]
        rw [hvalue] at hescape
        exact ⟨rfl, congrArg (c :: ·) hescape⟩
      · rw [heq] at hpre
        exact absurd (List.cons_prefix_cons.mp hpre).1 hb.2.1

/-- **An escaped string has the quoted key at its end or not at all.** -/
theorem PlainKey.after_value {key : Bytes} (h : PlainKey key) (value rest : Bytes) :
    after (quoted key) (jsonEscapeMinimal value ++ 34 :: rest) = some rest ∧ 34 :: key <:+ value ∨
      after (quoted key) (jsonEscapeMinimal value ++ 34 :: rest) = after (quoted key) (34 :: rest) := by
  induction value with
  | nil => exact .inr rfl
  | cons c value ih =>
    rw [jsonEscapeMinimal_cons]
    have hih : after (quoted key) (jsonEscapeMinimal value ++ 34 :: rest) = some rest ∧
        34 :: key <:+ c :: value ∨
          after (quoted key) (jsonEscapeMinimal value ++ 34 :: rest) = after (quoted key) (34 :: rest) :=
      ih.imp_left fun hfound => ⟨hfound.1, hfound.2.trans (List.suffix_cons _ _)⟩
    rcases escapeByte_cases c with ⟨heq, h34, _⟩ | ⟨esc, heq, _, hesc⟩
    · rw [heq]
      show after (quoted key) (c :: (jsonEscapeMinimal value ++ 34 :: rest)) = some rest ∧ _ ∨
        after (quoted key) (c :: (jsonEscapeMinimal value ++ 34 :: rest)) = _
      rwa [quoted, after_cons_of_ne h34]
    · rw [heq]
      show after (quoted key) (92 :: esc :: (jsonEscapeMinimal value ++ 34 :: rest)) = some rest ∧ _ ∨
        after (quoted key) (92 :: esc :: (jsonEscapeMinimal value ++ 34 :: rest)) = _
      have hback : after (quoted key) (92 :: esc :: (jsonEscapeMinimal value ++ 34 :: rest)) =
          after (quoted key) (esc :: (jsonEscapeMinimal value ++ 34 :: rest)) :=
        after_cons_of_ne (by decide) _ _
      rw [hback]
      by_cases hstarts : quoted key <+: esc :: (jsonEscapeMinimal value ++ 34 :: rest)
      · -- an escaped quote, and the key up to the closing one
        obtain ⟨hquote, hpre⟩ := List.cons_prefix_cons.mp hstarts
        obtain ⟨rfl, hescape⟩ := h.eq_of_prefix hpre
        obtain rfl := hquote
        rw [hescape, hesc rfl]
        refine .inl ⟨?_, List.suffix_rfl⟩
        have hself := after_self (quoted value) rest
        simpa [quoted] using hself
      · rwa [after_cons hstarts]

/-- A key is passed over as far as no character of it is a quote. -/
theorem PlainKey.after_letters {other : Bytes} (h : PlainKey other) (key rest : Bytes) :
    after (quoted key) (other ++ rest) = after (quoted key) rest := by
  induction other with
  | nil => rfl
  | cons c other ih =>
    have hc := (h c List.mem_cons_self).1
    exact (after_cons_of_ne hc _ _).trans (ih h.tail)

/-- **Another field**: its key is passed over, and its value unless that is confused with the key. -/
theorem PlainKey.after_member {key : Bytes} (h : PlainKey key) {field : Bytes × Bytes}
    (hfield : PlainKey field.1) (hne : field.1 ≠ key) (rest : Bytes) :
    after (quoted key) (member field ++ 44 :: rest) = some (44 :: rest) ∧ Confusing key field.2 ∨
      after (quoted key) (member field ++ 44 :: rest) = after (quoted key) rest := by
  obtain ⟨other, value⟩ := field
  have hnot : ∀ {c : Byte} {body : Bytes}, (∀ b ∈ key, b ≠ c) → c ≠ 34 →
      after (quoted key) (34 :: c :: body) = after (quoted key) (c :: body) := by
    intro c body hc h34
    apply after_cons
    intro hpre
    have hpre' := (List.cons_prefix_cons.mp hpre).2
    cases key with
    | nil => exact h34 (List.cons_prefix_cons.mp hpre').1.symm
    | cons b key => exact hc b List.mem_cons_self (List.cons_prefix_cons.mp hpre').1
  -- up to the opening quote of the value
  have hkey : after (quoted key) (member (other, value) ++ 44 :: rest) =
      after (quoted key) (34 :: (jsonEscapeMinimal value ++ 34 :: 44 :: rest)) := by
    have hbytes : member (other, value) ++ 44 :: rest =
        34 :: (other ++ 34 :: 58 :: 34 :: (jsonEscapeMinimal value ++ 34 :: 44 :: rest)) := by
      simp [member, quoted]
    rw [hbytes, after_cons, hfield.after_letters, hnot (fun b hb => (h b hb).2.2.1) (by decide)]
    · exact after_cons_of_ne (by decide) _ _
    · intro hpre
      have hkeys := eq_of_stop (fun hin => (h 34 hin).1 rfl) (fun hin => (hfield 34 hin).1 rfl)
        (List.cons_prefix_cons.mp hpre).2
      exact hne hkeys.symm
  rw [hkey]
  by_cases hstarts : quoted key <+: 34 :: (jsonEscapeMinimal value ++ 34 :: 44 :: rest)
  · -- the value is the key
    obtain ⟨hvalue, hescape⟩ := h.eq_of_prefix (List.cons_prefix_cons.mp hstarts).2
    refine .inl ⟨?_, .inl hvalue⟩
    rw [hescape]
    have hself := after_self (quoted key) (44 :: rest)
    simpa [quoted] using hself
  · rw [after_cons hstarts]
    rcases h.after_value value (44 :: rest) with ⟨hfound, hends⟩ | hskipped
    · exact .inl ⟨hfound, .inr hends⟩
    · right
      rw [hskipped, hnot (fun b hb => (h b hb).2.2.2) (by decide)]
      exact after_cons_of_ne (by decide) _ _

/-- A string behind a colon is the value. -/
theorem valueBehind_colon {front : Bytes} (hfront : 58 ∉ front) (value rest : Bytes) :
    valueBehind (front ++ 58 :: 34 :: (jsonEscapeMinimal value ++ 34 :: rest)) = some (value, rest) := by
  unfold valueBehind
  rw [after_singleton hfront]
  show (if (34 : Byte) = 34 then readString (jsonEscapeMinimal value ++ 34 :: rest) else none) = _
  rw [if_pos rfl]
  exact readString_escape value rest

theorem member_append (key value rest : Bytes) : member (key, value) ++ rest =
    quoted key ++ 58 :: 34 :: (jsonEscapeMinimal value ++ 34 :: rest) := by
  simp [member]

/-- The first field, and what follows it. -/
theorem exists_intercalate (field : Bytes × Bytes) (rest : List (Bytes × Bytes)) (tail : Bytes) :
    ∃ more, List.intercalate [44] ((field :: rest).map member) ++ tail = member field ++ more := by
  cases rest with
  | nil => exact ⟨tail, by rw [List.map_singleton, List.intercalate_singleton]⟩
  | cons field' rest =>
    refine ⟨[44] ++ List.intercalate [44] ((field' :: rest).map member) ++ tail, ?_⟩
    rw [List.map_cons, List.map_cons, List.intercalate_cons_cons]
    simp only [List.append_assoc]

/-- The search, from any field on. -/
theorem PlainKey.extract_fields {key : Bytes} (h : PlainKey key) (value : Bytes)
    {before : List (Bytes × Bytes)} (hbefore : ∀ field ∈ before, PlainKey field.1 ∧ field.1 ≠ key)
    (hclear : ∀ field ∈ before.dropLast, ¬Confusing key field.2) (rest : List (Bytes × Bytes))
    (tail : Bytes) : ((after (quoted key) (List.intercalate [44]
      ((before ++ (key, value) :: rest).map member) ++ tail)).bind valueBehind).map Prod.fst =
        some value := by
  induction before with
  | nil =>
    obtain ⟨more, hmore⟩ := exists_intercalate (key, value) rest tail
    rw [List.nil_append, hmore, member_append, after_self, Option.bind_some]
    have hvalue := @valueBehind_colon [] List.not_mem_nil value more
    rw [List.nil_append] at hvalue
    rw [hvalue]
    rfl
  | cons field before ih =>
    obtain ⟨⟨hplain, hne⟩, hbefore⟩ := List.forall_mem_cons.mp hbefore
    have hsplit : List.intercalate [44] ((field :: before ++ (key, value) :: rest).map member) ++ tail =
        member field ++ 44 :: (List.intercalate [44]
          ((before ++ (key, value) :: rest).map member) ++ tail) := by
      have hnonempty : (before ++ (key, value) :: rest).map member ≠ [] := by simp
      rw [List.cons_append, List.map_cons, List.intercalate_cons_of_ne_nil hnonempty]
      simp only [List.append_assoc, List.cons_append, List.nil_append]
    have hmember := h.after_member hplain hne
      (List.intercalate [44] ((before ++ (key, value) :: rest).map member) ++ tail)
    rw [hsplit]
    rcases hmember with ⟨hfound, hconfusing⟩ | hskipped
    · -- the search stops one field early, and takes the colon of the next one
      cases before with
      | cons field' before =>
        exact absurd hconfusing (hclear field (by rw [List.dropLast_cons_cons]; exact List.mem_cons_self))
      | nil =>
        obtain ⟨more, hmore⟩ := exists_intercalate (key, value) rest tail
        rw [hfound, Option.bind_some, List.nil_append, hmore, member_append]
        have hcolon : (58 : Byte) ∉ 44 :: quoted key := by
          simp only [quoted, List.mem_cons, List.mem_append, List.not_mem_nil, or_false, not_or]
          exact ⟨by decide, by decide, fun hmem => (h 58 hmem).2.2.1 rfl, by decide⟩
        have hvalue := valueBehind_colon hcolon value more
        rw [List.cons_append] at hvalue
        rw [hvalue]
        rfl
    · rw [hskipped]
      refine ih hbefore fun field' hin => hclear field' ?_
      cases before with
      | nil => cases hin
      | cons next before =>
        rw [List.dropLast_cons_cons]
        exact List.mem_cons_of_mem _ hin

/-- **A field is read back, whatever the values are**, if the keys in front of it are others and no value
but the last in front of it is confused with its key. -/
theorem extract_object {key : Bytes} (hkey : PlainKey key) (value : Bytes) {before : List (Bytes × Bytes)}
    (hbefore : ∀ field ∈ before, PlainKey field.1 ∧ field.1 ≠ key)
    (hclear : ∀ field ∈ before.dropLast, ¬Confusing key field.2) (rest : List (Bytes × Bytes)) :
    extractJsonStringField (object (before ++ (key, value) :: rest)) key = some value := by
  unfold extractJsonStringField extractJsonStringFieldFrom object
  have hbrace : after (quoted key) (123 :: (List.intercalate [44]
      ((before ++ (key, value) :: rest).map member) ++ [125])) = after (quoted key)
        (List.intercalate [44] ((before ++ (key, value) :: rest).map member) ++ [125]) :=
    after_cons_of_ne (by decide) _ _
  rw [hbrace]
  exact hkey.extract_fields value hbefore hclear rest [125]

/-- The user's name is confused with the key behind it; the realm in front of it must not be. -/
theorem extract_object_password :
    extractJsonStringField (object [(.ofLiteral "realm", .ofLiteral "\"key\""),
      (.ofLiteral "user", .ofLiteral "\"password"), (.ofLiteral "password", .ofLiteral "secret")])
        (.ofLiteral "password") = some (.ofLiteral "secret") := by
  have hkey : PlainKey (.ofLiteral "password") := by
    unfold PlainKey Bytes.ofLiteral
    simp
  have huser : PlainKey (.ofLiteral "user") := by
    unfold PlainKey Bytes.ofLiteral
    simp
  have hrealm : PlainKey (.ofLiteral "realm") := by
    unfold PlainKey Bytes.ofLiteral
    simp
  refine @extract_object (.ofLiteral "password") hkey (.ofLiteral "secret")
    [(.ofLiteral "realm", .ofLiteral "\"key\""), (.ofLiteral "user", .ofLiteral "\"password")] ?_ ?_ []
  · intro field hfield
    rcases List.mem_cons.mp hfield with rfl | hfield
    · exact ⟨hrealm, by decide⟩
    · rw [List.mem_singleton.mp hfield]
      exact ⟨huser, by decide⟩
  · -- only the realm has another field between it and the password
    intro field hfield
    rw [List.mem_singleton.mp hfield]
    unfold Confusing
    decide

end StarMind

end Tudou
