import Mathlib.Data.List.Nodup
import Tudou.Foundation.HeadFraming
import Tudou.Http.HttpResponse

/-!
# How responses are delimited

The `Content-Length` of a response built by the operations of `HttpResponse`
(`src/tudou/http/HttpResponse.cpp`) and completed by `send_http_response`
(`src/tudou/http/HttpServer.cpp`).

* `announced` — the values of the `Content-Length` lines among some lines, whatever their letter case.
* `Delimited` — the head on the stream ends with its first empty line and has one such line, which says how
  many body bytes are handed to the connection.
* `ResponseOp`, `built` — the response after a sequence of operations.
* `Declared` — which sizes the operations have written down, in which spelling, and what the status message
  does to the head.
* `delimited_iff` — **a response is delimited exactly when no other spelling is left in its headers, no
  such line and no empty line in its status message, and the size written down last, if any, is that of
  the body.**
-/

namespace Tudou

open HeadFraming

/-- The ASCII letters without their case. -/
def toLower (b : Byte) : Byte := if 65 ≤ b ∧ b ≤ 90 then b + 32 else b

/-- A `Content-Length` in any letter case. -/
def isContentLength (field : Bytes) : Bool :=
  field.map toLower = kContentLengthHeader.map toLower

/-- A header line: the field, and the value without the blanks in front. -/
def headerOf (line : Bytes) : Option (Bytes × Bytes) :=
  if 58 ∈ line then
    some (line.takeWhile (· ≠ 58), (line.drop (line.idxOf 58 + 1)).dropWhile (· = 32))
  else none

/-- The values of the `Content-Length` lines among some header lines. -/
def announced (lines : List Bytes) : List Bytes :=
  ((lines.filterMap headerOf).filter fun kv => isContentLength kv.1).map Prod.snd

@[simp] theorem announced_append (lines lines' : List Bytes) :
    announced (lines ++ lines') = announced lines ++ announced lines' := by
  simp [announced]

/-- `append_headers` writes this in front of the end of line. -/
def headerLine (kv : Bytes × Bytes) : Bytes := kv.1 ++ .ofLiteral ": " ++ kv.2

/-- A header line is taken apart at its first colon. -/
theorem headerOf_line {field : Bytes} (hfield : 58 ∉ field) (value : Bytes) :
    headerOf (field ++ .ofLiteral ": " ++ value) = some (field, value.dropWhile (· = 32)) := by
  have hcolon : Bytes.ofLiteral ": " = [58, 32] := by decide
  have hmem : (58 : Byte) ∈ field ++ [58, 32] ++ value := by simp
  have hnot : ∀ b ∈ field, b ≠ 58 := fun b hb heq => hfield (heq ▸ hb)
  unfold headerOf
  rw [hcolon, if_pos hmem]
  have htake : (field ++ [58, 32] ++ value).takeWhile (· ≠ 58) = field := by
    rw [List.append_assoc, List.takeWhile_append_of_pos (by simpa using hnot)]
    simp
  have hdrop : (field ++ [58, 32] ++ value).drop ((field ++ [58, 32] ++ value).idxOf 58 + 1) =
      32 :: value := by
    rw [List.append_assoc, List.idxOf_append, if_neg hfield, List.cons_append, List.idxOf_cons_self,
      Nat.zero_add]
    simp
  rw [htake, hdrop]
  rfl

theorem headerLine_ne_nil (kv : Bytes × Bytes) : headerLine kv ≠ [] := by
  have hcolon : Bytes.ofLiteral ": " ≠ [] := by decide
  simp [headerLine, hcolon]

/-- The header brings no `Content-Length` line and no empty line, not even behind an end of line of its
own. -/
def Quiet (kv : Bytes × Bytes) : Prop :=
  announced (linesOf (headerLine kv)) = [] ∧ [] ∉ linesOf (headerLine kv)

/-- A status message that brings, behind an end of line of its own, a `Content-Length` line, or an empty
line, with which the head ends for whoever reads it. -/
def disturbsHead (statusMessage : Bytes) : Bool :=
  let lines := (linesOf statusMessage).tail
  lines.contains [] || !(announced lines).isEmpty

/-- No spelling of `Content-Length` has a CR or a colon. -/
theorem clean_of_isContentLength {field : Bytes} (h : isContentLength field = true) :
    13 ∉ field ∧ 58 ∉ field := by
  have hmap : field.map toLower = kContentLengthHeader.map toLower := of_decide_eq_true h
  have hlower : toLower 13 ∉ kContentLengthHeader.map toLower ∧
      toLower 58 ∉ kContentLengthHeader.map toLower := by
    decide
  rw [← hmap] at hlower
  exact ⟨fun hmem => hlower.1 (List.mem_map_of_mem hmem), fun hmem => hlower.2 (List.mem_map_of_mem hmem)⟩

/-- The line of a `Content-Length`. -/
theorem announced_cons {field : Bytes} (hlength : isContentLength field = true) (value : Bytes)
    (lines : List Bytes) : announced ((field ++ .ofLiteral ": " ++ value) :: lines) =
      value.dropWhile (· = 32) :: announced lines := by
  have hline := headerOf_line (clean_of_isContentLength hlength).2 value
  unfold announced
  rw [List.filterMap_cons_some hline, List.filter_cons_of_pos (by exact hlength)]
  rfl

/-- A `Content-Length` with a value brings a `Content-Length` line. -/
theorem Quiet.isContentLength {kv : Bytes × Bytes} (h : Quiet kv) :
    isContentLength kv.1 = false := by
  rw [Bool.eq_false_iff]
  intro hlength
  have hcr := (clean_of_isContentLength hlength).1
  obtain ⟨line, lines, hvalue⟩ := List.exists_cons_of_ne_nil (linesOf_ne_nil kv.2)
  have hblank : 13 ∉ kv.1 ++ Bytes.ofLiteral ": " := by
    rw [List.mem_append, not_or]
    exact ⟨hcr, by decide⟩
  have hnone := h.1
  unfold headerLine at hnone
  rw [linesOf_append hblank hvalue, announced_cons hlength] at hnone
  cases hnone

/-! ## Numbers -/

/-- The characters of a number are digits, as bytes and back. -/
theorem digit_byte {c : Char} (hc : c.isDigit = true) :
    Char.ofNat (UInt8.ofNat c.toNat).toNat = c ∧ 48 ≤ UInt8.ofNat c.toNat ∧ UInt8.ofNat c.toNat ≤ 57 := by
  simp only [Char.isDigit, Bool.and_eq_true, decide_eq_true_eq] at hc
  have hlow : 48 ≤ c.toNat := UInt32.le_iff_toNat_le.mp hc.1
  have hhigh : c.toNat ≤ 57 := UInt32.le_iff_toNat_le.mp hc.2
  have hbyte : (UInt8.ofNat c.toNat).toNat = c.toNat := by
    rw [UInt8.toNat_ofNat']
    omega
  refine ⟨by rw [hbyte, Char.ofNat_toNat], ?_, ?_⟩
  · apply UInt8.le_iff_toNat_le.mpr
    rw [hbyte]
    exact hlow
  · apply UInt8.le_iff_toNat_le.mpr
    rw [hbyte]
    exact hhigh

theorem isDigit_toDigits {n : Nat} {c : Char} (hc : c ∈ Nat.toDigits 10 n) : c.isDigit = true :=
  Nat.isDigit_of_mem_toDigits (by decide) (by decide) hc

theorem mem_ofNat {n : Nat} {b : Byte} (hb : b ∈ Bytes.ofNat n) : 48 ≤ b ∧ b ≤ 57 := by
  simp only [Bytes.ofNat, Bytes.ofLiteral, Nat.toList_repr] at hb
  obtain ⟨c, hc, rfl⟩ := List.mem_map.mp hb
  exact (digit_byte (isDigit_toDigits hc)).2

/-- A number has no end of line. -/
theorem cr_not_mem_ofNat (n : Nat) : 13 ∉ Bytes.ofNat n := fun hmem =>
  absurd (mem_ofNat hmem).1 (by decide)

/-- No status code has a CR. -/
theorem cr_not_mem_statusCode (code : Int) : 13 ∉ Bytes.ofLiteral (toString code) := by
  cases code with
  | ofNat n => exact cr_not_mem_ofNat n
  | negSucc n =>
    have hneg : Bytes.ofLiteral (toString (Int.negSucc n)) = 45 :: Bytes.ofLiteral (n + 1).repr := by
      show Bytes.ofLiteral ("-" ++ (n + 1).repr) = _
      simp [Bytes.ofLiteral]
    rw [hneg, List.mem_cons, not_or]
    exact ⟨by decide, cr_not_mem_ofNat _⟩

/-- There are no blanks in front of a number. -/
theorem dropWhile_ofNat (n : Nat) : (Bytes.ofNat n).dropWhile (· = 32) = Bytes.ofNat n := by
  cases hdigits : Bytes.ofNat n with
  | nil => rfl
  | cons b bs =>
    have hle : 48 ≤ b := (mem_ofNat (hdigits ▸ List.mem_cons_self)).1
    have hne : b ≠ 32 := by
      rintro rfl
      exact absurd hle (by decide)
    simp [hne]

/-- What a header puts into the head: its value if it is a `Content-Length`, and no empty line. -/
def Tidy (kv : Bytes × Bytes) : Prop :=
  announced (linesOf (headerLine kv)) = (if isContentLength kv.1 then [kv.2] else []) ∧
    [] ∉ linesOf (headerLine kv)

/-- **A `Content-Length` of a size is one line**, with that size. -/
theorem tidy_of_isContentLength {field : Bytes} (hlength : isContentLength field = true) (n : Nat) :
    Tidy (field, .ofNat n) := by
  have hcr := (clean_of_isContentLength hlength).1
  have hclean : 13 ∉ headerLine (field, .ofNat n) := by
    simp only [headerLine, List.mem_append, not_or]
    exact ⟨⟨hcr, by decide⟩, cr_not_mem_ofNat n⟩
  unfold Tidy
  rw [linesOf_line hclean]
  constructor
  · rw [headerLine, announced_cons hlength, dropWhile_ofNat, if_pos hlength]
    rfl
  · rw [List.mem_singleton]
    exact (headerLine_ne_nil _).symm

theorem Quiet.tidy {kv : Bytes × Bytes} (h : Quiet kv) : Tidy kv := by
  refine ⟨?_, h.2⟩
  rw [h.isContentLength]
  exact h.1

/-- A number can be read back. -/
theorem Bytes.ofNat_injective : Function.Injective Bytes.ofNat := by
  have hread : ∀ n, (Bytes.ofNat n).map (fun b => Char.ofNat b.toNat) = Nat.toDigits 10 n := by
    intro n
    simp only [Bytes.ofNat, Bytes.ofLiteral, Nat.toList_repr, List.map_map]
    rw [List.map_congr_left (g := id), List.map_id]
    intro c hc
    exact (digit_byte (isDigit_toDigits hc)).1
  intro m n h
  rw [← Nat.ofDigitChars_ten_toDigits (n := m), ← Nat.ofDigitChars_ten_toDigits (n := n), ← hread m,
    ← hread n, h]

namespace HttpResponse

/-- `set_status(code, message)`. -/
def setStatus (statusCode : Int) (statusMessage : Bytes) (r : HttpResponse) : HttpResponse :=
  { r with statusCode := statusCode, statusMessage := statusMessage }

/-- `set_close_connection(on)`. -/
def setCloseConnection (on : Bool) (r : HttpResponse) : HttpResponse := { r with closeConnection := on }

/-- The size of the body: of the file, or of the one in memory. -/
def bodySize (r : HttpResponse) : Nat :=
  if r.validFile.isSome then r.getFileSize else r.body.length

/-- The headers that `append_headers` writes. -/
def headFields (r : HttpResponse) : List (Bytes × Bytes) :=
  r.headers ++
    if r.closeConnection && !r.hasHeader kConnectionHeader then
      [(kConnectionHeader, kCloseConnectionValue)]
    else []

/-- Everything in front of the body. -/
def messageHead (r : HttpResponse) : Bytes := r.statusLine ++ r.headerLines ++ crlf

/-- The status line without its end. -/
def statusText (r : HttpResponse) : Bytes :=
  r.httpVersion ++ [32] ++ .ofLiteral (toString r.statusCode) ++ [32] ++ r.statusMessage

/-- The lines of the head that is sent, between the status line and the empty line at its end. -/
def fieldLines (r : HttpResponse) : List Bytes := innerLines r.withContentLength.messageHead

/-- The values of the `Content-Length` lines among these. -/
def contentLengths (r : HttpResponse) : List Bytes := announced r.fieldLines

end HttpResponse

/-- The body bytes a request hands to the connection, behind a head of so many bytes. -/
def Request.bodyHanded (headLength : Nat) : Request → Nat
  | .send msg => msg.length - headLength
  | .sendFileWithHeader header _ size _ => header.length - headLength + size
  | .sendFile .. | .forceClose | .receive => 0

namespace HttpResponse

/-- **The response is delimited**: its head ends with its first empty line and has one `Content-Length`,
the number of body bytes handed to the connection. -/
def Delimited (r : HttpResponse) : Prop :=
  let resp := r.withContentLength
  [] ∉ r.fieldLines ∧
    r.contentLengths =
      [.ofNat ((resp.sendPlainResponse r.responseHead).bodyHanded resp.messageHead.length)]

instance (r : HttpResponse) : Decidable r.Delimited := inferInstanceAs (Decidable (_ ∧ _))

/-- The head is the status line, the headers and an empty line. -/
theorem messageHead_eq (r : HttpResponse) :
    r.messageHead = headBytes (r.statusText :: r.headFields.map headerLine) := by
  have hlines : r.headerLines = ((r.headFields.map headerLine).map (· ++ [13, 10])).flatten := by
    unfold headerLines headFields
    split
    · simp [headerLine, crlf, Function.comp_def]
    · simp [headerLine, crlf, Function.comp_def]
  simp only [messageHead, hlines, headBytes, List.map_cons, List.flatten_cons, statusLine, statusText, crlf]

theorem packageToString_eq (r : HttpResponse) :
    r.packageToString = r.messageHead ++ if r.validFile.isSome then [] else r.body := rfl

@[simp] theorem withContentLength_bodySize (r : HttpResponse) :
    r.withContentLength.bodySize = r.bodySize := by
  unfold withContentLength
  split
  · rfl
  · rfl

/-- What is handed to the connection as the body has the size of the body. -/
theorem bodyHanded_sendPlainResponse (r : HttpResponse) :
    (r.sendPlainResponse r.packageToString).bodyHanded r.messageHead.length = r.bodySize := by
  rw [packageToString_eq]
  unfold sendPlainResponse bodySize
  cases hfile : r.validFile with
  | none => simp [Request.bodyHanded]
  | some file =>
    have hbody : r.hasFileBody = true := by
      unfold validFile at hfile
      split at hfile
      · assumption
      · cases hfile
    simp [Request.bodyHanded, getFileSize, hbody]

end HttpResponse

/-! ## What a handler does to a response -/

/-- What a handler may do; a `Content-Length` it sets is the size of the body at that moment, and it brings
none in through another header, nor the end of the head. -/
inductive ResponseOp where
  /-- `resp = HttpResponse::plain_text(statusCode, statusMessage, body)`. -/
  | plainText (statusCode : Int) (statusMessage body : Bytes)
  | setStatus (statusCode : Int) (statusMessage : Bytes)
  | setContentLength (spelling : { field : Bytes // isContentLength field = true })
  | setHeader (header : { kv : Bytes × Bytes // Quiet kv })
  | setBody (body : Bytes)
  | setFileBody (file : Option ScopedFd) (size offset : Nat)
  | setCloseConnection (on : Bool)

namespace ResponseOp

def apply (r : HttpResponse) : ResponseOp → HttpResponse
  | plainText statusCode statusMessage body => .plainText statusCode statusMessage body
  | setStatus statusCode statusMessage => r.setStatus statusCode statusMessage
  | setContentLength spelling => r.setHeader spelling.1 (.ofNat r.bodySize)
  | setHeader header => r.setHeader header.1.1 header.1.2
  | setBody body => r.setBody body
  | setFileBody file size offset => r.setFileBody file size offset
  | setCloseConnection on => r.setCloseConnection on

end ResponseOp

/-- The response a handler has built. -/
def built (ops : List ResponseOp) : HttpResponse := ops.foldl ResponseOp.apply {}

/-- What the operations have written down: the last size under `Content-Length` itself, whether another
spelling is in use, and whether the status message disturbs the head; and the size of the body. -/
structure Declared where
  length : Option Nat
  otherSpelling : Bool
  inStatus : Bool
  size : Nat
  deriving DecidableEq, Repr

namespace Declared

def apply (d : Declared) : ResponseOp → Declared
  | .plainText _ statusMessage body =>
    ⟨some body.length, false, disturbsHead statusMessage, body.length⟩
  | .setStatus _ statusMessage => { d with inStatus := disturbsHead statusMessage }
  | .setContentLength spelling =>
    if spelling.1 = kContentLengthHeader then { d with length := some d.size }
    else { d with otherSpelling := true }
  | .setBody body => { d with size := body.length }
  | .setFileBody file size _ => { d with size := if (file.filter (·.valid)).isSome then size else 0 }
  | .setHeader _ | .setCloseConnection _ => d

/-- The sizes written down by a sequence of operations. -/
def of (ops : List ResponseOp) : Declared := ops.foldl apply ⟨none, false, false, 0⟩

end Declared

/-- **The invariant**: the head of a response says what was written down. -/
structure HttpResponse.Says (r : HttpResponse) (d : Declared) : Prop where
  size : r.bodySize = d.size
  version : r.httpVersion = kHttpVersion
  status : disturbsHead r.statusMessage = d.inStatus
  tidy : ∀ kv ∈ r.headers, Tidy kv
  length : r.headers.lookup kContentLengthHeader = d.length.map .ofNat
  other : (∃ field ∈ r.headers.map Prod.fst, isContentLength field = true ∧
    field ≠ kContentLengthHeader) ↔ d.otherSpelling = true
  nodup : (r.headers.map Prod.fst).Nodup

namespace HttpResponse.Says

theorem isContentLength_self : isContentLength kContentLengthHeader = true := by decide

theorem init : ({} : HttpResponse).Says ⟨none, false, false, 0⟩ :=
  ⟨rfl, rfl, by decide, fun kv hkv => (by cases hkv), rfl, by simp, List.nodup_nil⟩

theorem plainText (statusCode : Int) (statusMessage body : Bytes) :
    (HttpResponse.plainText statusCode statusMessage body).Says
      ⟨some body.length, false, disturbsHead statusMessage, body.length⟩ := by
  have hheaders : (HttpResponse.plainText statusCode statusMessage body).headers =
      [(kContentTypeHeader, kPlainTextContentType), (kContentLengthHeader, .ofNat body.length)] := by
    have hne : kContentTypeHeader ≠ kContentLengthHeader := by decide
    simp [HttpResponse.plainText, HttpResponse.setHeader, Tudou.setHeader, HttpResponse.setBody, hne]
  have htype : isContentLength kContentTypeHeader = false := by decide
  refine ⟨rfl, rfl, rfl, ?_, ?_, ?_, ?_⟩
  · rw [hheaders]
    simp only [List.mem_cons, List.not_mem_nil, or_false]
    rintro kv (rfl | rfl)
    · exact ⟨by decide, by decide⟩
    · exact tidy_of_isContentLength isContentLength_self _
  · rw [hheaders]
    rfl
  · rw [hheaders]
    simp [htype]
  · rw [hheaders]
    show [kContentTypeHeader, kContentLengthHeader].Nodup
    decide

theorem mem_fields_setHeader {field value f : Bytes} {headers : List (Bytes × Bytes)} :
    f ∈ (Tudou.setHeader field value headers).map Prod.fst ↔ f = field ∨ f ∈ headers.map Prod.fst := by
  rw [fields_setHeader]
  split
  · rename_i hmem
    constructor
    · exact .inr
    · rintro (rfl | h)
      · exact hmem
      · exact h
  · rw [List.mem_append, List.mem_singleton, or_comm]

theorem nodup_setHeader {r : HttpResponse} {d : Declared} (h : r.Says d) (field value : Bytes) :
    ((r.setHeader field value).headers.map Prod.fst).Nodup := by
  show ((Tudou.setHeader field value r.headers).map Prod.fst).Nodup
  rw [fields_setHeader]
  split
  · exact h.nodup
  · rename_i hnot
    exact List.nodup_append.mpr ⟨h.nodup, List.nodup_singleton _, fun a ha b hb => by
      rw [List.mem_singleton.mp hb]
      rintro rfl
      exact hnot ha⟩

theorem tidy_setHeader {r : HttpResponse} {d : Declared} (h : r.Says d) {field value : Bytes}
    (htidy : Tidy (field, value)) : ∀ kv ∈ (r.setHeader field value).headers, Tidy kv := by
  intro kv hkv
  rcases mem_setHeader hkv with rfl | hkv
  · exact htidy
  · exact h.tidy kv hkv

/-- `set_header` with the size of the body under `Content-Length` itself. -/
theorem setLength {r : HttpResponse} {d : Declared} (h : r.Says d) :
    (r.setHeader kContentLengthHeader (.ofNat r.bodySize)).Says { d with length := some d.size } := by
  refine ⟨h.size, h.version, h.status, ?_, ?_, ?_, h.nodup_setHeader _ _⟩
  · exact h.tidy_setHeader (tidy_of_isContentLength isContentLength_self _)
  · show (Tudou.setHeader _ _ r.headers).lookup _ = _
    rw [lookup_setHeader, if_pos rfl, h.size]
    rfl
  · rw [← h.other]
    constructor
    · rintro ⟨field, hmem, hlength, hne⟩
      exact ⟨field, (mem_fields_setHeader.mp hmem).resolve_left hne, hlength, hne⟩
    · rintro ⟨field, hmem, hlength, hne⟩
      exact ⟨field, mem_fields_setHeader.mpr (.inr hmem), hlength, hne⟩

/-- `set_header` with a size under another spelling. -/
theorem setOther {r : HttpResponse} {d : Declared} (h : r.Says d) {field : Bytes}
    (hlength : isContentLength field = true) (hne : field ≠ kContentLengthHeader) (n : Nat) :
    (r.setHeader field (.ofNat n)).Says { d with otherSpelling := true } := by
  refine ⟨h.size, h.version, h.status, ?_, ?_, ?_, h.nodup_setHeader _ _⟩
  · exact h.tidy_setHeader (tidy_of_isContentLength hlength n)
  · show (Tudou.setHeader _ _ r.headers).lookup _ = _
    rw [lookup_setHeader, if_neg (Ne.symm hne)]
    exact h.length
  · exact iff_of_true ⟨field, mem_fields_setHeader.mpr (.inl rfl), hlength, hne⟩ rfl

/-- `set_header` with another header. -/
theorem setHeader {r : HttpResponse} {d : Declared} (h : r.Says d) {field value : Bytes}
    (hquiet : Quiet (field, value)) : (r.setHeader field value).Says d := by
  have hother : isContentLength field = false := hquiet.isContentLength
  have hne : kContentLengthHeader ≠ field := by
    rintro rfl
    rw [isContentLength_self] at hother
    cases hother
  refine ⟨h.size, h.version, h.status, h.tidy_setHeader hquiet.tidy, ?_, ?_, h.nodup_setHeader _ _⟩
  · show (Tudou.setHeader _ _ r.headers).lookup _ = _
    rw [lookup_setHeader, if_neg hne]
    exact h.length
  · rw [← h.other]
    constructor
    · rintro ⟨f, hmem, hlength, hne⟩
      refine ⟨f, (mem_fields_setHeader.mp hmem).resolve_left ?_, hlength, hne⟩
      rintro rfl
      rw [hother] at hlength
      cases hlength
    · rintro ⟨f, hmem, hlength, hne⟩
      exact ⟨f, mem_fields_setHeader.mpr (.inr hmem), hlength, hne⟩

/-- **Every operation keeps the head in step with what was written down.** -/
theorem apply {r : HttpResponse} {d : Declared} (h : r.Says d) (op : ResponseOp) :
    (op.apply r).Says (d.apply op) := by
  cases op with
  | plainText statusCode statusMessage body => exact .plainText statusCode statusMessage body
  | setStatus _ _ => exact ⟨h.size, h.version, rfl, h.tidy, h.length, h.other, h.nodup⟩
  | setCloseConnection _ => exact ⟨h.size, h.version, h.status, h.tidy, h.length, h.other, h.nodup⟩
  | setContentLength spelling =>
    by_cases hexact : spelling.1 = kContentLengthHeader
    · simp only [ResponseOp.apply, Declared.apply, hexact, if_true]
      exact h.setLength
    · simp only [ResponseOp.apply, Declared.apply, if_neg hexact]
      exact h.setOther spelling.2 hexact _
  | setHeader header => exact h.setHeader header.2
  | setBody body => exact ⟨rfl, h.version, h.status, h.tidy, h.length, h.other, h.nodup⟩
  | setFileBody file size offset =>
    refine ⟨?_, h.version, h.status, h.tidy, h.length, h.other, h.nodup⟩
    simp only [ResponseOp.apply, HttpResponse.setFileBody, bodySize, validFile, getFileSize,
      Declared.apply, if_true, List.length_nil]

end HttpResponse.Says

theorem says_built (ops : List ResponseOp) : (built ops).Says (.of ops) := by
  suffices ∀ r d, HttpResponse.Says r d →
      (ops.foldl ResponseOp.apply r).Says (ops.foldl Declared.apply d) from this _ _ .init
  induction ops with
  | nil => exact fun _ _ h => h
  | cons op ops ih => exact fun _ _ h => ih _ _ (h.apply op)

/-! ## The Content-Length that is sent -/

namespace HttpResponse

theorem hasHeader_iff (r : HttpResponse) (field : Bytes) :
    r.hasHeader field = true ↔ field ∈ r.headers.map Prod.fst := by
  simp [hasHeader]

/-- The lines of some headers, of which each `Content-Length` is one line. -/
theorem announced_headers {kvs : List (Bytes × Bytes)} (h : ∀ kv ∈ kvs, Tidy kv) :
    announced ((kvs.map headerLine).flatMap linesOf) =
      (kvs.filter fun kv => isContentLength kv.1).map Prod.snd := by
  induction kvs with
  | nil => rfl
  | cons kv kvs ih =>
    obtain ⟨hkv, hkvs⟩ := List.forall_mem_cons.mp h
    rw [List.map_cons, List.flatMap_cons, announced_append, ih hkvs, hkv.1]
    cases hlength : isContentLength kv.1 with
    | true => simp [hlength]
    | false => simp [hlength]

namespace Says

/-- Where a size is written down, it is one of the headers. -/
theorem mem {r : HttpResponse} {d : Declared} (h : r.Says d) {n : Nat} (hn : d.length = some n) :
    (kContentLengthHeader, Bytes.ofNat n) ∈ r.headers := by
  have hlookup := h.length
  rw [hn] at hlookup
  obtain ⟨before, after, heq, _⟩ := List.lookup_eq_some_iff.mp hlookup
  rw [heq]
  exact List.mem_append_right _ List.mem_cons_self

/-- **The header that `send_http_response` fills in** is the size of the body, where none was written. -/
theorem completed {r : HttpResponse} {d : Declared} (h : r.Says d) :
    r.withContentLength.Says { d with length := some (d.length.getD d.size) } := by
  unfold withContentLength
  have hhas := r.hasHeader_iff kContentLengthHeader
  cases hlength : d.length with
  | some n =>
    rw [if_pos (hhas.mpr (List.mem_map_of_mem (h.mem hlength)))]
    exact ⟨h.size, h.version, h.status, h.tidy, by rw [h.length, hlength]; rfl, h.other, h.nodup⟩
  | none =>
    rw [if_neg]
    · exact h.setLength
    · intro hmem
      obtain ⟨⟨_, v⟩, hv, rfl⟩ := List.mem_map.mp (hhas.mp hmem)
      have hnone := h.length
      rw [hlength] at hnone
      exact absurd rfl (bne_iff_ne.mp (List.lookup_eq_none_iff.mp hnone _ hv))

/-- **The lines of the head** are those that the status message brings, and those of the headers. -/
theorem innerLines_messageHead {r : HttpResponse} {d : Declared} (h : r.Says d) :
    innerLines r.messageHead =
      (linesOf r.statusMessage).tail ++ (r.headFields.map headerLine).flatMap linesOf := by
  have hfront : 13 ∉ r.httpVersion ++ [32] ++ Bytes.ofLiteral (toString r.statusCode) ++ [32] := by
    have hcode := cr_not_mem_statusCode r.statusCode
    simp only [h.version, List.mem_append, List.mem_singleton, not_or]
    exact ⟨⟨⟨by decide, by decide⟩, hcode⟩, by decide⟩
  obtain ⟨line, lines, hmessage⟩ := List.exists_cons_of_ne_nil (linesOf_ne_nil r.statusMessage)
  have hstatus : linesOf r.statusText = _ := linesOf_append hfront hmessage
  rw [messageHead_eq, innerLines_headBytes hstatus, hmessage, List.tail_cons]

/-- **The `Content-Length` lines of the head** are those of the status message and the headers of that name. -/
theorem announced_messageHead {r : HttpResponse} {d : Declared} (h : r.Says d) :
    announced (innerLines r.messageHead) = announced (linesOf r.statusMessage).tail ++
      (r.headers.filter fun kv => isContentLength kv.1).map Prod.snd := by
  have hfields : announced ((r.headFields.map headerLine).flatMap linesOf) =
      (r.headers.filter fun kv => isContentLength kv.1).map Prod.snd := by
    unfold headFields
    rw [List.map_append, List.flatMap_append, announced_append, announced_headers h.tidy]
    split
    · have hconnection : announced
          (([(kConnectionHeader, kCloseConnectionValue)].map headerLine).flatMap linesOf) = [] := by
        decide
      rw [hconnection, List.append_nil]
    · exact List.append_nil _
  rw [h.innerLines_messageHead, announced_append, hfields]

/-- **An empty line in the head** is one of the status message. -/
theorem nil_mem_messageHead {r : HttpResponse} {d : Declared} (h : r.Says d) :
    [] ∈ innerLines r.messageHead ↔ [] ∈ (linesOf r.statusMessage).tail := by
  have hfields : [] ∉ (r.headFields.map headerLine).flatMap linesOf := by
    simp only [List.mem_flatMap, List.mem_map]
    rintro ⟨_, ⟨kv, hkv, rfl⟩, hnil⟩
    rcases List.mem_append.mp hkv with hkv | hkv
    · exact (h.tidy kv hkv).2 hnil
    · split at hkv
      · rw [List.mem_singleton.mp hkv] at hnil
        exact absurd hnil (by decide)
      · cases hkv
  rw [h.innerLines_messageHead, List.mem_append, or_iff_left hfields]

/-- Entries with different keys of which all are the same. -/
theorem eq_singleton_of_fst {kvs : List (Bytes × Bytes)} {k v : Bytes} (hmem : (k, v) ∈ kvs)
    (hfst : ∀ kv ∈ kvs, kv.1 = k) (hnodup : (kvs.map Prod.fst).Nodup) : kvs = [(k, v)] := by
  have hrep : kvs.map Prod.fst = List.replicate kvs.length k := by
    rw [← List.map_const']
    exact List.map_congr_left hfst
  have hlength : kvs.length ≤ 1 := by
    rw [hrep] at hnodup
    exact List.nodup_replicate.mp hnodup
  obtain ⟨kv, rfl⟩ : ∃ kv, kvs = [kv] :=
    List.length_eq_one_iff.mp (Nat.le_antisymm hlength (List.length_pos_of_mem hmem))
  rw [List.mem_singleton.mp hmem]

/-- **Which `Content-Length` headers there are**: the one written down, alone when no other spelling is in
use. -/
theorem filter_headers {r : HttpResponse} {d : Declared} (h : r.Says d) {n : Nat}
    (hn : d.length = some n) (l : List Bytes) (hl : l.length = 1) :
    (r.headers.filter fun kv => isContentLength kv.1).map Prod.snd = l ↔
      d.otherSpelling = false ∧ l = [.ofNat n] := by
  have hmem : (kContentLengthHeader, Bytes.ofNat n) ∈
      r.headers.filter fun kv => isContentLength kv.1 :=
    List.mem_filter.mpr ⟨h.mem hn, isContentLength_self⟩
  have hnodup : ((r.headers.filter fun kv => isContentLength kv.1).map Prod.fst).Nodup :=
    h.nodup.sublist (List.filter_sublist.map _)
  have hother := h.other
  constructor
  · intro heq
    obtain ⟨kv, hkv⟩ : ∃ kv, (r.headers.filter fun kv => isContentLength kv.1) = [kv] :=
      List.length_eq_one_iff.mp (by rw [← hl, ← heq, List.length_map])
    rw [hkv, List.mem_singleton] at hmem
    rw [hkv, ← hmem] at heq
    refine ⟨Bool.eq_false_iff.mpr fun htrue => ?_, heq.symm⟩
    obtain ⟨field, hfield, hlength, hne⟩ := hother.mpr htrue
    obtain ⟨⟨f, v⟩, hfv, rfl⟩ := List.mem_map.mp hfield
    have : (f, v) ∈ [kv] := hkv ▸ List.mem_filter.mpr ⟨hfv, hlength⟩
    rw [List.mem_singleton, ← hmem] at this
    exact hne (congrArg Prod.fst this)
  · rintro ⟨hfalse, rfl⟩
    have hfst : ∀ kv ∈ r.headers.filter fun kv => isContentLength kv.1, kv.1 = kContentLengthHeader := by
      intro kv hkv
      obtain ⟨hin, hlength⟩ := List.mem_filter.mp hkv
      by_contra hne
      rw [hother.mp ⟨kv.1, List.mem_map_of_mem hin, hlength, hne⟩] at hfalse
      cases hfalse
    rw [eq_singleton_of_fst hmem hfst hnodup]
    rfl

end Says

/-- The value that the length must have. -/
theorem delimited_eq (r : HttpResponse) :
    r.Delimited ↔ [] ∉ r.fieldLines ∧ r.contentLengths = [.ofNat r.bodySize] := by
  show _ ∧ r.contentLengths = [.ofNat
    ((r.withContentLength.sendPlainResponse r.withContentLength.packageToString).bodyHanded
      r.withContentLength.messageHead.length)] ↔ _
  rw [bodyHanded_sendPlainResponse, withContentLength_bodySize]

end HttpResponse

/-- **A response is delimited** exactly when no other spelling of `Content-Length` is left in its headers, no
such line and no empty line in its status message, and the size written down last, if any, is that of the
body: `plain_text` writes a size, and `set_body` and `set_file_body` leave it as it is. -/
theorem HttpResponse.delimited_iff (ops : List ResponseOp) :
    (built ops).Delimited ↔
      (Declared.of ops).otherSpelling = false ∧ (Declared.of ops).inStatus = false ∧
        ∀ n, (Declared.of ops).length = some n → n = (Declared.of ops).size := by
  have hsays := says_built ops
  have hfilled := hsays.completed
  have hsome : (((built ops).withContentLength.headers.filter fun kv => isContentLength kv.1).map
      Prod.snd) ≠ [] := by
    refine List.ne_nil_of_mem (List.mem_map_of_mem (List.mem_filter.mpr ⟨hfilled.mem rfl, ?_⟩))
    exact Says.isContentLength_self
  have hstatus : ([] ∉ (linesOf (built ops).withContentLength.statusMessage).tail ∧
      announced (linesOf (built ops).withContentLength.statusMessage).tail = []) ↔
        (Declared.of ops).inStatus = false := by
    rw [← hfilled.status]
    simp [disturbsHead]
  rw [delimited_eq, contentLengths, fieldLines, hfilled.nil_mem_messageHead, hfilled.announced_messageHead,
    List.append_eq_singleton_iff, or_iff_left fun hnil => hsome hnil.2, hfilled.filter_headers rfl _ rfl,
    List.singleton_inj, Bytes.ofNat_injective.eq_iff, hsays.size, ← and_assoc, hstatus, and_left_comm]
  refine and_congr_right fun _ => and_congr_right fun _ => ?_
  cases (Declared.of ops).length with
  | none => simp
  | some n => simp [eq_comm]

/-- The body is replaced after `plain_text` has written down the size of the former one. -/
theorem HttpResponse.stale_content_length : ¬ ∀ ops, (built ops).Delimited := by
  intro h
  exact absurd (h [.plainText 200 (.ofLiteral "OK") (.ofLiteral "abc"), .setBody (.ofLiteral "longer body")])
    (by decide)

end Tudou
